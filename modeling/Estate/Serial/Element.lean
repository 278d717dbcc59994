import Estate.Notice
import Estate.Path.Text
import Estate.Serial.Value

namespace Estate

open Serial (Reading Record Members)

def Path.toJson (path : Path) : Json := .text path.text

def Path.ofJson? (json : Json) : Option Path :=
  (Serial.text? json).bind fun text => (parse text).toOption

def Kind.toJson (kind : Kind) : Json := .text kind.key

def Kind.ofJson? (json : Json) : Option Kind := Serial.oneOf? all key .direct json

def Measure.toJson (unit : Measure) : Json := .text unit.key

def Measure.ofJson? (reading : Reading) (json : Json) : Option Measure :=
  Serial.oneOf? all key reading json

def Direction.toJson (direction : Direction) : Json := .text direction.key

def Direction.ofJson? (json : Json) : Option Direction := Serial.oneOf? all key .direct json

def Reserved.toJson (reserved : Reserved) : Json := .text reserved.name

def Reserved.ofJson? (json : Json) : Option Reserved := Serial.oneOf? all name .direct json

def Action.toJson (action : Action) : Json := .text action.name

def Action.ofJson? (reading : Reading) (json : Json) : Option Action :=
  Serial.oneOf? all name reading json

namespace Category

def toJson : Category → Json
  | .entity kind => .object [("entity", kind.toJson)]
  | .relationship => .text "relationship"

def ofJson? (json : Json) : Option Category := do
  match ← Serial.variant? json with
  | ("entity", some carried) => (Kind.ofJson? carried).map .entity
  | ("relationship", carried) => if Serial.isBare .direct carried then some .relationship else none
  | _ => none

end Category

namespace Relationship

def toJson (rel : Relationship) : Json :=
  .ofFields [("id", .text rel.id), ("name", .text rel.name), ("source", rel.source.toJson),
    ("target", rel.target.toJson), ("properties", rel.properties.toJson)]

def record (reading : Reading) : Record Relationship := do
  let id ← .required "id" Serial.text?
  let name ← .required "name" Serial.text?
  let source ← .required "source" Path.ofJson?
  let target ← .required "target" Path.ofJson?
  let properties ← .defaulted "properties" ∅ (Properties.ofJson? reading)
  return { id, name, source, target, properties }

def ofJson? (reading : Reading) (json : Json) : Option Relationship := (record reading).read json

end Relationship

namespace Entity

def Details.fields : Details → List (String × Json)
  | .tenant | .environment | .feed => []
  | .resourceType version => [("version", .text version)]
  | .resource type => [("resource_type", type.toJson)]
  | .metricType unit => [("unit", unit.toJson)]
  | .metric type => [("metric_type", type.toJson)]

def toJson (entity : Entity) : Json :=
  .ofFields (("kind", entity.details.kind.toJson) :: ("path", entity.path.toJson) ::
    ("properties", entity.properties.toJson) :: entity.details.fields)

def Details.record : Kind → Record Details
  | .tenant => return .tenant
  | .environment => return .environment
  | .feed => return .feed
  | .resourceType => return .resourceType (← .required "version" Serial.text?)
  | .resource => return .resource (← .required "resource_type" Path.ofJson?)
  | .metricType => return .metricType (← .required "unit" (Measure.ofJson? .again))
  | .metric => return .metric (← .required "metric_type" Path.ofJson?)

def record (kind : Kind) : Record Entity := do
  let path ← .required "path" Path.ofJson?
  let details ← Details.record kind
  let properties ← .defaulted "properties" ∅ (Properties.ofJson? .again)
  return { path, details, properties }

/-- The kind is a tag; that the path is of the same kind is not looked at. -/
def ofJson? (reading : Reading) (json : Json) : Option Entity := do
  let (kind, members) ← Serial.tagged? "kind" (Serial.tag? Kind.all Kind.key reading) json
  (record kind).run members

end Entity

namespace Element

/-- Elements are not tagged: what reads as an entity is one. -/
def toJson : Element → Json
  | .entity e => e.toJson
  | .relationship rel => rel.toJson

def ofJson? (json : Json) : Option Element :=
  match Entity.ofJson? .tried json with
  | some e => some (.entity e)
  | none => (Relationship.ofJson? .tried json).map .relationship

end Element

namespace Topic

def toJson (topic : Topic) : Json :=
  .ofFields [("kind", topic.category.toJson), ("action", topic.action.toJson)]

def ofJson? (json : Json) : Option Topic :=
  Record.read (do
    let category ← .required "kind" Category.ofJson?
    let action ← .required "action" (Action.ofJson? .direct)
    return { category, action }) json

end Topic

namespace Notice

def toJson (notice : Notice) : Json :=
  match notice.element with
  | .entity entity =>
    .ofFields [("element", .text "entity"), ("action", notice.action.toJson),
      ("entity", entity.toJson)]
  | .relationship rel =>
    .ofFields [("element", .text "relationship"), ("action", notice.action.toJson),
      ("relationship", rel.toJson)]

def record (isEntity : Bool) : Record Notice := do
  let action ← .required "action" (Action.ofJson? .again)
  if isEntity then return entity action (← .required "entity" (Entity.ofJson? .again))
  else return relationship action (← .required "relationship" (Relationship.ofJson? .again))

def ofJson? (json : Json) : Option Notice := do
  let (isEntity, members) ←
    Serial.tagged? "element"
      (Serial.tag? [true, false] (bif · then "entity" else "relationship") .direct) json
  (record isEntity).run members

end Notice

end Estate
