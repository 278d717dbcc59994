import Estate.Blueprint
import Estate.Paging
import Estate.Query
import Estate.Serial.Element
import Estate.Store

namespace Estate

open Serial (Reading Record)

/-- A field that is left out for nothing. -/
def Serial.fieldOfOption (key : String) (toJson : α → Json) : Option α → List (String × Json)
  | some value => [(key, toJson value)]
  | none => []

namespace Hop

def toJson (hop : Hop) : Json :=
  .ofFields ([("name", .text hop.name), ("direction", hop.direction.toJson)] ++
    Serial.fieldOfOption "other_end" Path.toJson hop.otherEnd)

def ofJson? (json : Json) : Option Hop :=
  Record.read (do
    let name ← .required "name" Serial.text?
    let direction ← .required "direction" Direction.ofJson?
    let otherEnd ← .defaulted "other_end" none (Record.nullable Path.ofJson?)
    return { name, direction, otherEnd }) json

end Hop

namespace Test

def toJson : Test → Json
  | .kinds listed => .object [("kinds", .list (listed.map Kind.toJson))]
  | .ids listed => .object [("ids", .list (listed.map .text))]
  | .paths listed => .object [("paths", .list (listed.map Path.toJson))]
  | .property name values =>
    .object [("propertyValues",
      .ofFields [("name", .text name), ("values", .list (values.map Value.toJson))])]

def propertyRecord : Record Test := do
  let name ← .required "name" Serial.text?
  let values ← .required "values" (Serial.list? (Value.ofJson? .direct))
  return .property name values

/-- A property test carries an object, never a list. -/
def ofJson? (json : Json) : Option Test := do
  match ← Serial.variant? json with
  | ("kinds", some carried) => (Serial.list? Kind.ofJson? carried).map .kinds
  | ("ids", some carried) => (Serial.list? Serial.text? carried).map .ids
  | ("paths", some carried) => (Serial.list? Path.ofJson? carried).map .paths
  | ("propertyValues", some (.object fields)) => propertyRecord.read (.object fields)
  | _ => none

end Test

namespace Filter

def toJson : Filter → Json
  | .related hop => .object [("related", hop.toJson)]
  | .passes test => .object [("with", test.toJson)]

def ofJson? (json : Json) : Option Filter := do
  match ← Serial.variant? json with
  | ("related", some carried) => (Hop.ofJson? carried).map .related
  | ("with", some carried) => (Test.ofJson? carried).map .passes
  | _ => none

end Filter

def Mode.key : Mode → String
  | .path => "path"
  | .filter => "filter"

namespace Step

def toJson (step : Step) : Json := .object [(step.mode.key, step.filter.toJson)]

def ofJson? (json : Json) : Option Step := do
  match ← Serial.variant? json with
  | ("path", some carried) => (Filter.ofJson? carried).map (⟨.path, ·⟩)
  | ("filter", some carried) => (Filter.ofJson? carried).map (⟨.filter, ·⟩)
  | _ => none

end Step

namespace Query

mutual

/-- Branches are left out where there are none. -/
def toJson : Query → Json
  | mk steps [] => .object [("fragments", .list (steps.map Step.toJson))]
  | mk steps (branch :: rest) =>
    .object [("fragments", .list (steps.map Step.toJson)),
      ("sub_trees", .list (toJson branch :: branchesToJson rest))]

def branchesToJson : List Query → List Json
  | [] => []
  | branch :: rest => toJson branch :: branchesToJson rest

end

mutual

/-- A query may also be the list of its steps and branches. -/
def ofJson? : Json → Option Query
  | .object fields =>
    match (fields.lookup "fragments").bind (Serial.list? Step.ofJson?) with
    | some steps => (branchField? fields).map (mk steps)
    | none => none
  | .list [steps] => (Serial.list? Step.ofJson? steps).map (mk · [])
  | .list [steps, branches] =>
    match Serial.list? Step.ofJson? steps with
    | some steps => (branchList? branches).map (mk steps)
    | none => none
  | _ => none

def branchField? : List (String × Json) → Option (List Query)
  | [] => some []
  | (key, value) :: rest => if key = "sub_trees" then branchList? value else branchField? rest

def branchList? : Json → Option (List Query)
  | .list items => branchItems? items
  | _ => none

def branchItems? : List Json → Option (List Query)
  | [] => some []
  | item :: rest => do return (← ofJson? item) :: (← branchItems? rest)

end

end Query

namespace Pager

def toJson (pager : Pager) : Json :=
  .ofFields [("page", .int pager.page.toNat),
    ("page_size", pager.pageSize.elim .null fun size => .int size.toNat)]

def ofJson? (json : Json) : Option Pager :=
  Record.read (do
    let page ← .defaulted "page" 0 Serial.word?
    let pageSize ← .defaulted "page_size" none (Record.nullable Serial.word?)
    return { page, pageSize }) json

end Pager

namespace Blueprint

def Details.fields : Details → List (String × Json)
  | .tenant | .environment | .feed => []
  | .resourceType version => [("version", .text version)]
  | .resource typeId => [("resource_type_id", .text typeId)]
  | .metricType unit => [("unit", unit.toJson)]
  | .metric typeId => [("metric_type_id", .text typeId)]

def toJson (blueprint : Blueprint) : Json :=
  .ofFields (("kind", blueprint.kind.toJson) :: ("id", blueprint.id.elim .null .text) ::
    ("properties", blueprint.properties.toJson) :: blueprint.details.fields)

def Details.record : Kind → Record Details
  | .tenant => return .tenant
  | .environment => return .environment
  | .feed => return .feed
  | .resourceType => return .resourceType (← .required "version" Serial.text?)
  | .resource => return .resource (← .required "resource_type_id" Serial.text?)
  | .metricType => return .metricType (← .defaulted "unit" .none (Measure.ofJson? .again))
  | .metric => return .metric (← .required "metric_type_id" Serial.text?)

def record (kind : Kind) : Record Blueprint := do
  let id ← .optional "id" Serial.text?
  let details ← Details.record kind
  let properties ← .defaulted "properties" ∅ (Properties.ofJson? .again)
  return { id, details, properties }

def ofJson? (json : Json) : Option Blueprint := do
  let (kind, members) ← Serial.tagged? "kind" (Serial.tag? Kind.all Kind.key .direct) json
  (record kind).run members

end Blueprint

namespace Update

def toJson (update : Update) : Json :=
  .ofFields (Serial.fieldOfOption "properties" Properties.toJson update.properties ++
    Serial.fieldOfOption "version" .text update.version ++
    Serial.fieldOfOption "unit" Measure.toJson update.unit)

def ofJson? (json : Json) : Option Update :=
  Record.read (do
    let properties ← .defaulted "properties" none (Record.nullable (Properties.ofJson? .direct))
    let version ← .defaulted "version" none (Record.nullable Serial.text?)
    let unit ← .defaulted "unit" none (Record.nullable (Measure.ofJson? .direct))
    return { properties, version, unit }) json

end Update

def Access.toJson (access : Access) : Json := .text access.key

def Access.ofJson? (json : Json) : Option Access := Serial.oneOf? all key .direct json

end Estate
