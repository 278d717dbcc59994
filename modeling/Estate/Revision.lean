import Estate.Blueprint
import Estate.Error

namespace Estate

namespace Entity

/-- The details a blueprint describes for an entity at `path`; types are looked for in the path's
tenant. -/
def Details.ofBlueprint (path : Path) : Blueprint.Details → Except Error Details
  | .tenant => .ok .tenant
  | .environment => .ok .environment
  | .feed => .ok .feed
  | .resourceType version => .ok (.resourceType version)
  | .resource typeId => ((path.root.extend .resourceType typeId).map .resource).mapError .path
  | .metricType unit => .ok (.metricType unit)
  | .metric typeId => ((path.root.extend .metricType typeId).map .metric).mapError .path

/-- The entity a blueprint describes at `path`, which must be of the blueprint's kind. -/
def ofBlueprint (path : Path) (blueprint : Blueprint) : Except Error Entity :=
  if blueprint.kind = path.kind then
    (Details.ofBlueprint path blueprint.details).map fun details =>
      { path, details, properties := blueprint.properties }
  else .error (.misuse (.blueprintElsewhere blueprint.kind path))

/-- Only resource types have a version. -/
def withVersion (entity : Entity) (version : String) : Except Error Entity :=
  match entity.details with
  | .resourceType _ => .ok { entity with details := .resourceType version }
  | _ => .error (.misuse (.noVersion entity.kind))

/-- Only metric types have a unit. -/
def withUnit (entity : Entity) (unit : Measure) : Except Error Entity :=
  match entity.details with
  | .metricType _ => .ok { entity with details := .metricType unit }
  | _ => .error (.misuse (.noUnit entity.kind))

def withProperties (entity : Entity) (properties : Properties) : Entity :=
  { entity with properties }

/-- The fields are taken in turn: version, unit, properties. -/
def revise (entity : Entity) (update : Update) : Except Error Entity := do
  let entity ← match update.version with
    | some version => entity.withVersion version
    | none => .ok entity
  let entity ← match update.unit with
    | some unit => entity.withUnit unit
    | none => .ok entity
  match update.properties with
    | some properties => .ok (entity.withProperties properties)
    | none => .ok entity

end Entity

/-- Relationships carry properties alone. -/
def Relationship.revise (rel : Relationship) (update : Update) : Except Error Relationship :=
  if update.isPropertiesOnly
    then .ok { rel with properties := update.properties.getD rel.properties }
  else .error (.misuse (.propertiesOnly rel.id))

end Estate
