import Estate.Kind
import Estate.Value

namespace Estate

/-- What a blueprint says beyond id and properties, by kind. -/
inductive Blueprint.Details where
  | tenant
  | environment
  | feed
  | resourceType (version : String)
  /-- the id of a resource type of the same tenant -/
  | resource (typeId : String)
  | metricType (unit : Measure)
  /-- the id of a metric type of the same tenant -/
  | metric (typeId : String)
  deriving DecidableEq

structure Blueprint where
  /-- the id asked for, if any -/
  id : Option String
  details : Blueprint.Details
  properties : Properties := ∅

namespace Blueprint

def Details.kind : Details → Kind
  | .tenant => .tenant
  | .environment => .environment
  | .feed => .feed
  | .resourceType _ => .resourceType
  | .resource _ => .resource
  | .metricType _ => .metricType
  | .metric _ => .metric

def kind (blueprint : Blueprint) : Kind := blueprint.details.kind

def withId (blueprint : Blueprint) (id : String) : Blueprint := { blueprint with id := some id }

def withProperty (blueprint : Blueprint) (key : String) (value : Value) : Blueprint :=
  { blueprint with properties := blueprint.properties.insert key value }

def withProperties (blueprint : Blueprint) (properties : Properties) : Blueprint :=
  { blueprint with properties := blueprint.properties.insertAll properties.entries }

end Blueprint

/-- A change of the mutable fields; a field left out stays as it is. -/
structure Update where
  /-- replaces the whole property map -/
  properties : Option Properties := none
  version : Option String := none
  unit : Option Measure := none

namespace Update

def withProperties (update : Update) (properties : Properties) : Update :=
  { update with properties := some properties }

def withProperty (update : Update) (key : String) (value : Value) : Update :=
  { update with properties := some ((update.properties.getD ∅).insert key value) }

/-- Whether a relationship could take it. -/
def isPropertiesOnly (update : Update) : Bool := update.version.isNone && update.unit.isNone

end Update

end Estate
