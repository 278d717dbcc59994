import Estate.Relationship

namespace Estate

/-- What an entity holds beyond path and properties, by kind. -/
inductive Entity.Details where
  | tenant
  | environment
  | feed
  | resourceType (version : String)
  /-- the type that defines the resource -/
  | resource (type : Path)
  | metricType (unit : Measure)
  /-- the type that defines the metric -/
  | metric (type : Path)
  deriving DecidableEq

structure Entity where
  path : Path
  details : Entity.Details
  properties : Properties := ∅

namespace Entity

def Details.kind : Details → Kind
  | .tenant => .tenant
  | .environment => .environment
  | .feed => .feed
  | .resourceType _ => .resourceType
  | .resource _ => .resource
  | .metricType _ => .metricType
  | .metric _ => .metric

def id (entity : Entity) : String := entity.path.id

def kind (entity : Entity) : Kind := entity.path.kind

/-- The type that defines the entity, where its kind has one. -/
def type? (entity : Entity) : Option Path :=
  match entity.details with
  | .resource type => some type
  | .metric type => some type
  | _ => none

end Entity

inductive Category where
  | entity (kind : Kind)
  | relationship
  deriving DecidableEq, Repr

def Category.name : Category → String
  | .entity kind => kind.name
  | .relationship => "relationship"

inductive Element where
  | entity (entity : Entity)
  | relationship (rel : Relationship)

namespace Element

def category : Element → Category
  | .entity e => .entity e.kind
  | .relationship _ => .relationship

def id : Element → String
  | .entity e => e.id
  | .relationship rel => rel.id

def asEntity? : Element → Option Entity
  | .entity e => some e
  | .relationship _ => none

def asRelationship? : Element → Option Relationship
  | .relationship rel => some rel
  | .entity _ => none

end Element

inductive Handle where
  | entity (path : Path)
  | relationship (id : String)
  deriving DecidableEq

namespace Handle

def id : Handle → String
  | .entity path => path.id
  | .relationship named => named

def category : Handle → Category
  | .entity path => .entity path.kind
  | .relationship _ => .relationship

end Handle

end Estate
