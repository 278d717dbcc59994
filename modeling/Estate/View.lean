import Estate.Query.Builder
import Estate.Query.Text
import Estate.Settings

/-!
Views: immutable positions in the graph, reached from the tenants by steps that only compose
queries. Nothing is looked up until a reading or a mutation of the view runs.
-/
namespace Estate

/-- Where a traversal stands: `source` reaches what it came from, and `select` leads on to the
candidates. -/
structure Position where
  source : Query
  select : Query

namespace Position

def query (position : Position) : Query := position.source.followedBy position.select

def tenants : Position :=
  { source := .empty, select := (Query.startPath.all [.kind .tenant]).build }

/-- Candidates of `kind` across relationships of one name; what was selected becomes the source. -/
def proceedTo (position : Position) (name : Reserved) (kind : Kind) : Position :=
  { source := position.query
    select := (Query.startPath.all [.hop name.name .outgoing, .kind kind]).build }

def anchor (path : Path) : Position :=
  { source := (Query.startPath.all [.path path]).build, select := .empty }

inductive Refinement where
  /-- all filters must hold -/
  | whereAll (filters : List Filter)
  /-- the filters of some group must hold -/
  | whereAny (groups : List (List Filter))
  /-- a move along the graph -/
  | hop (filters : List Filter)

def Refinement.on (builder : Query.Builder) : Refinement → Query.Builder
  | .whereAll filters => builder.filter.all filters
  | .whereAny groups => builder.filter.anyOf groups
  | .hop filters => builder.path.all filters

def refine (position : Position) (refinements : List Refinement) : Position :=
  { position with select := (refinements.foldl Refinement.on position.select.extend).build }

end Position

/-- What a view of several candidates allows beyond reading. -/
inductive Scope where
  | browse
  | manage
  /-- association of entities of a kind with the candidates -/
  | associate (source : Kind) (name : Reserved)
  deriving DecidableEq, Repr

/-- Entities of one kind that a position selects from. -/
structure Listing where
  kind : Kind
  position : Position
  scope : Scope

/-- At most one entity of a kind. -/
structure Single where
  kind : Kind
  position : Position

/-- Any number of entities of a kind. -/
structure Multiple where
  kind : Kind
  position : Position

inductive Facet where
  | environments
  | resourceTypes
  | metricTypes
  | feeds
  | feedlessResources
  | feedlessMetrics
  | resources
  | metrics
  deriving DecidableEq, Repr

/-- The relationship a way follows from an entity of a kind, and the kind it leads to. -/
def Facet.from? : Kind → Facet → Option (Reserved × Kind)
  | .tenant, .environments => some (.contains, .environment)
  | .tenant, .resourceTypes => some (.contains, .resourceType)
  | .tenant, .metricTypes => some (.contains, .metricType)
  | .environment, .feeds => some (.contains, .feed)
  | .environment, .feedlessResources => some (.contains, .resource)
  | .environment, .feedlessMetrics => some (.contains, .metric)
  | .feed, .resources => some (.contains, .resource)
  | .feed, .metrics => some (.contains, .metric)
  | .resource, .metrics => some (.owns, .metric)
  | .resourceType, .metricTypes => some (.owns, .metricType)
  | .resourceType, .resources => some (.defines, .resource)
  | .metricType, .metrics => some (.defines, .metric)
  | _, _ => none

/-- Contents can be managed, associations made and removed, and instances of a type only read. -/
def Scope.along (source : Kind) : Reserved → Scope
  | .contains => .manage
  | .owns => .associate source .owns
  | .defines => .browse

/-- All tenants: where every traversal begins. -/
def tenants : Listing := { kind := .tenant, position := .tenants, scope := .manage }

namespace Listing

def get (listing : Listing) (id : String) : Single :=
  { kind := listing.kind, position := listing.position.refine [.whereAll [.id id]] }

def getAll (listing : Listing) (groups : List (List Filter)) : Multiple :=
  { kind := listing.kind, position := listing.position.refine [.whereAny groups] }

def all (listing : Listing) : Multiple := { kind := listing.kind, position := listing.position }

def describe (listing : Listing) : String :=
  "Read<" ++ listing.kind.name ++ ">(" ++ listing.position.query.text ++ ")"

end Listing

def Single.follow? (single : Single) (facet : Facet) : Option Listing :=
  (facet.from? single.kind).map fun (name, kind) =>
    { kind, position := single.position.proceedTo name kind, scope := .along single.kind name }

/-- From several entities at once the view only reads. -/
def Multiple.follow? (multiple : Multiple) (facet : Facet) : Option Listing :=
  (facet.from? multiple.kind).map fun (name, kind) =>
    { kind, position := multiple.position.proceedTo name kind, scope := .browse }

end Estate
