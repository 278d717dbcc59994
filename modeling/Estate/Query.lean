import Estate.Relationship

/-!
Queries: walks over the graph as plain values. A query is a line of steps that may end in branches;
`followedBy` grafts a second query onto every end of a first.
-/
namespace Estate

/-- A relationship an entity has, or is reached through. -/
structure Hop where
  name : String
  direction : Direction
  /-- when given, only relationships to this other end count -/
  otherEnd : Option Path := none

/-- A property of the entity alone. -/
inductive Test where
  | kinds (kinds : List Kind)
  | ids (ids : List String)
  | paths (paths : List Path)
  | property (name : String) (values : List Value)

inductive Filter where
  | related (hop : Hop)
  | passes (test : Test)

namespace Filter

def hop (name : String) (direction : Direction) : Filter := .related { name, direction }

def hopTo (name : String) (target : Path) : Filter :=
  .related { name, direction := .outgoing, otherEnd := some target }

def contains : Filter := hop Reserved.contains.name .outgoing

def containedIn : Filter := hop Reserved.contains.name .incoming

def kind (kind : Kind) : Filter := .passes (.kinds [kind])

def id (id : String) : Filter := .passes (.ids [id])

def path (path : Path) : Filter := .passes (.paths [path])

def property (name : String) (value : Value) : Filter := .passes (.property name [value])

end Filter

/-- How a filter is taken: as a move along the graph, or as a condition on where one stands. -/
inductive Mode where
  | path
  | filter
  deriving DecidableEq, Repr

structure Step where
  mode : Mode
  filter : Filter

/-- The branches are alternatives, each walked from the end of the steps. -/
inductive Query where
  | mk (steps : List Step) (branches : List Query)

namespace Query

def steps : Query → List Step
  | mk steps _ => steps

def branches : Query → List Query
  | mk _ branches => branches

def empty : Query := mk [] []

instance : Inhabited Query := ⟨empty⟩

/-- A query without branches whose filters are all taken in one mode. -/
def line (mode : Mode) (filters : List Filter) : Query :=
  mk (filters.map fun filter => ⟨mode, filter⟩) []

mutual

def isEmpty : Query → Bool
  | mk steps branches => steps.isEmpty && allEmpty branches

def allEmpty : List Query → Bool
  | [] => true
  | branch :: rest => isEmpty branch && allEmpty rest

end

mutual

/-- Grafts a second query onto every end of a first. -/
def followedBy : Query → Query → Query
  | mk steps [], next => mk (steps ++ next.steps) next.branches
  | mk steps (branch :: rest), next => mk steps (followedBy branch next :: eachFollowedBy rest next)

def eachFollowedBy : List Query → Query → List Query
  | [], _ => []
  | branch :: rest, next => followedBy branch next :: eachFollowedBy rest next

end

mutual

/-- The number of walks from the start to an end. -/
def branchCount : Query → Nat
  | mk _ [] => 1
  | mk _ (branch :: rest) => branchCount branch + branchCounts rest

def branchCounts : List Query → Nat
  | [] => 0
  | branch :: rest => branchCount branch + branchCounts rest

end

def sameTest : Test → Test → Bool
  | .kinds as, .kinds bs => as == bs
  | .ids as, .ids bs => as == bs
  | .paths as, .paths bs => as == bs
  | .property name as, .property other bs => name == other && Value.sameItems as bs
  | _, _ => false

def sameFilter : Filter → Filter → Bool
  | .related a, .related b =>
    a.name == b.name && a.direction == b.direction && a.otherEnd == b.otherEnd
  | .passes a, .passes b => sameTest a b
  | _, _ => false

def sameSteps : List Step → List Step → Bool
  | [], [] => true
  | a :: as, b :: bs => a.mode == b.mode && sameFilter a.filter b.filter && sameSteps as bs
  | _, _ => false

mutual

def same : Query → Query → Bool
  | mk steps branches, mk others otherBranches =>
    sameSteps steps others && sameBranches branches otherBranches

def sameBranches : List Query → List Query → Bool
  | [], [] => true
  | a :: as, b :: bs => same a b && sameBranches as bs
  | _, _ => false

end

end Query

end Estate
