import Estate.Path
import Estate.Value

namespace Estate

inductive Direction where
  | outgoing
  | incoming
  | both
  deriving DecidableEq, Repr

namespace Direction

def all : List Direction := [outgoing, incoming, both]

def key : Direction → String
  | outgoing => "outgoing"
  | incoming => "incoming"
  | both => "both"

def title : Direction → String
  | outgoing => "Outgoing"
  | incoming => "Incoming"
  | both => "Both"

end Direction

/-- Relationship names with a meaning of their own; each holds at most once per ordered pair. -/
inductive Reserved where
  /-- containment, in step with the paths -/
  | contains
  /-- from a type to its instances -/
  | defines
  /-- association, such as of a resource with a metric -/
  | owns
  deriving DecidableEq, Repr

namespace Reserved

def all : List Reserved := [contains, defines, owns]

def name : Reserved → String
  | contains => "contains"
  | defines => "defines"
  | owns => "owns"

def ofName? (name : String) : Option Reserved := all.find? (·.name == name)

def isReserved (name : String) : Bool := (ofName? name).isSome

end Reserved

structure Relationship where
  id : String
  name : String
  source : Path
  target : Path
  properties : Properties := ∅

namespace Relationship

def arrow (source name target : String) : String := source ++ " --" ++ name ++ "--> " ++ target

def text (rel : Relationship) : String :=
  arrow rel.source.text rel.name rel.target.text ++ " [" ++ rel.id ++ "]"

def withProperty (rel : Relationship) (key : String) (value : Value) : Relationship :=
  { rel with properties := rel.properties.insert key value }

/-- The end that is not `path`; a loop ends where it starts. -/
def otherEnd? (rel : Relationship) (path : Path) : Option Path :=
  if path = rel.source then some rel.target
  else if path = rel.target then some rel.source
  else none

def touches (rel : Relationship) (path : Path) : Direction → Bool
  | .outgoing => rel.source = path
  | .incoming => rel.target = path
  | .both => rel.source = path || rel.target = path

end Relationship

end Estate
