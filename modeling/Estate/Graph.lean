import Estate.Error

/-!
The graph of an estate: entities by path, relationships by id, and for each entity the ids of the
relationships at it, in the order they were inserted. It changes one `Change` at a time.
-/
namespace Estate

structure Graph where
  entities : Table Path Entity := ∅
  relationships : Table String Relationship := ∅
  adjacency : Table Path (List String) := ∅

/-- One write, in the form in which it is logged. -/
inductive Change where
  | insertEntity (entity : Entity)
  | replaceEntity (entity : Entity)
  | removeEntity (path : Path)
  | insertRelationship (rel : Relationship)
  | replaceRelationship (rel : Relationship)
  | removeRelationship (id : String)

namespace Graph

def empty : Graph := {}

def idsAt (graph : Graph) (path : Path) : List String := (graph.adjacency.find? path).getD []

/-- The relationships at an entity, in the order of its ids. -/
def relationshipsAt (graph : Graph) (path : Path) : List Relationship :=
  (graph.idsAt path).filterMap graph.relationships.find?

/-- The first relationship of this name from source to target in the order of the source's ids. -/
def between? (graph : Graph) (source target : Path) (name : String) : Option Relationship :=
  (graph.relationshipsAt source).find? fun rel =>
    rel.source = source && rel.target = target && rel.name == name

/-- The relationships that touch an entity in a direction, all of them or those of one name. -/
def touching (graph : Graph) (path : Path) (direction : Direction) (name : Option String) :
    List Relationship :=
  (graph.relationshipsAt path).filter fun rel => rel.touches path direction &&
    name.all (rel.name == ·)

def hasContents (graph : Graph) (path : Path) : Bool :=
  !(graph.touching path .outgoing (some Reserved.contains.name)).isEmpty

/-- The first end of a relationship that is not stored, source before target. -/
def missingEnd? (graph : Graph) (rel : Relationship) : Option Path :=
  [rel.source, rel.target].find? fun path => !graph.entities.contains path

def attach (graph : Graph) (path : Path) (id : String) : Graph :=
  { graph with adjacency := graph.adjacency.insert path (graph.idsAt path ++ [id]) }

def detach (graph : Graph) (path : Path) (id : String) : Graph :=
  { graph with adjacency := graph.adjacency.modify path (·.filter (· != id)) }

def insertEntity (graph : Graph) (entity : Entity) : Except Refusal Graph :=
  if graph.entities.contains entity.path then .error (.entityExists entity.path)
  else
    .ok { graph with
      entities := graph.entities.insert entity.path entity
      adjacency := graph.adjacency.insert entity.path [] }

def replaceEntity (graph : Graph) (entity : Entity) : Except Refusal Graph :=
  if graph.entities.contains entity.path then
    .ok { graph with entities := graph.entities.insert entity.path entity }
  else .error (.entityGone entity.path)

/-- An entity leaves only when no relationship is at it. -/
def removeEntity (graph : Graph) (path : Path) : Except Refusal Graph :=
  if graph.entities.contains path then
    if (graph.idsAt path).isEmpty then
      .ok { graph with entities := graph.entities.erase path, adjacency :=
        graph.adjacency.erase path }
    else .error (.stillRelated path (graph.idsAt path).length)
  else .error (.entityGone path)

/-- Both ends must be stored, and a reserved name holds once per ordered pair. A loop is noted once.
-/
def insertRelationship (graph : Graph) (rel : Relationship) : Except Refusal Graph :=
  match graph.missingEnd? rel with
  | some path => .error (.endGone path)
  | none =>
    if Reserved.isReserved rel.name && (graph.between? rel.source rel.target rel.name).isSome then
      .error (.relationshipExists rel.source rel.name rel.target)
    else
      let graph := graph.attach rel.source rel.id
      let graph := if rel.source = rel.target then graph else graph.attach rel.target rel.id
      .ok { graph with relationships := graph.relationships.insert rel.id rel }

def replaceRelationship (graph : Graph) (rel : Relationship) : Except Refusal Graph :=
  if graph.relationships.contains rel.id then
    .ok { graph with relationships := graph.relationships.insert rel.id rel }
  else .error (.relationshipGone rel.id)

def removeRelationship (graph : Graph) (id : String) : Except Refusal Graph :=
  match graph.relationships.find? id with
  | some rel =>
    let graph := (graph.detach rel.source id).detach rel.target id
    .ok { graph with relationships := graph.relationships.erase id }
  | none => .error (.relationshipGone id)

def apply (graph : Graph) : Change → Except Refusal Graph
  | .insertEntity entity => graph.insertEntity entity
  | .replaceEntity entity => graph.replaceEntity entity
  | .removeEntity path => graph.removeEntity path
  | .insertRelationship rel => graph.insertRelationship rel
  | .replaceRelationship rel => graph.replaceRelationship rel
  | .removeRelationship id => graph.removeRelationship id

/-- Applies changes in order, stopping at the first that is refused. -/
def replay (graph : Graph) : List Change → Except Refusal Graph
  | [] => .ok graph
  | change :: rest =>
    match graph.apply change with
    | .ok next => next.replay rest
    | .error why => .error why

end Graph

end Estate
