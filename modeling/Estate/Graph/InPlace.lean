import Estate.Graph

namespace Estate.Graph

/-- A piece of work on a graph that may be refused on the way. -/
abbrev Altering (α : Type) := ExceptT Refusal (StateM Graph) α

namespace Altering

def insertEntity (entity : Entity) : Altering Unit := do
  if (← get).entities.contains entity.path then throw (.entityExists entity.path)
  modify fun graph => { graph with entities := graph.entities.insert entity.path entity }
  modify fun graph => { graph with adjacency := graph.adjacency.insert entity.path [] }

def replaceEntity (entity : Entity) : Altering Unit := do
  if !(← get).entities.contains entity.path then throw (.entityGone entity.path)
  modify fun graph => { graph with entities := graph.entities.insert entity.path entity }

/-- The entity is gone, and so is all that was noted at it, by the time that is looked at. -/
def removeEntity (path : Path) : Altering Unit := do
  if !(← get).entities.contains path then throw (.entityGone path)
  modify fun graph => { graph with entities := graph.entities.erase path }
  let ids := (← get).idsAt path
  modify fun graph => { graph with adjacency := graph.adjacency.erase path }
  if !ids.isEmpty then throw (.stillRelated path ids.length)

def insertRelationship (rel : Relationship) : Altering Unit := do
  let graph ← get
  if let some path := graph.missingEnd? rel then throw (.endGone path)
  if Reserved.isReserved rel.name && (graph.between? rel.source rel.target rel.name).isSome then
    throw (.relationshipExists rel.source rel.name rel.target)
  modify (·.attach rel.source rel.id)
  if rel.source ≠ rel.target then modify (·.attach rel.target rel.id)
  modify fun graph => { graph with relationships := graph.relationships.insert rel.id rel }

def replaceRelationship (rel : Relationship) : Altering Unit := do
  if !(← get).relationships.contains rel.id then throw (.relationshipGone rel.id)
  modify fun graph => { graph with relationships := graph.relationships.insert rel.id rel }

def removeRelationship (id : String) : Altering Unit := do
  let some rel := (← get).relationships.find? id | throw (.relationshipGone id)
  modify fun graph => { graph with relationships := graph.relationships.erase id }
  modify (·.detach rel.source id)
  modify (·.detach rel.target id)

def change : Change → Altering Unit
  | .insertEntity entity => insertEntity entity
  | .replaceEntity entity => replaceEntity entity
  | .removeEntity path => removeEntity path
  | .insertRelationship rel => insertRelationship rel
  | .replaceRelationship rel => replaceRelationship rel
  | .removeRelationship id => removeRelationship id

def on {α : Type} (work : Altering α) (graph : Graph) : Except Refusal α × Graph :=
  work.run.run graph

end Altering

def applyInPlace (graph : Graph) (change : Change) : Except Refusal Unit × Graph :=
  (Altering.change change).on graph

end Estate.Graph
