import Estate.Graph.InPlace

namespace Estate.Graph

namespace Altering

variable {α β : Type} (graph : Graph)

@[simp]
theorem on_pure (value : α) : on (pure value) graph = (.ok value, graph) := rfl

@[simp]
theorem on_throw (why : Refusal) : on (throw why : Altering α) graph = (.error why, graph) := rfl

@[simp]
theorem on_get : on get graph = (.ok graph, graph) := rfl

@[simp]
theorem on_modify (alter : Graph → Graph) : on (modify alter) graph = (.ok (), alter graph) := rfl

theorem on_bind (work : Altering α) (next : α → Altering β) :
    on (work >>= next) graph =
      match on work graph with
      | (.ok value, left) => (next value).on left
      | (.error why, left) => (.error why, left) := by
  simp only [on, ExceptT.run_bind, StateT.run_bind]
  rcases (work.run.run graph : Except Refusal α × Graph) with ⟨outcome, left⟩
  cases outcome <;> rfl

end Altering

/-- What is left of a graph that refuses a change: all of it, but for an entity that was found and
still could not go. -/
def leftBy (graph : Graph) : Change → Graph
  | .removeEntity path =>
    if graph.entities.contains path then
      { graph with entities := graph.entities.erase path, adjacency := graph.adjacency.erase path }
    else graph
  | _ => graph

theorem applyInPlace_eq (graph : Graph) (change : Change) :
    graph.applyInPlace change =
      match graph.apply change with
      | .ok next => (.ok (), next)
      | .error why => (.error why, graph.leftBy change) := by
  simp only [applyInPlace, Altering.change]
  cases change with
  | insertEntity entity =>
    cases stored : graph.entities.contains entity.path <;>
      simp [Altering.insertEntity, Altering.on_bind, apply, insertEntity, leftBy, stored]
  | replaceEntity entity =>
    cases stored : graph.entities.contains entity.path <;>
      simp [Altering.replaceEntity, Altering.on_bind, apply, replaceEntity, leftBy, stored]
  | removeEntity path =>
    cases stored : graph.entities.contains path with
    | false => simp [Altering.removeEntity, Altering.on_bind, apply, removeEntity, leftBy, stored]
    | true =>
      have still : { graph with entities := graph.entities.erase path }.idsAt path =
          graph.idsAt path := rfl
      by_cases noted : graph.idsAt path = [] <;>
        simp [Altering.removeEntity, Altering.on_bind, apply, removeEntity, leftBy, stored,
          still, noted]
  | insertRelationship rel =>
    cases missing : graph.missingEnd? rel with
    | some path =>
      simp [Altering.insertRelationship, Altering.on_bind, apply, insertRelationship,
        leftBy, missing]
    | none =>
      by_cases twin : Reserved.isReserved rel.name &&
        (graph.between? rel.source rel.target rel.name).isSome
      · simp [-Bool.and_eq_true, Altering.insertRelationship, Altering.on_bind, apply,
          insertRelationship, leftBy, missing, twin]
      · by_cases loop : rel.source = rel.target
        · rw [loop] at twin
          simp [-Bool.and_eq_true, Altering.insertRelationship, Altering.on_bind, apply,
            insertRelationship, missing, twin, loop]
        · simp [-Bool.and_eq_true, Altering.insertRelationship, Altering.on_bind, apply,
            insertRelationship, missing, twin, loop]
  | replaceRelationship rel =>
    cases stored : graph.relationships.contains rel.id <;>
      simp [Altering.replaceRelationship, Altering.on_bind, apply, replaceRelationship,
        leftBy, stored]
  | removeRelationship id =>
    cases found : graph.relationships.find? id with
    | none =>
      simp [Altering.removeRelationship, Altering.on_bind, apply, removeRelationship, leftBy, found]
    | some rel =>
      simp [Altering.removeRelationship, Altering.on_bind, apply, removeRelationship, found, detach]

end Estate.Graph
