import Estate.Proofs.Graph.Changes
import Estate.Proofs.Graph.Meaning

namespace Estate.Graph

variable {graph next : Graph} {entity revised : Entity} {path : Path}

/-- A graph with another entity in the place of one that it has held. -/
structure Replaced (graph : Graph) (entity revised : Entity) (next : Graph) : Prop where
  held : graph.entities.find? entity.path = some entity
  entities : ∀ path, next.entities.find? path = if path = entity.path then some revised
    else graph.entities.find? path
  relationships : next.relationships = graph.relationships
  adjacency : next.adjacency = graph.adjacency

theorem replaced_after (held : graph.entities.find? entity.path = some entity)
    (same : revised.path = entity.path) :
    graph.Replaced entity revised (graph.after (.replaceEntity revised)) where
  held := held
  entities path := by
    rw [Graph.after, Table.find?_insert, same]
    simp only [Std.LawfulEqCmp.compare_eq_iff_eq]
  relationships := rfl
  adjacency := rfl

/-- What is in its place already changes nothing when it is put there. -/
theorem after_replaceEntity_self (held : graph.entities.find? entity.path = some entity) :
    graph.after (.replaceEntity entity) = graph := by
  rw [Graph.after, Table.insert_of_find? held]

namespace Replaced

variable (replaced : graph.Replaced entity revised next)
include replaced

theorem contains : next.entities.contains path = graph.entities.contains path := by
  simp only [Table.contains, replaced.entities]
  split
  · rename_i here
    rw [here, replaced.held]
    rfl
  · rfl

theorem matching {hop : Hop} : next.matching path hop = graph.matching path hop := by
  simp only [Graph.matching, touching, relationshipsAt, idsAt, replaced.relationships,
    replaced.adjacency]

theorem landings {hop : Hop} : next.landings path hop = graph.landings path hop := by
  have stored : next.entities.contains = graph.entities.contains :=
    funext fun _ => replaced.contains
  simp only [Graph.landings, replaced.matching, stored]

/-- Elsewhere the same filters hold. -/
theorem holds_iff {filter : Filter} (elsewhere : path ≠ entity.path) :
    next.Holds path filter ↔ graph.Holds path filter := by
  cases filter with
  | related hop => simp only [Holds, replaced.matching]
  | passes test => cases test <;> simp only [Holds, passes, replaced.entities, if_neg elsewhere]

theorem evaluate_eq {query : Query}
    (leads : ∀ {start target}, next.Leads query start target ↔ graph.Leads query start target) :
    next.evaluate query = graph.evaluate query := by
  refine ascending_congr fun path => ?_
  simp only [mem_walk_iff, Table.mem_keys_iff, replaced.contains, leads]

end Replaced

end Estate.Graph
