import Estate.Proofs.Graph.Changes
import Estate.Proofs.Revision

/-!
The invariant of graphs: everything stands under its own key, relationships end at stored entities,
and each entity is noted with exactly the relationships at it. An admitted change keeps it, provided
that a new relationship comes under a new id and a replacement has the ends of what it replaces.
-/
namespace Estate

theorem Relationship.touches_of_edge {rel other : Relationship} (same : rel.edge = other.edge)
    (path : Path) (direction : Direction) :
    rel.touches path direction = other.touches path direction := by
  simp only [edge, Edge.mk.injEq] at same
  cases direction <;> simp [touches, same]

namespace Graph

variable {graph : Graph} {change : Change}

structure Keyed (graph : Graph) : Prop where
  entity : ∀ {path entity}, graph.entities.find? path = some entity → entity.path = path
  relationship : ∀ {id rel}, graph.relationships.find? id = some rel → rel.id = id

structure WellFormed (graph : Graph) : Prop extends Keyed graph where
  kinds : ∀ {path entity}, graph.entities.find? path = some entity → entity.details.kind = path.kind
  ends : ∀ {id rel}, graph.relationships.find? id = some rel →
    graph.entities.contains rel.source ∧ graph.entities.contains rel.target
  noted : ∀ path, graph.adjacency.contains path = graph.entities.contains path
  distinct : ∀ path, (graph.idsAt path).Nodup
  listed : ∀ path id, id ∈ graph.idsAt path ↔
    ∃ rel, graph.relationships.find? id = some rel ∧ rel.touches path .both

/-- What the invariant asks of a change beyond its being admitted. -/
def Suits (graph : Graph) : Change → Prop
  | .insertEntity entity | .replaceEntity entity => entity.details.kind = entity.path.kind
  | .insertRelationship rel => graph.relationships.find? rel.id = none
  | .replaceRelationship rel =>
    ∀ old, graph.relationships.find? rel.id = some old → rel.edge = old.edge
  | .removeEntity _ | .removeRelationship _ => True

theorem Keyed.empty : Keyed empty where
  entity found := nomatch found
  relationship found := nomatch found

theorem Keyed.after (keyed : graph.Keyed) (change : Change) : (graph.after change).Keyed where
  entity found := by
    rcases entity_after found with old | ⟨same, -⟩
    · exact keyed.entity old
    · exact same
  relationship found := by
    rcases relationship_after found with old | ⟨same, -⟩
    · exact keyed.relationship old
    · exact same

theorem WellFormed.empty : WellFormed empty where
  toKeyed := .empty
  kinds found := nomatch found
  ends found := nomatch found
  noted _ := rfl
  distinct _ := .nil
  listed := by simp [idsAt, Graph.empty]

namespace WellFormed

variable (wellFormed : graph.WellFormed)
include wellFormed

/-- Nothing is at an entity that is not stored. -/
theorem untouched {path : Path} {id : String} {rel : Relationship}
    (absent : graph.entities.find? path = none) (found : graph.relationships.find? id = some rel) :
    rel.touches path .both = false := by
  obtain ⟨source, target⟩ := wellFormed.ends found
  rw [Table.contains_iff] at source target
  rw [← Bool.not_eq_true, touches_both_iff]
  rintro (rfl | rfl)
  · simp [absent] at source
  · simp [absent] at target

theorem kinds_after (suits : graph.Suits change) {path : Path} {entity : Entity}
    (found : (graph.after change).entities.find? path = some entity) :
    entity.details.kind = path.kind := by
  rcases entity_after found with old | ⟨rfl, rfl | rfl⟩
  · exact wellFormed.kinds old
  · exact suits
  · exact suits

private theorem after_insertEntity {entity : Entity} (suits : graph.Suits (.insertEntity entity))
    (admitted : graph.Admits (.insertEntity entity)) :
    (graph.after (.insertEntity entity)).WellFormed where
  toKeyed := wellFormed.toKeyed.after _
  kinds := wellFormed.kinds_after suits
  ends found := by
    obtain ⟨source, target⟩ := wellFormed.ends found
    simp [Graph.after, source, target]
  noted path := by simp [Graph.after, wellFormed.noted]
  distinct path := by
    simp only [Graph.after, idsAt, Table.find?_insert]
    split
    · exact .nil
    · exact wellFormed.distinct path
  listed path id := by
    by_cases new : path = entity.path
    · subst new
      have fresh : ¬∃ rel, graph.relationships.find? id = some rel ∧
          rel.touches entity.path .both := by
        rintro ⟨rel, found, touching⟩
        simp [wellFormed.untouched admitted found] at touching
      simpa [Graph.after, idsAt] using fresh
    · simpa [Graph.after, idsAt, new] using wellFormed.listed path id

private theorem after_replaceEntity {entity : Entity} (suits : graph.Suits (.replaceEntity entity))
    (admitted : graph.Admits (.replaceEntity entity)) :
    (graph.after (.replaceEntity entity)).WellFormed where
  toKeyed := wellFormed.toKeyed.after _
  kinds := wellFormed.kinds_after suits
  ends found := by
    obtain ⟨source, target⟩ := wellFormed.ends found
    simp [Graph.after, source, target]
  noted path := by
    by_cases here : path = entity.path
    · subst here
      have stored : graph.entities.contains entity.path := admitted
      simp [Graph.after, wellFormed.noted, stored]
    · simp [Graph.after, wellFormed.noted, here]
  distinct := wellFormed.distinct
  listed := wellFormed.listed

private theorem after_removeEntity {path : Path} (admitted : graph.Admits (.removeEntity path)) :
    (graph.after (.removeEntity path)).WellFormed := by
  have bare {id : String} {rel : Relationship} (found : graph.relationships.find? id = some rel) :
      rel.touches path .both = false := by
    have absent : id ∉ graph.idsAt path := by simp [admitted.2]
    rw [wellFormed.listed] at absent
    simpa [found] using absent
  exact {
    toKeyed := wellFormed.toKeyed.after _
    kinds := @kinds_after _ (.removeEntity path) wellFormed trivial
    ends := fun {id rel} found => by
      obtain ⟨source, target⟩ := wellFormed.ends found
      have apart := bare found
      rw [← Bool.not_eq_true, touches_both_iff, not_or] at apart
      simp [Graph.after, source, target, apart]
    noted := fun other => by simp [Graph.after, wellFormed.noted]
    distinct := fun other => by
      simp only [Graph.after, idsAt, Table.find?_erase]
      split
      · exact .nil
      · exact wellFormed.distinct other
    listed := fun other id => by
      by_cases gone : other = path
      · subst gone
        simpa [Graph.after, idsAt] using fun rel found => bare found
      · simpa [Graph.after, idsAt, gone] using wellFormed.listed other id }

private theorem after_insertRelationship {rel : Relationship}
    (suits : graph.Suits (.insertRelationship rel))
    (admitted : graph.Admits (.insertRelationship rel)) :
    (graph.after (.insertRelationship rel)).WellFormed where
  toKeyed := wellFormed.toKeyed.after _
  kinds := wellFormed.kinds_after suits
  ends {id found} := by
    intro present
    rw [entities_insertRelationship]
    rcases relationship_after present with old | ⟨-, same | same⟩
    · exact wellFormed.ends old
    · cases same
      exact ⟨admitted.1, admitted.2.1⟩
    · cases same
  noted path := by
    rw [noted_insertRelationship, entities_insertRelationship, wellFormed.noted]
    by_cases touching : rel.touches path .both
    · rcases touches_both_iff.mp touching with rfl | rfl
      · simp [admitted.1]
      · simp [admitted.2.1]
    · simp [touching]
  distinct path := by
    have fresh : graph.relationships.find? rel.id = none := suits
    have absent : rel.id ∉ graph.idsAt path := by simp [wellFormed.listed, fresh]
    rw [idsAt_insertRelationship]
    split
    · refine List.nodup_append.mpr ⟨wellFormed.distinct path, by simp, ?_⟩
      rintro id member _ new rfl
      exact absent (List.mem_singleton.mp new ▸ member)
    · exact wellFormed.distinct path
  listed path id := by
    have fresh : graph.relationships.find? rel.id = none := suits
    rw [idsAt_insertRelationship, find?_insertRelationship]
    by_cases new : id = rel.id
    · subst new
      by_cases touching : rel.touches path .both <;> simp [touching, wellFormed.listed, fresh]
    · split <;> simp [new, wellFormed.listed]

private theorem after_replaceRelationship {rel : Relationship}
    (suits : graph.Suits (.replaceRelationship rel))
    (admitted : graph.Admits (.replaceRelationship rel)) :
    (graph.after (.replaceRelationship rel)).WellFormed := by
  obtain ⟨old, present⟩ := (Table.contains_iff _ _).mp admitted
  have same : rel.edge = old.edge := suits old present
  exact {
    toKeyed := wellFormed.toKeyed.after _
    kinds := wellFormed.kinds_after suits
    ends := fun {id found} stored => by
      rcases relationship_after stored with earlier | ⟨-, new | new⟩
      · exact wellFormed.ends earlier
      · cases new
      · cases new
        have ends := wellFormed.ends present
        simp only [Relationship.edge, Edge.mk.injEq] at same
        simpa [same, Graph.after] using ends
    noted := wellFormed.noted
    distinct := wellFormed.distinct
    listed := fun path id => by
      by_cases here : id = rel.id
      · subst here
        have listed := wellFormed.listed path rel.id
        simp only [present, Option.some.injEq, exists_eq_left'] at listed
        simpa [Graph.after, idsAt, Relationship.touches_of_edge same] using listed
      · simpa [Graph.after, idsAt, here] using wellFormed.listed path id }

private theorem after_removeRelationship {id : String}
    (admitted : graph.Admits (.removeRelationship id)) :
    (graph.after (.removeRelationship id)).WellFormed := by
  obtain ⟨rel, present⟩ := (Table.contains_iff _ _).mp admitted
  exact {
    toKeyed := wellFormed.toKeyed.after _
    kinds := @kinds_after _ (.removeRelationship id) wellFormed trivial
    ends := fun {other found} stored => by
      rw [find?_removeRelationship present] at stored
      split at stored
      · cases stored
      · simpa using wellFormed.ends stored
    noted := fun path => by
      rw [noted_removeRelationship present, entities_removeRelationship, wellFormed.noted]
    distinct := fun path => by
      rw [idsAt_removeRelationship present]
      split
      · exact (wellFormed.distinct path).filter _
      · exact wellFormed.distinct path
    listed := fun path other => by
      rw [idsAt_removeRelationship present, find?_removeRelationship present]
      by_cases gone : other = id
      · subst gone
        by_cases touching : rel.touches path .both <;> simp [touching, wellFormed.listed, present]
      · split <;> simp [gone, wellFormed.listed] }

/-- What a graph admits keeps it well formed, if it suits the graph as well. -/
theorem after (suits : graph.Suits change) (admitted : graph.Admits change) :
    (graph.after change).WellFormed := by
  cases change with
  | insertEntity entity => exact wellFormed.after_insertEntity suits admitted
  | replaceEntity entity => exact wellFormed.after_replaceEntity suits admitted
  | removeEntity path => exact wellFormed.after_removeEntity admitted
  | insertRelationship rel => exact wellFormed.after_insertRelationship suits admitted
  | replaceRelationship rel => exact wellFormed.after_replaceRelationship suits admitted
  | removeRelationship id => exact wellFormed.after_removeRelationship admitted

end WellFormed

end Graph

end Estate
