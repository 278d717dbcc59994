import Estate.Proofs.Graph.Lookups

namespace Estate.Graph

variable {graph other next : Graph} {change : Change} {log : List Change}

structure Alike (graph other : Graph) : Prop where
  entities : graph.entities = other.entities
  relationships : graph.relationships = other.relationships
  noted : ∀ path, graph.adjacency.contains path = other.adjacency.contains path
  listed : ∀ path, (graph.idsAt path).Perm (other.idsAt path)

theorem Alike.refl (graph : Graph) : graph.Alike graph := ⟨rfl, rfl, fun _ => rfl, fun _ => .refl _⟩

/-- Well-formed graphs with the same tables are alike. -/
theorem WellFormed.alike (wellFormed : graph.WellFormed) (wellFormed' : other.WellFormed)
    (entities : graph.entities = other.entities)
    (relationships : graph.relationships = other.relationships) :
    graph.Alike other where
  entities := entities
  relationships := relationships
  noted path := by rw [wellFormed.noted, wellFormed'.noted, entities]
  listed path := by
    rw [List.perm_ext_iff_of_nodup (wellFormed.distinct path) (wellFormed'.distinct path)]
    intro id
    rw [wellFormed.listed, wellFormed'.listed, relationships]

theorem entities_after_congr (entities : graph.entities = other.entities) (change : Change) :
    (graph.after change).entities = (other.after change).entities := by
  cases change with
  | insertEntity entity | replaceEntity entity | removeEntity path => simp [after, entities]
  | insertRelationship rel | removeRelationship id => simpa using entities
  | replaceRelationship rel => exact entities

theorem relationships_after_congr (relationships : graph.relationships = other.relationships)
    (change : Change) :
    (graph.after change).relationships = (other.after change).relationships := by
  cases change with
  | insertEntity entity | replaceEntity entity | removeEntity path => exact relationships
  | insertRelationship rel | replaceRelationship rel => simp [after, relationships]
  | removeRelationship id =>
    refine Table.ext fun key => ?_
    cases found : other.relationships.find? id with
    | none => simp [after, relationships, found]
    | some rel =>
      rw [find?_removeRelationship found, find?_removeRelationship (relationships ▸ found),
        relationships]

theorem Alike.trans {last : Graph} (first : graph.Alike other) (second : other.Alike last) :
    graph.Alike last where
  entities := first.entities.trans second.entities
  relationships := first.relationships.trans second.relationships
  noted path := (first.noted path).trans (second.noted path)
  listed path := (first.listed path).trans (second.listed path)

theorem Alike.symm (alike : graph.Alike other) : other.Alike graph where
  entities := alike.entities.symm
  relationships := alike.relationships.symm
  noted path := (alike.noted path).symm
  listed path := (alike.listed path).symm

/-- The same ids in some order, or no entry in both. -/
def SameNoted (noted noted' : Option (List String)) : Prop :=
  noted.isSome = noted'.isSome ∧ (noted.getD []).Perm (noted'.getD [])

theorem SameNoted.refl (noted : Option (List String)) : SameNoted noted noted := ⟨rfl, .refl _⟩

theorem SameNoted.on {noted noted' : Option (List String)} (same : SameNoted noted noted')
    (noting : Noting) :
    SameNoted (noting.on noted) (noting.on noted') := by
  obtain ⟨present, ids⟩ := same
  cases noting with
  | enter | leave => exact ⟨rfl, .refl _⟩
  | add id => exact ⟨rfl, ids.append_right _⟩
  | keep => exact ⟨present, ids⟩
  | drop id =>
    refine ⟨by simpa [Noting.on] using present, ?_⟩
    cases noted <;> cases noted' <;> simp_all [Noting.on, List.Perm.filter]

theorem noting_congr (relationships : graph.relationships = other.relationships) (change : Change)
    (path : Path) :
    graph.noting change path = other.noting change path := by
  simp only [noting, relationships]

theorem Alike.of_adjacency (entities : graph.entities = other.entities)
    (relationships : graph.relationships = other.relationships)
    (adjacency : ∀ path, SameNoted (graph.adjacency.find? path) (other.adjacency.find? path)) :
    graph.Alike other where
  entities := entities
  relationships := relationships
  noted path := (adjacency path).1
  listed path := (adjacency path).2

theorem Alike.adjacency (alike : graph.Alike other) (path : Path) :
    SameNoted (graph.adjacency.find? path) (other.adjacency.find? path) :=
  ⟨alike.noted path, alike.listed path⟩

namespace Alike

variable (alike : graph.Alike other)
include alike

theorem suits (suits : other.Suits change) : graph.Suits change := by
  cases change with
  | insertEntity entity | replaceEntity entity => exact suits
  | removeEntity path | removeRelationship id => trivial
  | insertRelationship rel | replaceRelationship rel =>
    simp only [Suits, alike.relationships] at suits ⊢
    exact suits

theorem relationshipsAt (path : Path) :
    (graph.relationshipsAt path).Perm (other.relationshipsAt path) := by
  rw [Graph.relationshipsAt, Graph.relationshipsAt, alike.relationships]
  exact (alike.listed path).filterMap _

theorem admits (admitted : other.Admits change) : graph.Admits change := by
  cases change with
  | insertEntity entity | replaceEntity entity =>
    simp only [Admits, alike.entities] at admitted ⊢
    exact admitted
  | replaceRelationship rel | removeRelationship id =>
    simp only [Admits, alike.relationships] at admitted ⊢
    exact admitted
  | removeEntity path =>
    refine ⟨alike.entities ▸ admitted.1, ?_⟩
    exact (admitted.2 ▸ alike.listed path).eq_nil
  | insertRelationship rel =>
    refine ⟨alike.entities ▸ admitted.1, alike.entities ▸ admitted.2.1, fun reserved => ?_⟩
    have free := between?_eq_none_iff_noted.mp (admitted.2.2 reserved)
    exact between?_eq_none_iff_noted.mpr fun twin member =>
      free twin ((alike.relationshipsAt _).mem_iff.mp member)

theorem after (change : Change) : (graph.after change).Alike (other.after change) := by
  apply Alike.of_adjacency (entities_after_congr alike.entities change)
    (relationships_after_congr alike.relationships change)
  intro path
  rw [find?_adjacency_after, find?_adjacency_after, noting_congr alike.relationships]
  exact (alike.adjacency path).on _

/-- What can be replayed on one of two graphs alike can be replayed on the other, and leaves both
alike. -/
theorem replay (replayed : other.replay log = .ok next) :
    ∃ later, graph.replay log = .ok later ∧ later.Alike next := by
  induction log generalizing graph other with
  | nil =>
    obtain rfl := Except.ok.inj replayed
    exact ⟨graph, rfl, alike⟩
  | cons change log ih =>
    obtain ⟨admitted, rest⟩ := replay_cons_eq_ok_iff.mp replayed
    obtain ⟨later, went, alike'⟩ := ih (alike.after change) rest
    exact ⟨later, replay_cons_eq_ok_iff.mpr ⟨alike.admits admitted, went⟩, alike'⟩

theorem hasContents (wellFormed : graph.WellFormed) (wellFormed' : other.WellFormed) (path : Path) :
    graph.hasContents path = other.hasContents path := by
  have bare : graph.hasContents path = false ↔ other.hasContents path = false := by
    rw [wellFormed.hasContents_eq_false_iff, wellFormed'.hasContents_eq_false_iff,
      alike.relationships]
  cases first : graph.hasContents path <;> cases second : other.hasContents path <;> simp_all

end Alike

end Estate.Graph
