import Estate.Proofs.Graph.Lookups

namespace Estate.Graph

variable {graph next : Graph} {path : Path} {ids : List String} {id : String}

/-- What is left once relationships are removed. -/
structure Released (graph : Graph) (ids : List String) (next : Graph) : Prop where
  stored : ∀ id ∈ ids, graph.relationships.contains id
  entities : next.entities = graph.entities
  relationships : ∀ id, next.relationships.find? id = if id ∈ ids then none
    else graph.relationships.find? id

/-- What is left once an entity is removed after everything at it. -/
structure Removed (graph : Graph) (path : Path) (ids : List String) (next : Graph) : Prop where
  stored : graph.entities.contains path
  held : ∀ id ∈ ids, graph.relationships.contains id
  /-- nothing else was at it -/
  detached : ∀ id rel, graph.relationships.find? id = some rel → rel.touches path .both → id ∈ ids
  entities : next.entities = graph.entities.erase path
  relationships : ∀ id, next.relationships.find? id = if id ∈ ids then none
    else graph.relationships.find? id
  wellFormed : next.WellFormed

theorem released_of_replay (replayed : graph.replay (ids.map .removeRelationship) = .ok next) :
    graph.Released ids next := by
  induction ids generalizing graph with
  | nil =>
    obtain rfl := Except.ok.inj replayed
    exact ⟨nofun, rfl, by simp⟩
  | cons id rest ih =>
    obtain ⟨admitted, replayed⟩ := replay_cons_eq_ok_iff.mp replayed
    have released := ih replayed
    obtain ⟨rel, found⟩ := (Table.contains_iff _ _).mp admitted
    refine ⟨fun other member => ?_, ?_, fun other => ?_⟩
    · rcases List.mem_cons.mp member with rfl | later
      · exact admitted
      · obtain ⟨kept, present⟩ := (Table.contains_iff _ _).mp (released.stored other later)
        rw [find?_removeRelationship found] at present
        split at present
        · cases present
        · exact (Table.contains_iff _ _).mpr ⟨kept, present⟩
    · rw [released.entities, entities_removeRelationship]
    · rw [released.relationships, find?_removeRelationship found]
      by_cases same : other = id <;> simp [same]

theorem replay_releases (distinct : ids.Nodup)
    (stored : ∀ id ∈ ids, graph.relationships.contains id) :
    ∃ next, graph.replay (ids.map .removeRelationship) = .ok next := by
  induction ids generalizing graph with
  | nil => exact ⟨graph, rfl⟩
  | cons id rest ih =>
    obtain ⟨apart, distinct⟩ := List.nodup_cons.mp distinct
    have admitted : graph.Admits (.removeRelationship id) := stored id List.mem_cons_self
    obtain ⟨rel, found⟩ := (Table.contains_iff _ _).mp admitted
    have kept : ∀ other ∈ rest, (graph.after (.removeRelationship id)).relationships.contains
        other := by
      intro other member
      obtain ⟨old, present⟩ :=
        (Table.contains_iff _ _).mp (stored other (List.mem_cons_of_mem _ member))
      have differs : other ≠ id := fun same => apart (same ▸ member)
      refine (Table.contains_iff _ _).mpr ⟨old, ?_⟩
      rw [find?_removeRelationship found, if_neg differs, present]
    obtain ⟨next, replayed⟩ := ih distinct kept
    exact ⟨next, replay_cons_eq_ok_iff.mpr ⟨admitted, replayed⟩⟩

namespace WellFormed

variable (wellFormed : graph.WellFormed)
include wellFormed

theorem touching_ids (path : Path) :
    (graph.touching path .both none).map (·.id) = graph.idsAt path := by
  have present : ∀ id ∈ graph.idsAt path, ∃ rel, graph.relationships.find? id = some rel ∧
      rel.id = id ∧
      rel.touches path .both := by
    intro id member
    obtain ⟨rel, found, touching⟩ := (wellFormed.listed path id).mp member
    exact ⟨rel, found, wellFormed.relationship found, touching⟩
  simp only [touching, relationshipsAt]
  generalize graph.idsAt path = ids at present ⊢
  induction ids with
  | nil => rfl
  | cons id rest ih =>
    obtain ⟨rel, found, keyed, touching⟩ := present id List.mem_cons_self
    have ih := ih fun other member => present other (List.mem_cons_of_mem _ member)
    simp [found, touching, keyed] at ih ⊢
    exact ih

theorem nodup_touching (path : Path) (direction : Direction) (name : Option String) :
    ((graph.touching path direction name).map (·.id)).Nodup := by
  have all : graph.touching path .both none = graph.relationshipsAt path := by
    refine List.filter_eq_self.mpr fun rel member => ?_
    simpa using (wellFormed.mem_relationshipsAt_iff.mp member).2
  have once := wellFormed.touching_ids path ▸ wellFormed.distinct path
  rw [all] at once
  exact once.sublist (List.filter_sublist.map _)

theorem released (replayed : graph.replay (ids.map .removeRelationship) = .ok next) :
    next.WellFormed := by
  induction ids generalizing graph with
  | nil =>
    obtain rfl := Except.ok.inj replayed
    exact wellFormed
  | cons id rest ih =>
    obtain ⟨admitted, replayed⟩ := replay_cons_eq_ok_iff.mp replayed
    exact ih (@WellFormed.after _ (.removeRelationship id) wellFormed trivial admitted) replayed

theorem releases_eq (path : Path) :
    ((graph.touching path .both none).map fun rel => Change.removeRelationship rel.id) =
      (graph.idsAt path).map .removeRelationship := by
  rw [← wellFormed.touching_ids path, List.map_map]
  rfl

/-- Once everything noted at an entity is released, nothing is noted there. -/
theorem bare_of_released
    (replayed : graph.replay ((graph.idsAt path).map .removeRelationship) = .ok next) :
    next.idsAt path = [] := by
  rw [List.eq_nil_iff_forall_not_mem]
  intro id member
  obtain ⟨rel, found, touching⟩ := ((wellFormed.released replayed).listed path id).mp member
  rw [(released_of_replay replayed).relationships] at found
  split at found
  · cases found
  · rename_i apart
    exact apart ((wellFormed.listed path id).mpr ⟨rel, found, touching⟩)

/-- An entity can be removed after everything at it. -/
theorem replay_removals (stored : graph.entities.contains path) :
    ∃ next, graph.replay ((graph.idsAt path).map .removeRelationship ++ [.removeEntity path]) =
      .ok next := by
  have present : ∀ id ∈ graph.idsAt path, graph.relationships.contains id := by
    intro id member
    obtain ⟨rel, found, -⟩ := (wellFormed.listed path id).mp member
    exact (Table.contains_iff _ _).mpr ⟨rel, found⟩
  obtain ⟨middle, replayed⟩ := replay_releases (wellFormed.distinct path) present
  have admitted : middle.Admits (.removeEntity path) :=
    ⟨by rwa [(released_of_replay replayed).entities], wellFormed.bare_of_released replayed⟩
  exact ⟨_, replay_append_eq_ok_iff.mpr ⟨middle, replayed,
    replay_cons_eq_ok_iff.mpr ⟨admitted, rfl⟩⟩⟩

theorem removed_of_replay
    (replayed : graph.replay (ids.map .removeRelationship ++ [.removeEntity path]) = .ok next) :
    graph.Removed path ids next := by
  obtain ⟨middle, freed, last⟩ := replay_append_eq_ok_iff.mp replayed
  obtain ⟨admitted, same⟩ := replay_cons_eq_ok_iff.mp last
  obtain rfl := Except.ok.inj same
  have released := released_of_replay freed
  have kept := wellFormed.released freed
  constructor
  · rw [← released.entities]
    exact admitted.1
  · exact released.stored
  · intro id rel found touching
    -- otherwise it would still be noted there
    refine Classical.byContradiction fun apart => ?_
    have noted : id ∈ middle.idsAt path := by
      refine (kept.listed path id).mpr ⟨rel, ?_, touching⟩
      rw [released.relationships, if_neg apart, found]
    simp [admitted.2] at noted
  · simp [Graph.after, released.entities]
  · exact released.relationships
  · exact @WellFormed.after _ (.removeEntity path) kept trivial admitted

end WellFormed

end Estate.Graph
