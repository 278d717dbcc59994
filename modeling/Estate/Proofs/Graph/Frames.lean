import Estate.Proofs.Graph.Removals

/-!
What is left when a relationship comes or goes, or an entity along with the relationships at it:
that, and everything else as it was. What comes and goes again leaves no trace, not even in the
notes.
-/
namespace Estate.Graph

variable {graph next last : Graph} {entity : Entity} {rel : Relationship} {rels : List Relationship}
  {path : Path} {id : String}

/-- The ids of the relationships that touch an entity, among some. -/
def idsTouching (rels : List Relationship) (path : Path) : List String :=
  (rels.filter (·.touches path .both)).map (·.id)

/-- A graph with some relationships more. -/
structure Joined (graph : Graph) (rels : List Relationship) (next : Graph) : Prop where
  entities : next.entities = graph.entities
  relationships : ∀ id rel, next.relationships.find? id = some rel ↔
    graph.relationships.find? id = some rel ∨ rel ∈ rels ∧ rel.id = id
  noted : ∀ path, next.idsAt path = graph.idsAt path ++ idsTouching rels path

/-- A graph with one entity and some relationships more. -/
structure Gains (graph : Graph) (entity : Entity) (rels : List Relationship) (next : Graph) :
    Prop where
  entities : next.entities = graph.entities.insert entity.path entity
  relationships : ∀ id rel, next.relationships.find? id = some rel ↔
    graph.relationships.find? id = some rel ∨ rel ∈ rels ∧ rel.id = id
  noted : ∀ path, next.idsAt path = graph.idsAt path ++ idsTouching rels path

/-- A graph without an entity and without the relationships at it. -/
structure Lacks (graph : Graph) (path : Path) (next : Graph) : Prop where
  entities : next.entities = graph.entities.erase path
  relationships : ∀ id rel, next.relationships.find? id = some rel ↔
    graph.relationships.find? id = some rel ∧ rel.source ≠ path ∧ rel.target ≠ path
  noted : ∀ other, next.idsAt other = (graph.idsAt other).filter fun id =>
    !(graph.relationships.find? id).any (·.touches path .both)

/-- A graph without a relationship that it has held. -/
structure Parted (graph : Graph) (rel : Relationship) (next : Graph) : Prop where
  held : graph.relationships.find? rel.id = some rel
  entities : next.entities = graph.entities
  relationships : ∀ id other, next.relationships.find? id = some other ↔
    graph.relationships.find? id = some other ∧ id ≠ rel.id
  noted : ∀ path, next.idsAt path = (graph.idsAt path).filter (· ≠ rel.id)

/-- What is noted follows from the ids noted at each entity. -/
theorem WellFormed.eq_of_tables (wellFormed : graph.WellFormed) (wellFormed' : next.WellFormed)
    (entities : graph.entities = next.entities)
    (relationships : graph.relationships = next.relationships)
    (noted : ∀ path, graph.idsAt path = next.idsAt path) : graph = next := by
  have adjacency : graph.adjacency = next.adjacency := by
    refine Table.ext fun path => ?_
    have same := noted path
    have contained : graph.adjacency.contains path = next.adjacency.contains path := by
      rw [wellFormed.noted, wellFormed'.noted, entities]
    simp only [idsAt, Table.contains] at same contained
    cases here : graph.adjacency.find? path <;> cases there : next.adjacency.find? path <;> simp_all
  cases graph
  cases next
  simp_all

namespace WellFormed

variable (wellFormed : graph.WellFormed)
include wellFormed

theorem joined_of_replay (once : (rels.map (·.id)).Nodup)
    (fresh : ∀ rel ∈ rels, graph.relationships.find? rel.id = none)
    (replayed : graph.replay (rels.map .insertRelationship) = .ok next) :
    graph.Joined rels next ∧ next.WellFormed := by
  induction rels generalizing graph with
  | nil =>
    obtain rfl := Except.ok.inj replayed
    exact ⟨⟨rfl, by simp, by simp [idsTouching]⟩, wellFormed⟩
  | cons rel rest ih =>
    obtain ⟨admitted, replayed⟩ := replay_cons_eq_ok_iff.mp replayed
    obtain ⟨apart, once⟩ := List.nodup_cons.mp once
    obtain ⟨new, others⟩ := List.forall_mem_cons.mp fresh
    have after : (graph.after (.insertRelationship rel)).WellFormed :=
      @WellFormed.after _ (.insertRelationship rel) wellFormed new admitted
    obtain ⟨joined, last⟩ := ih after once (fun other member => by
      have differs : other.id ≠ rel.id := fun same => apart (List.mem_map.mpr ⟨other, member, same⟩)
      rw [find?_insertRelationship, if_neg differs]
      exact others other member) replayed
    refine ⟨⟨?_, fun id found => ?_, fun path => ?_⟩, last⟩
    · rw [joined.entities, entities_insertRelationship]
    · rw [joined.relationships, find?_insertRelationship, List.mem_cons, or_and_right, ← or_assoc]
      refine or_congr_left ?_
      by_cases here : id = rel.id
      · subst here
        rw [if_pos rfl, new, Option.some.injEq]
        constructor
        · rintro rfl
          exact .inr ⟨rfl, rfl⟩
        · rintro (nothing | ⟨rfl, -⟩)
          · cases nothing
          · rfl
      · rw [if_neg here]
        refine (or_iff_left ?_).symm
        rintro ⟨rfl, same⟩
        exact here same.symm
    · rw [joined.noted, idsAt_insertRelationship]
      by_cases touching : rel.touches path .both
      · simp [touching, idsTouching]
      · simp [touching, idsTouching]

theorem gains_of_replay (kind : entity.details.kind = entity.path.kind)
    (once : (rels.map (·.id)).Nodup) (fresh : ∀ rel ∈ rels, graph.relationships.find? rel.id = none)
    (replayed : graph.replay (.insertEntity entity :: rels.map .insertRelationship) = .ok next) :
    graph.Gains entity rels next ∧ next.WellFormed := by
  obtain ⟨admitted, replayed⟩ := replay_cons_eq_ok_iff.mp replayed
  have after : (graph.after (.insertEntity entity)).WellFormed :=
    @WellFormed.after _ (.insertEntity entity) wellFormed kind admitted
  obtain ⟨joined, last⟩ := after.joined_of_replay once fresh replayed
  refine ⟨⟨joined.entities, joined.relationships, fun path => ?_⟩, last⟩
  rw [joined.noted]
  -- where the entity comes nothing was noted
  have bare : (graph.after (.insertEntity entity)).idsAt path = graph.idsAt path := by
    by_cases here : path = entity.path
    · subst here
      have absent : graph.adjacency.contains entity.path = false := by
        rw [wellFormed.noted, Table.contains_eq_false_iff]
        exact admitted
      have nothing : graph.adjacency.find? entity.path = none :=
        (Table.contains_eq_false_iff _ _).mp absent
      simp [idsAt, Graph.after, nothing]
    · simp [idsAt, Graph.after, here]
  rw [bare]

/-- The ids of what is removed are no longer noted anywhere. -/
theorem idsAt_of_released {ids : List String}
    (replayed : graph.replay (ids.map .removeRelationship) = .ok next) (path : Path) :
    next.idsAt path = (graph.idsAt path).filter (· ∉ ids) := by
  induction ids generalizing graph with
  | nil =>
    obtain rfl := Except.ok.inj replayed
    exact (List.filter_eq_self.mpr fun _ _ => by simp).symm
  | cons id rest ih =>
    obtain ⟨admitted, replayed⟩ := replay_cons_eq_ok_iff.mp replayed
    obtain ⟨rel, found⟩ := (Table.contains_iff _ _).mp admitted
    rw [ih (@WellFormed.after _ (.removeRelationship id) wellFormed trivial admitted) replayed,
      idsAt_removeRelationship found]
    by_cases touching : rel.touches path .both
    · rw [if_pos touching, List.filter_filter]
      refine List.filter_congr fun other _ => ?_
      by_cases same : other = id <;> simp [same]
    · -- what does not touch the entity is not noted there
      rw [if_neg touching]
      refine List.filter_congr fun other member => ?_
      have differs : other ≠ id := by
        rintro rfl
        obtain ⟨held, stored, touches⟩ := (wellFormed.listed path other).mp member
        rw [found] at stored
        exact touching (Option.some.inj stored ▸ touches)
      simp [differs]

theorem parted_of_replay (held : graph.relationships.find? rel.id = some rel)
    (replayed : graph.replay [.removeRelationship rel.id] = .ok next) :
    graph.Parted rel next ∧ next.WellFormed := by
  have left : graph.Released [rel.id] next := released_of_replay replayed
  refine ⟨⟨held, left.entities, fun id other => ?_, fun path => ?_⟩,
    @released _ _ [rel.id] wellFormed replayed⟩
  · rw [left.relationships]
    by_cases same : id = rel.id <;> simp [same]
  · rw [@idsAt_of_released _ _ wellFormed [rel.id] replayed path]
    simp

theorem lacks_of_replay
    (replayed : graph.replay ((graph.idsAt path).map .removeRelationship ++ [.removeEntity path]) =
      .ok next) :
    graph.Lacks path next ∧ next.WellFormed := by
  have removed := wellFormed.removed_of_replay replayed
  obtain ⟨middle, freed, left⟩ := replay_append_eq_ok_iff.mp replayed
  obtain ⟨⟨-, bare⟩, done⟩ := replay_cons_eq_ok_iff.mp left
  obtain rfl := Except.ok.inj done
  refine ⟨⟨removed.entities, fun id rel => ?_, fun other => ?_⟩, removed.wellFormed⟩
  · rw [removed.relationships]
    constructor
    · intro found
      split at found
      · cases found
      · rename_i apart
        refine ⟨found, ?_⟩
        rw [← not_or, ← touches_both_iff]
        exact fun touching => apart ((wellFormed.listed path id).mpr ⟨rel, found, touching⟩)
    · rintro ⟨found, source, target⟩
      have apart : id ∉ graph.idsAt path := by
        intro member
        obtain ⟨held, stored, touching⟩ := (wellFormed.listed path id).mp member
        obtain rfl := Option.some.inj (found.symm.trans stored)
        exact (touches_both_iff.mp touching).elim source target
      rw [if_neg apart, found]
  · have left : (middle.after (.removeEntity path)).idsAt other = middle.idsAt other := by
      by_cases here : other = path
      · rw [here, bare]
        simp [idsAt, Graph.after]
      · simp [idsAt, Graph.after, here]
    rw [left, wellFormed.idsAt_of_released freed]
    refine List.filter_congr fun id member => ?_
    obtain ⟨rel, found, -⟩ := (wellFormed.listed other id).mp member
    have noted : id ∈ graph.idsAt path ↔ rel.touches path .both := by
      rw [wellFormed.listed]
      constructor
      · rintro ⟨held, stored, touching⟩
        exact Option.some.inj (found.symm.trans stored) ▸ touching
      · exact fun touching => ⟨rel, found, touching⟩
    simp [found, noted]

end WellFormed

theorem Joined.parted (joined : graph.Joined [rel] next) (parted : next.Parted rel last)
    (wellFormed : graph.WellFormed) (wellFormed' : last.WellFormed)
    (fresh : graph.relationships.find? rel.id = none) : last = graph := by
  refine wellFormed'.eq_of_tables wellFormed (parted.entities.trans joined.entities) ?_
    fun path => ?_
  · refine Table.ext fun id => Option.ext fun other => ?_
    rw [parted.relationships, joined.relationships]
    constructor
    · rintro ⟨old | ⟨new, same⟩, apart⟩
      · exact old
      · obtain rfl := List.mem_singleton.mp new
        exact absurd same.symm apart
    · intro found
      refine ⟨.inl found, ?_⟩
      rintro rfl
      simp [fresh] at found
  · have old : ∀ id ∈ graph.idsAt path, id ≠ rel.id := by
      rintro id member rfl
      obtain ⟨held, found, -⟩ := (wellFormed.listed path rel.id).mp member
      simp [fresh] at found
    have new : ∀ id ∈ idsTouching [rel] path, id = rel.id := by
      intro id member
      obtain ⟨other, among, rfl⟩ := List.mem_map.mp member
      rw [List.mem_singleton.mp (List.mem_filter.mp among).1]
    rw [parted.noted, joined.noted, List.filter_append,
      List.filter_eq_self.mpr (by simpa using old),
      List.filter_eq_nil_iff.mpr (by simpa using new), List.append_nil]

/-- What comes and goes again leaves no trace. -/
theorem Gains.lacks (gains : graph.Gains entity rels next) (lacks : next.Lacks entity.path last)
    (wellFormed : graph.WellFormed) (wellFormed' : last.WellFormed)
    (absent : graph.entities.find? entity.path = none)
    (tied : ∀ rel ∈ rels, rel.target = entity.path) : last = graph := by
  have elsewhere {id : String} {rel : Relationship} (found : graph.relationships.find? id =
      some rel) :
      rel.source ≠ entity.path ∧ rel.target ≠ entity.path := by
    have ends := wellFormed.ends found
    have nothing : graph.entities.contains entity.path = false :=
      (Table.contains_eq_false_iff _ _).mpr absent
    exact ⟨fun same => by simp [same, nothing] at ends, fun same => by simp [same, nothing] at ends⟩
  refine wellFormed'.eq_of_tables wellFormed ?_ ?_ fun path => ?_
  · refine Table.ext fun path => ?_
    rw [lacks.entities, gains.entities]
    by_cases here : path = entity.path
    · simp [here, absent]
    · simp [here]
  · refine Table.ext fun id => Option.ext fun rel => ?_
    rw [lacks.relationships, gains.relationships]
    constructor
    · rintro ⟨old | ⟨new, -⟩, -, target⟩
      · exact old
      · exact absurd (tied rel new) target
    · exact fun found => ⟨.inl found, elsewhere found⟩
  · rw [lacks.noted, gains.noted, List.filter_append]
    have old : ∀ id ∈ graph.idsAt path,
        !(next.relationships.find? id).any (·.touches entity.path .both) := by
      intro id member
      obtain ⟨rel, found, -⟩ := (wellFormed.listed path id).mp member
      obtain ⟨source, target⟩ := elsewhere found
      simp [(gains.relationships id rel).mpr (.inl found), Relationship.touches, source, target]
    have new : ∀ id ∈ idsTouching rels path,
        ¬!(next.relationships.find? id).any (·.touches entity.path .both) := by
      intro id member
      obtain ⟨rel, among, rfl⟩ := List.mem_map.mp member
      have among := (List.mem_filter.mp among).1
      simp [(gains.relationships rel.id rel).mpr (.inr ⟨among, rfl⟩), Relationship.touches,
        tied rel among]
    rw [List.filter_eq_self.mpr old, List.filter_eq_nil_iff.mpr new, List.append_nil]

end Estate.Graph
