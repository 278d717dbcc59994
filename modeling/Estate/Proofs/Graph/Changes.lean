import Estate.Graph

namespace Estate.Graph

variable {graph next : Graph} {change : Change} {log : List Change} {rel : Relationship}
  {entity : Entity} {path : Path} {id : String}

/-- When a change is not refused. -/
def Admits (graph : Graph) : Change → Prop
  | .insertEntity entity => graph.entities.find? entity.path = none
  | .replaceEntity entity => graph.entities.contains entity.path
  | .removeEntity path => graph.entities.contains path ∧ graph.idsAt path = []
  | .insertRelationship rel =>
    graph.entities.contains rel.source ∧ graph.entities.contains rel.target ∧
      (Reserved.isReserved rel.name → graph.between? rel.source rel.target rel.name = none)
  | .replaceRelationship rel => graph.relationships.contains rel.id
  | .removeRelationship id => graph.relationships.contains id

def attachEnds (graph : Graph) (rel : Relationship) : Graph :=
  let graph := graph.attach rel.source rel.id
  if rel.source = rel.target then graph else graph.attach rel.target rel.id

def detachEnds (graph : Graph) (rel : Relationship) (id : String) : Graph :=
  (graph.detach rel.source id).detach rel.target id

/-- The graph a change leaves where it is admitted. -/
def after (graph : Graph) : Change → Graph
  | .insertEntity entity =>
    { graph with
      entities := graph.entities.insert entity.path entity
      adjacency := graph.adjacency.insert entity.path [] }
  | .replaceEntity entity => { graph with entities := graph.entities.insert entity.path entity }
  | .removeEntity path =>
    { graph with entities := graph.entities.erase path, adjacency := graph.adjacency.erase path }
  | .insertRelationship rel =>
    { graph.attachEnds rel
      with relationships := (graph.attachEnds rel).relationships.insert rel.id rel }
  | .replaceRelationship rel =>
    { graph with relationships := graph.relationships.insert rel.id rel }
  | .removeRelationship id =>
    match graph.relationships.find? id with
    | some rel => { graph.detachEnds rel id with relationships := graph.relationships.erase id }
    | none => graph

theorem missingEnd?_eq_none_iff :
    graph.missingEnd? rel = none ↔ graph.entities.contains rel.source ∧
      graph.entities.contains rel.target := by
  simp [missingEnd?]

@[simp]
theorem attachEnds_entities (graph : Graph) (rel : Relationship) :
    (graph.attachEnds rel).entities = graph.entities := by
  simp only [attachEnds]
  split <;> rfl

@[simp]
theorem attachEnds_relationships (graph : Graph) (rel : Relationship) :
    (graph.attachEnds rel).relationships = graph.relationships := by
  simp only [attachEnds]
  split <;> rfl

theorem touches_both_iff :
    rel.touches path .both = true ↔ rel.source = path ∨ rel.target = path := by
  simp [Relationship.touches]

theorem find?_attachEnds (graph : Graph) (rel : Relationship) (path : Path) :
    (graph.attachEnds rel).adjacency.find? path =
      if rel.touches path .both then some (graph.idsAt path ++
        [rel.id]) else graph.adjacency.find? path := by
  simp only [attachEnds, attach, touches_both_iff]
  by_cases source : path = rel.source
  · subst source
    by_cases loop : rel.source = rel.target <;> simp [loop]
  · by_cases target : path = rel.target
    · subst target
      simp [Ne.symm source, source, idsAt]
    · by_cases loop : rel.source = rel.target
      · simp [loop, target, Ne.symm target]
      · simp [loop, source, target, Ne.symm source, Ne.symm target]

theorem find?_detachEnds (graph : Graph) (rel : Relationship) (id : String) (path : Path) :
    (graph.detachEnds rel id).adjacency.find? path =
      if rel.touches path .both then (graph.adjacency.find? path).map (·.filter (· != id))
      else graph.adjacency.find? path := by
  simp only [detachEnds, detach, touches_both_iff]
  by_cases source : path = rel.source
  · subst source
    by_cases loop : rel.source = rel.target <;> simp [loop, Function.comp_def]
  · by_cases target : path = rel.target
    · subst target
      simp [source]
    · simp [source, target, Ne.symm source, Ne.symm target]

theorem idsAt_insertRelationship (graph : Graph) (rel : Relationship) (path : Path) :
    (graph.after (.insertRelationship rel)).idsAt path =
      if rel.touches path .both then graph.idsAt path ++ [rel.id] else graph.idsAt path := by
  simp only [after, idsAt, find?_attachEnds]
  split <;> simp

theorem noted_insertRelationship (graph : Graph) (rel : Relationship) (path : Path) :
    (graph.after (.insertRelationship rel)).adjacency.contains path =
      (rel.touches path .both || graph.adjacency.contains path) := by
  simp only [after, Table.contains, find?_attachEnds]
  split <;> simp_all

theorem idsAt_removeRelationship (found : graph.relationships.find? id = some rel) (path : Path) :
    (graph.after (.removeRelationship id)).idsAt path =
      if rel.touches path .both then (graph.idsAt path).filter (· != id) else graph.idsAt path := by
  simp only [after, found, idsAt, find?_detachEnds]
  split
  · cases graph.adjacency.find? path <;> simp
  · rfl

theorem noted_removeRelationship (found : graph.relationships.find? id = some rel) (path : Path) :
    (graph.after (.removeRelationship id)).adjacency.contains
      path = graph.adjacency.contains path := by
  simp only [after, found, Table.contains, find?_detachEnds]
  split <;> simp

/-- What a change does to what is noted at an entity. -/
inductive Noting where
  | enter
  | leave
  | add (id : String)
  | drop (id : String)
  | keep

def Noting.on : Noting → Option (List String) → Option (List String)
  | enter, _ => some []
  | leave, _ => none
  | add id, noted => some (noted.getD [] ++ [id])
  | drop id, noted => noted.map (·.filter (· != id))
  | keep, noted => noted

def noting (graph : Graph) (change : Change) (path : Path) : Noting :=
  match change with
  | .insertEntity entity => if path = entity.path then .enter else .keep
  | .removeEntity gone => if path = gone then .leave else .keep
  | .insertRelationship rel => if rel.touches path .both then .add rel.id else .keep
  | .removeRelationship id =>
    if (graph.relationships.find? id).any (·.touches path .both) then .drop id else .keep
  | .replaceEntity _ | .replaceRelationship _ => .keep

theorem find?_adjacency_after (graph : Graph) (change : Change) (path : Path) :
    (graph.after change).adjacency.find? path =
      (graph.noting change path).on (graph.adjacency.find? path) := by
  cases change with
  | insertEntity entity | removeEntity gone =>
    simp only [after, Table.find?_insert,
      Table.find?_erase, Std.LawfulEqCmp.compare_eq_iff_eq, noting]
    split <;> rfl
  | replaceEntity entity | replaceRelationship rel => rfl
  | insertRelationship rel =>
    simp only [after, find?_attachEnds, noting]
    split <;> rfl
  | removeRelationship id =>
    cases found : graph.relationships.find? id with
    | none => simp [after, noting, found, Noting.on]
    | some rel =>
      simp only [after, found, find?_detachEnds, noting, Option.any_some]
      split <;> rfl

theorem noting_eq_enter_iff :
    graph.noting change path = .enter ↔ ∃ entity, change = .insertEntity entity ∧
      path = entity.path := by
  cases change <;> simp only [noting] <;> (try split) <;> simp_all

theorem noting_eq_leave_iff : graph.noting change path = .leave ↔ change = .removeEntity path := by
  cases change <;> simp only [noting] <;> (try split) <;> simp_all [Ne.symm]

theorem noting_eq_add_iff :
    graph.noting change path = .add id ↔
      ∃ rel, change = .insertRelationship rel ∧ rel.touches path .both ∧ rel.id = id := by
  cases change <;> simp only [noting] <;> (try split) <;> simp_all

theorem eq_removeRelationship_of_noting (drops : graph.noting change path = .drop id) :
    change = .removeRelationship id := by
  cases change <;> simp only [noting] at drops <;> (try split at drops) <;> simp_all

theorem find?_insertRelationship (graph : Graph) (rel : Relationship) (id : String) :
    (graph.after (.insertRelationship rel)).relationships.find? id =
      if id = rel.id then some rel else graph.relationships.find? id := by
  simp [after]

theorem find?_removeRelationship (found : graph.relationships.find? id = some rel)
    (other : String) :
    (graph.after (.removeRelationship id)).relationships.find? other =
      if other = id then none else graph.relationships.find? other := by
  simp [after, found]

@[simp]
theorem entities_insertRelationship (graph : Graph) (rel : Relationship) :
    (graph.after (.insertRelationship rel)).entities = graph.entities := by
  simp [after]

@[simp]
theorem entities_removeRelationship (graph : Graph) (id : String) :
    (graph.after (.removeRelationship id)).entities = graph.entities := by
  simp only [after]
  split <;> rfl

/-- An entity found after a change was there before, or came with the change. -/
theorem entity_after (found : (graph.after change).entities.find? path = some entity) :
    graph.entities.find? path = some entity ∨
      entity.path = path ∧ (change = .insertEntity entity ∨ change = .replaceEntity entity) := by
  cases change with
  | insertEntity incoming | replaceEntity incoming =>
    simp only [after, Table.find?_insert] at found
    split at found
    · simp_all
    · exact .inl found
  | removeEntity gone =>
    simp only [after, Table.find?_erase] at found
    split at found
    · cases found
    · exact .inl found
  | insertRelationship rel | removeRelationship id => exact .inl (by simpa using found)
  | replaceRelationship rel => exact .inl found

theorem relationship_after (found : (graph.after change).relationships.find? id = some rel) :
    graph.relationships.find? id = some rel ∨
      rel.id = id ∧ (change = .insertRelationship rel ∨ change = .replaceRelationship rel) := by
  cases change with
  | insertEntity entity | replaceEntity entity | removeEntity path => exact .inl found
  | insertRelationship incoming =>
    rw [find?_insertRelationship] at found
    split at found
    · simp_all
    · exact .inl found
  | replaceRelationship incoming =>
    simp only [after, Table.find?_insert] at found
    split at found
    · simp_all
    · exact .inl found
  | removeRelationship gone =>
    cases present : graph.relationships.find? gone with
    | none =>
      simp only [after, present] at found
      exact .inl found
    | some old =>
      rw [find?_removeRelationship present] at found
      split at found
      · cases found
      · exact .inl found

theorem apply_eq_ok_iff :
    graph.apply change = .ok next ↔ graph.Admits change ∧ graph.after change = next := by
  cases change with
  | insertEntity entity =>
    simp only [apply, insertEntity, Admits, after]
    by_cases stored : graph.entities.contains entity.path
    · simp [stored, ← Table.contains_eq_false_iff]
    · simp [stored, ← Table.contains_eq_false_iff]
  | replaceEntity entity =>
    simp only [apply, replaceEntity, Admits, after]
    split <;> simp_all
  | removeEntity path =>
    simp only [apply, removeEntity, Admits, after]
    by_cases stored : graph.entities.contains path <;> by_cases bare : graph.idsAt path = [] <;>
      simp [stored, bare]
  | insertRelationship rel =>
    simp only [apply, insertRelationship, Admits]
    cases missing : graph.missingEnd? rel with
    | some path =>
      have absent : ¬(graph.entities.contains rel.source ∧ graph.entities.contains rel.target) := by
        rw [← missingEnd?_eq_none_iff, missing]
        simp
      simp only [reduceCtorEq, false_iff]
      rintro ⟨⟨source, target, -⟩, -⟩
      exact absent ⟨source, target⟩
    | none =>
      obtain ⟨source, target⟩ := missingEnd?_eq_none_iff.mp missing
      by_cases taken : Reserved.isReserved rel.name ∧
        (graph.between? rel.source rel.target rel.name).isSome
      · simp [taken, Option.isSome_iff_ne_none.mp taken.2]
      · have free : Reserved.isReserved rel.name →
            graph.between? rel.source rel.target rel.name = none := by
          simpa using taken
        rw [and_iff_right ⟨source, target, free⟩]
        rw [← Bool.and_eq_true, Bool.not_eq_true] at taken
        simp only [taken, Bool.false_eq_true, ↓reduceIte, Except.ok.injEq]
        rfl
  | replaceRelationship rel =>
    simp only [apply, replaceRelationship, Admits, after]
    split <;> simp_all
  | removeRelationship id =>
    simp only [apply, removeRelationship, Admits, after, Table.contains_iff]
    cases found : graph.relationships.find? id with
    | some rel =>
      rw [and_iff_right ⟨rel, rfl⟩, Except.ok.injEq]
      rfl
    | none => simp

theorem replay_nil : graph.replay [] = .ok graph := rfl

theorem replay_cons_eq_ok_iff :
    graph.replay (change :: log) = .ok next ↔
      graph.Admits change ∧ (graph.after change).replay log = .ok next := by
  simp only [replay]
  cases outcome : graph.apply change with
  | ok middle =>
    obtain ⟨admitted, rfl⟩ := apply_eq_ok_iff.mp outcome
    simp [admitted]
  | error why =>
    have refused : ¬graph.Admits change := fun admitted => by
      have success := apply_eq_ok_iff.mpr ⟨admitted, rfl⟩
      simp [outcome] at success
    simp [refused]

theorem replay_append {rest : List Change} (replayed : graph.replay log = .ok next) :
    graph.replay (log ++ rest) = next.replay rest := by
  induction log generalizing graph with
  | nil =>
    obtain rfl := Except.ok.inj replayed
    rfl
  | cons change log ih =>
    simp only [List.cons_append, replay] at replayed ⊢
    cases outcome : graph.apply change with
    | ok middle =>
      rw [outcome] at replayed
      exact ih replayed
    | error why => simp [outcome] at replayed

theorem replay_append_eq_ok_iff {rest : List Change} :
    graph.replay (log ++ rest) = .ok next ↔
      ∃ middle, graph.replay log = .ok middle ∧ middle.replay rest = .ok next := by
  induction log generalizing graph with
  | nil => simp [replay]
  | cons change log ih =>
    simp only [List.cons_append, replay_cons_eq_ok_iff, ih]
    constructor
    · rintro ⟨admitted, middle, first, second⟩
      exact ⟨middle, ⟨admitted, first⟩, second⟩
    · rintro ⟨middle, ⟨admitted, first⟩, second⟩
      exact ⟨admitted, middle, first, second⟩

end Estate.Graph
