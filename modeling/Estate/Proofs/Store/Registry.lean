import Estate.Proofs.Graph.Lookups
import Estate.Proofs.Store.Traffic

/-!
A registry of the ids given to relationships: for each, the edge it was given for and the
transaction that wrote it. A registry is no part of a store. It says which relationships stored in
different graphs are the same, which is what replaying a log on another graph than it was written on
rests on.
-/
namespace Estate

structure Stamp where
  edge : Edge
  writer : Nat

/-- The stamp of each id that was given to a relationship. -/
abbrev Registry := String → Option Stamp

namespace Change

def inserted? : Change → Option String
  | .insertRelationship rel => some rel.id
  | _ => none

def inserted (log : List Change) : List String := log.filterMap inserted?

@[simp]
theorem inserted_append (log rest : List Change) :
    inserted (log ++ rest) = inserted log ++ inserted rest :=
  List.filterMap_append

theorem inserted_cons (change : Change) (log : List Change) :
    inserted (change :: log) = change.inserted?.toList ++ inserted log := by
  cases change <;> rfl

theorem inserted_insertions (rels : List Relationship) :
    inserted (rels.map .insertRelationship) = rels.map (·.id) := by
  rw [inserted, List.filterMap_map, ← List.filterMap_eq_map]
  rfl

end Change

namespace Graph

variable {graph next : Graph} {change : Change} {log : List Change} {id : String}
  {rel : Relationship}

/-- A replayed log brings in no relationship but those it inserts. -/
theorem relationship_of_replay (replayed : graph.replay log = .ok next)
    (found : next.relationships.find? id = some rel) :
    graph.relationships.contains id ∨ id ∈ Change.inserted log := by
  induction log generalizing graph with
  | nil =>
    obtain rfl := Except.ok.inj replayed
    exact .inl ((Table.contains_iff _ _).mpr ⟨rel, found⟩)
  | cons change log ih =>
    obtain ⟨admitted, rest⟩ := replay_cons_eq_ok_iff.mp replayed
    rw [Change.inserted_cons, List.mem_append]
    rcases ih rest with stored | inserted
    · obtain ⟨old, stored⟩ := (Table.contains_iff _ _).mp stored
      rcases relationship_after stored with earlier | ⟨rfl, rfl | rfl⟩
      · exact .inl ((Table.contains_iff _ _).mpr ⟨old, earlier⟩)
      · exact .inr (.inl (by simp [Change.inserted?]))
      · exact .inl admitted
    · exact .inr (.inr inserted)

end Graph

namespace Registry

variable {registry next : Registry} {graph later : Graph} {change : Change} {log : List Change}
  {writer : Nat} {id : String} {stamp : Stamp}

/-- A well-formed graph whose relationships are as registered. -/
structure Sound (registry : Registry) (graph : Graph) : Prop extends graph.WellFormed where
  exclusive : graph.Exclusive
  registered : ∀ {id rel}, graph.relationships.find? id = some rel →
    ∃ writer, registry id = some ⟨rel.edge, writer⟩

def Logged (registry : Registry) (writer : Nat) : Change → Prop
  | .insertEntity entity | .replaceEntity entity => entity.details.kind = entity.path.kind
  | .insertRelationship rel => registry rel.id = some ⟨rel.edge, writer⟩
  | .replaceRelationship rel => ∃ writer, registry rel.id = some ⟨rel.edge, writer⟩
  | .removeEntity _ | .removeRelationship _ => True

structure Records (registry : Registry) (writer : Nat) (log : List Change) : Prop where
  logged : ∀ change ∈ log, registry.Logged writer change
  distinct : (Change.inserted log).Nodup

/-- The registry with the ids of the relationships that a transaction inserts. -/
def note (registry : Registry) (writer : Nat) : List Change → Registry
  | [] => registry
  | .insertRelationship rel :: rest =>
    note (fun id => if id = rel.id then some ⟨rel.edge, writer⟩ else registry id) writer rest
  | _ :: rest => registry.note writer rest

/-- What is registered stays as it is. -/
def Extends (registry next : Registry) : Prop :=
  ∀ ⦃id stamp⦄, registry id = some stamp → next id = some stamp

theorem Extends.refl (registry : Registry) : registry.Extends registry := fun _ _ known => known

theorem Extends.trans {last : Registry} (first : registry.Extends next)
    (second : next.Extends last) :
    registry.Extends last := fun _ _ known => second (first known)

/-- What is registered after changes was so before, or is inserted by them. -/
theorem known_of_note (known : registry.note writer log id = some stamp) :
    registry id = some stamp ∨ stamp.writer = writer ∧ id ∈ Change.inserted log := by
  induction log generalizing registry with
  | nil => exact .inl known
  | cons change log ih =>
    rw [Change.inserted_cons, List.mem_append]
    cases change with
    | insertRelationship rel =>
      rcases ih known with earlier | ⟨own, later⟩
      · split at earlier
        · rename_i same
          obtain rfl := Option.some.inj earlier
          exact .inr ⟨rfl, .inl (by simp [same, Change.inserted?])⟩
        · exact .inl earlier
      · exact .inr ⟨own, .inr later⟩
    | insertEntity entity | replaceEntity entity | removeEntity path | replaceRelationship rel
    | removeRelationship id =>
      rcases ih known with earlier | ⟨own, later⟩
      · exact .inl earlier
      · exact .inr ⟨own, .inr later⟩

/-- New ids, each inserted once, are registered without prejudice to others, and with their edges.
-/
theorem extends_note (distinct : (Change.inserted log).Nodup)
    (fresh : ∀ id ∈ Change.inserted log, registry id = none) :
    registry.Extends (registry.note writer log) ∧
      ∀ rel, .insertRelationship rel ∈ log →
        registry.note writer log rel.id = some ⟨rel.edge, writer⟩ := by
  induction log generalizing registry with
  | nil => exact ⟨.refl registry, fun rel member => nomatch member⟩
  | cons change log ih =>
    rw [Change.inserted_cons] at distinct fresh
    cases change with
    | insertRelationship rel =>
      obtain ⟨apart, distinct⟩ := List.nodup_cons.mp distinct
      have unknown : registry rel.id = none := fresh rel.id List.mem_cons_self
      obtain ⟨more, noted⟩ :=
        @ih (fun id => if id = rel.id then some ⟨rel.edge, writer⟩ else registry id) distinct
        (fun id member => by
          have other : id ≠ rel.id := fun same => apart (same ▸ member)
          simpa [other] using fresh id (List.mem_cons_of_mem _ member))
      refine ⟨fun id stamp known => more ?_, fun next member => ?_⟩
      · have other : id ≠ rel.id := by
          rintro rfl
          simp [unknown] at known
        simpa [other] using known
      · rcases List.mem_cons.mp member with same | later
        · obtain rfl : next = rel := by simpa using same
          exact more (by simp)
        · exact noted next later
    | insertEntity entity | replaceEntity entity | removeEntity path | replaceRelationship rel
    | removeRelationship id =>
      obtain ⟨more, noted⟩ := @ih registry distinct fresh
      exact ⟨more, fun next member => noted next (by simpa using member)⟩

theorem Sound.empty (registry : Registry) : registry.Sound .empty where
  toWellFormed := .empty
  exclusive := .empty
  registered found := nomatch found

theorem Sound.extend (sound : registry.Sound graph) (more : registry.Extends next) :
    next.Sound graph where
  toWellFormed := sound.toWellFormed
  exclusive := sound.exclusive
  registered found := by
    obtain ⟨writer, known⟩ := sound.registered found
    exact ⟨writer, more known⟩

theorem Logged.extend (logged : registry.Logged writer change) (more : registry.Extends next) :
    next.Logged writer change := by
  cases change with
  | insertEntity entity | replaceEntity entity => exact logged
  | removeEntity path | removeRelationship id => trivial
  | insertRelationship rel => exact more logged
  | replaceRelationship rel =>
    obtain ⟨other, known⟩ := logged
    exact ⟨other, more known⟩

theorem Records.extend (records : registry.Records writer log) (more : registry.Extends next) :
    next.Records writer log where
  logged change member := (records.logged change member).extend more
  distinct := records.distinct

/-- What a log inserts is registered as its writer's. -/
theorem Records.inserted (records : registry.Records writer log)
    (member : id ∈ Change.inserted log) :
    ∃ edge, registry id = some ⟨edge, writer⟩ := by
  obtain ⟨change, logged, named⟩ := List.mem_filterMap.mp member
  have known := records.logged change logged
  cases change with
  | insertRelationship rel =>
    obtain rfl := Option.some.inj named
    exact ⟨rel.edge, known⟩
  | insertEntity entity | replaceEntity entity | removeEntity path | replaceRelationship rel
  | removeRelationship id => cases named

/-- A logged change suits every sound graph that lacks the id it inserts. -/
theorem Sound.suits (sound : registry.Sound graph) (logged : registry.Logged writer change)
    (fresh : ∀ id, change.inserted? = some id → graph.relationships.find? id = none) :
    graph.Suits change := by
  cases change with
  | insertEntity entity | replaceEntity entity => exact logged
  | removeEntity path | removeRelationship id => trivial
  | insertRelationship rel => exact fresh rel.id rfl
  | replaceRelationship rel =>
    intro old found
    obtain ⟨writer, known⟩ := sound.registered found
    obtain ⟨other, known'⟩ := logged
    simpa using (congrArg (Option.map Stamp.edge) (known'.symm.trans known))

theorem Sound.after (sound : registry.Sound graph) (logged : registry.Logged writer change)
    (fresh : ∀ id, change.inserted? = some id → graph.relationships.find? id = none)
    (admitted : graph.Admits change) : registry.Sound (graph.after change) := by
  have suits := sound.suits logged fresh
  exact {
    toWellFormed := sound.toWellFormed.after suits admitted
    exclusive := sound.exclusive.after sound.toWellFormed suits admitted
    registered := fun {id rel} found => by
      rcases Graph.relationship_after found with old | ⟨rfl, rfl | rfl⟩
      · exact sound.registered old
      · exact ⟨writer, logged⟩
      · exact logged }

/-- A log about to be replayed on a sound graph, which lacks every id that it inserts. -/
structure Fits (registry : Registry) (writer : Nat) (log : List Change) (graph : Graph) : Prop where
  sound : registry.Sound graph
  records : registry.Records writer log
  fresh : ∀ id ∈ Change.inserted log, graph.relationships.find? id = none

theorem Fits.suits (fits : registry.Fits writer (change :: log) graph) : graph.Suits change :=
  fits.sound.suits (fits.records.logged change List.mem_cons_self) fun id new =>
    fits.fresh id (by simp [Change.inserted_cons, new])

theorem Fits.after (fits : registry.Fits writer (change :: log) graph)
    (admitted : graph.Admits change) :
    registry.Fits writer log (graph.after change) := by
  have logged := fits.records.logged
  have distinct := fits.records.distinct
  have fresh := fits.fresh
  rw [Change.inserted_cons, List.nodup_append] at distinct
  simp only [Change.inserted_cons, List.mem_append, Option.mem_toList] at fresh
  refine ⟨fits.sound.after (logged change List.mem_cons_self) (fun id new => fresh id (.inl new))
    admitted, ⟨fun other member => logged other (List.mem_cons_of_mem _ member), distinct.2.1⟩, ?_⟩
  intro id member
  cases stored : (graph.after change).relationships.find? id with
  | none => rfl
  | some rel =>
    exfalso
    rcases Graph.relationship_after stored with old | ⟨rfl, rfl | rfl⟩
    · simp [fresh id (.inr member)] at old
    · exact distinct.2.2 rel.id (by simp [Change.inserted?]) rel.id member rfl
    · obtain ⟨old, stored⟩ := (Table.contains_iff _ _).mp admitted
      simp [fresh rel.id (.inr member)] at stored

/-- What is left of a log fits the graph that the changes before it leave. -/
theorem Fits.rest {rest : List Change} (fits : registry.Fits writer (log ++ rest) graph)
    (replayed : graph.replay log = .ok later) : registry.Fits writer rest later := by
  induction log generalizing graph with
  | nil =>
    obtain rfl := Except.ok.inj replayed
    exact fits
  | cons change log ih =>
    obtain ⟨admitted, replayed⟩ := Graph.replay_cons_eq_ok_iff.mp replayed
    exact ih (fits.after admitted) replayed

theorem Fits.replay (fits : registry.Fits writer log graph)
    (replayed : graph.replay log = .ok later) :
    registry.Sound later := by
  rw [← List.append_nil log] at fits
  exact (fits.rest replayed).sound

end Registry

end Estate
