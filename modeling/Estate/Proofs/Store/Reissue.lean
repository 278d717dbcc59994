import Estate.Proofs.Graph.Alike
import Estate.Proofs.Store.Successes

/-!
Calls issued again. A log is decided on a snapshot and may be replayed on what was committed since;
where that succeeds, the calls themselves would have succeeded there too and have come to the same.
Updates are left out: what they make of an element depends on the snapshot.
-/
namespace Estate

variable {registry : Registry} {planned graph next : Graph} {path : Path} {number : Nat}
  {tx : Transaction} {success : Success} {done : List Success} {rest : List Change}

def Act.revises : Act → Bool
  | .update .. => true
  | _ => false

theorem Act.changes_delete_entity {draft : Draft}
    (something : (Act.delete (.entity path)).changes draft ≠ []) :
    draft.tx.working.hasContents path = false ∧
      (Act.delete (.entity path)).changes draft = Act.removals draft.tx.working path := by
  simp only [Act.changes] at something ⊢
  split at something
  · rename_i allowed
    simp only [Bool.and_eq_true, Bool.not_eq_eq_eq_not, Bool.not_true] at allowed
    simp [allowed]
  · exact absurd rfl something

namespace Registry.Sound

/-- A relationship that two graphs hold under one id has the same edge in both. -/
theorem edge_eq (sound : registry.Sound planned) (sound' : registry.Sound graph) {id : String}
    {rel other : Relationship} (found : planned.relationships.find? id = some rel)
    (found' : graph.relationships.find? id = some other) : rel.edge = other.edge := by
  obtain ⟨writer, known⟩ := sound.registered found
  obtain ⟨writer', known'⟩ := sound'.registered found'
  exact congrArg Stamp.edge (Option.some.inj (known.symm.trans known'))

/-- A deletion decided on one graph goes through on another only where it would have been decided
there just so: the same relationships are at the entity, and it contains nothing. -/
theorem removals_agree (sound : registry.Sound planned) (sound' : registry.Sound graph)
    (bare : planned.hasContents path = false)
    (replayed : graph.replay (Act.removals planned path) = .ok next) :
    (planned.idsAt path).Perm (graph.idsAt path) ∧ graph.hasContents path = false := by
  rw [Act.removals_eq sound.toWellFormed] at replayed
  have removed := sound'.toWellFormed.removed_of_replay replayed
  constructor
  · apply (List.perm_ext_iff_of_nodup (sound.distinct path) (sound'.distinct path)).mpr
    intro id
    constructor
    · intro member
      obtain ⟨rel, found, touching⟩ := (sound.listed path id).mp member
      obtain ⟨other, found'⟩ := (Table.contains_iff _ _).mp (removed.held id member)
      refine (sound'.listed path id).mpr ⟨other, found', ?_⟩
      rwa [← Relationship.touches_of_edge (sound.edge_eq sound' found found')]
    · intro member
      obtain ⟨rel, found, touching⟩ := (sound'.listed path id).mp member
      exact removed.detached id rel found touching
  · apply sound'.hasContents_eq_false_iff.mpr
    intro id rel found named source
    have member := removed.detached id rel found (Graph.touches_both_iff.mpr (.inl source))
    obtain ⟨old, found', -⟩ := (sound.listed path id).mp member
    have same := sound.edge_eq sound' found' found
    simp only [Relationship.edge, Edge.mk.injEq] at same
    exact sound.hasContents_eq_false_iff.mp bare id old found' (same.1.trans named)
      (same.2.1.trans source)

end Registry.Sound

/-- A transaction that can write, on a graph like another. -/
structure Transaction.Stands (tx : Transaction) (graph : Graph) : Prop where
  access : tx.access = .readWrite
  wellFormed : tx.working.WellFormed
  alike : tx.working.Alike graph

/-- Issues calls again, in order and under the ids they drew; every one must succeed. -/
def Transaction.reissue (tx : Transaction) : List Success → Option Transaction
  | [] => some tx
  | success :: rest =>
    match success.act.body.perform ⟨tx, success.draft.ids⟩ with
    | (.ok _, later) => later.tx.reissue rest
    | (.error _, _) => none

namespace Transaction.Stands

theorem replay_single {change : Change} (stands : tx.Stands graph)
    (fits : registry.Fits number (change :: rest) graph)
    (replayed : graph.replay [change] = .ok next) :
    ∃ later, tx.working.replay [change] = .ok later ∧ later.WellFormed ∧ later.Alike next := by
  obtain ⟨admitted, same⟩ := Graph.replay_cons_eq_ok_iff.mp replayed
  obtain rfl := Except.ok.inj same
  have admitted' := stands.alike.admits admitted
  have suits' := stands.alike.suits fits.suits
  exact ⟨_, Graph.replay_cons_eq_ok_iff.mpr ⟨admitted', rfl⟩,
    stands.wellFormed.after suits' admitted', stands.alike.after change⟩

/-- What a deletion set out to write is what it would set out to write on the graph alike, in some
order. -/
theorem detaches {draft : Draft} (stands : tx.Stands graph)
    (sound : registry.Sound draft.tx.working) (sound' : registry.Sound graph)
    (something : (Act.delete (.entity path)).changes draft ≠ [])
    (replayed : graph.replay ((Act.delete (.entity path)).changes draft) = .ok next) :
    (Act.delete (.entity path)).changes draft =
        (draft.tx.working.idsAt path).map .removeRelationship ++ [.removeEntity path] ∧
      (draft.tx.working.idsAt path).Perm (tx.working.idsAt path) ∧
      tx.working.hasContents path = false := by
  obtain ⟨bare, planned⟩ := Act.changes_delete_entity something
  rw [planned] at replayed ⊢
  obtain ⟨same, bare'⟩ := sound.removals_agree sound' bare replayed
  refine ⟨Act.removals_eq sound.toWellFormed path, same.trans (stands.alike.listed path).symm, ?_⟩
  rw [stands.alike.hasContents stands.wellFormed sound'.toWellFormed, bare']

/-- A deletion goes through as well, though it may come to detach the relationships in another
order. -/
theorem replay_removals {draft : Draft} (stands : tx.Stands graph)
    (sound : registry.Sound draft.tx.working) (sound' : registry.Sound graph)
    (something : (Act.delete (.entity path)).changes draft ≠ [])
    (replayed : graph.replay ((Act.delete (.entity path)).changes draft) = .ok next) :
    ∃ later, (Act.delete (.entity path)).changes ⟨tx, draft.ids⟩ ≠ [] ∧
      tx.working.replay ((Act.delete (.entity path)).changes ⟨tx, draft.ids⟩) = .ok later ∧
      later.WellFormed ∧
      later.Alike next := by
  obtain ⟨planned, same, bare⟩ := stands.detaches sound sound' something replayed
  rw [planned] at replayed
  have removed := sound'.toWellFormed.removed_of_replay replayed
  have stored : tx.working.entities.contains path := by
    rw [stands.alike.entities]
    exact removed.stored
  have again : (Act.delete (.entity path)).changes ⟨tx, draft.ids⟩ =
      Act.removals tx.working path := by
    simp [Act.changes, stored, bare]
  rw [again, Act.removals_eq stands.wellFormed]
  obtain ⟨later, went⟩ := stands.wellFormed.replay_removals stored
  have removed' := stands.wellFormed.removed_of_replay went
  refine ⟨later, by simp, went, removed'.wellFormed,
    removed'.wellFormed.alike removed.wellFormed ?_ ?_⟩
  · rw [removed'.entities, removed.entities, stands.alike.entities]
  · apply Table.ext
    intro id
    rw [removed'.relationships, removed.relationships, stands.alike.relationships]
    simp only [same.mem_iff]

/-- A call issued again sets out to write what goes through on the graph alike. -/
theorem replay_changes {act : Act} {draft : Draft} (stands : tx.Stands graph)
    (plain : act.revises = false) (sound : registry.Sound draft.tx.working)
    (something : act.changes draft ≠ [])
    (fits : registry.Fits number (act.changes draft ++ rest) graph)
    (replayed : graph.replay (act.changes draft) = .ok next) :
    ∃ later, act.changes ⟨tx, draft.ids⟩ ≠ [] ∧
      tx.working.replay (act.changes ⟨tx, draft.ids⟩) = .ok later ∧
      later.WellFormed ∧ later.Alike next := by
  have single (change : Change) (first : act.changes draft = [change])
      (again : act.changes ⟨tx, draft.ids⟩ = [change]) :
      ∃ later, act.changes ⟨tx, draft.ids⟩ ≠ [] ∧
        tx.working.replay (act.changes ⟨tx, draft.ids⟩) = .ok later ∧
        later.WellFormed ∧ later.Alike next := by
    rw [first] at fits replayed
    rw [again]
    obtain ⟨later, went, wellFormed, alike⟩ := stands.replay_single fits replayed
    exact ⟨later, List.cons_ne_nil _ _, went, wellFormed, alike⟩
  cases act with
  | read reading | draw => exact absurd rfl something
  | update handle revision => cases plain
  | persist path blueprint =>
    cases made : Entity.ofBlueprint path blueprint with
    | error error => simp [Act.changes, made] at something
    | ok entity =>
      apply single (.insertEntity entity)
      · simp only [Act.changes, made]
      · simp only [Act.changes, made]
  | relate source target name properties =>
    cases source with
    | relationship id => exact absurd rfl something
    | entity source =>
      cases target with
      | relationship id => exact absurd rfl something
      | entity target => exact single _ rfl rfl
  | delete handle =>
    cases handle with
    | relationship id =>
      have first : (Act.delete (.relationship id)).changes draft = [.removeRelationship id] := by
        simp only [Act.changes] at something ⊢
        split at something <;> simp_all
      have stored : graph.relationships.contains id := by
        rw [first] at replayed
        exact (Graph.replay_cons_eq_ok_iff.mp replayed).1
      refine single _ first ?_
      rw [← stands.alike.relationships] at stored
      simp [Act.changes, stored]
    | entity path =>
      exact stands.replay_removals sound fits.sound something replayed

/-- Calls issued again succeed where what they wrote is replayed, and come to the same. -/
theorem reissued (stands : tx.Stands graph)
    (plain : ∀ success ∈ done, success.act.revises = false)
    (known : ∀ success ∈ done, success.Known registry)
    (fits : registry.Fits number (done.flatMap Success.written ++ rest) graph)
    (replayed : graph.replay (done.flatMap Success.written) = .ok next) :
    ∃ redone, tx.reissue done = some redone ∧ redone.Stands next := by
  induction done generalizing tx graph with
  | nil =>
    obtain rfl := Except.ok.inj replayed
    exact ⟨tx, rfl, stands⟩
  | cons success done ih =>
    have own := known success List.mem_cons_self
    rw [List.flatMap_cons, own.whole] at fits replayed
    rw [List.append_assoc] at fits
    obtain ⟨middle, first, last⟩ := Graph.replay_append_eq_ok_iff.mp replayed
    obtain ⟨later, something, went, wellFormed, alike⟩ :=
      stands.replay_changes (plain success List.mem_cons_self) own.sound own.something fits first
    have performed :=
      @Act.perform_of_replay ⟨tx, success.draft.ids⟩ success.act _ something stands.access went
    simp only [reissue, performed]
    exact ih ⟨stands.access, wellFormed, alike⟩
      (fun other member => plain other (List.mem_cons_of_mem _ member))
      (fun other member => known other (List.mem_cons_of_mem _ member)) (fits.rest first) last

/-- A deletion after calls issued again finds nothing contained in its entity, and detaches what
touches it by then. -/
theorem reissued_deletion {earlier later : List Success} {draft : Draft} (stands : tx.Stands graph)
    (plain : ∀ success ∈ earlier, success.act.revises = false)
    (known : ∀ success ∈ earlier ++ ⟨.delete (.entity path), draft⟩ :: later,
      success.Known registry)
    (fits : registry.Fits number
      ((earlier ++ ⟨.delete (.entity path), draft⟩ :: later).flatMap Success.written) graph)
    (replayed : graph.replay
      ((earlier ++ ⟨.delete (.entity path), draft⟩ :: later).flatMap Success.written) = .ok next) :
    ∃ (here : Graph) (there : Transaction) (detached : List String),
      graph.replay (earlier.flatMap Success.written) = .ok here ∧ tx.reissue earlier = some there ∧
      there.Stands here ∧ there.working.hasContents path = false ∧
      (Act.delete (.entity path)).written draft = detached.map .removeRelationship ++
        [.removeEntity path] ∧
      detached.Nodup ∧
      ∀ id, id ∈ detached ↔ ∃ rel, there.working.relationships.find? id = some rel ∧
        rel.touches path .both := by
  have own := known _ (List.mem_append_right _ List.mem_cons_self)
  rw [List.flatMap_append, List.flatMap_cons] at fits replayed
  obtain ⟨here, first, rest⟩ := Graph.replay_append_eq_ok_iff.mp replayed
  obtain ⟨after, deleted, -⟩ := Graph.replay_append_eq_ok_iff.mp rest
  obtain ⟨there, went, stood⟩ :=
    stands.reissued plain (fun success member => known success (List.mem_append_left _ member))
      fits first
  rw [own.whole] at deleted
  obtain ⟨detaches, same, bare⟩ :=
    stood.detaches own.sound (fits.rest first).sound own.something deleted
  refine ⟨here, there, draft.tx.working.idsAt path, first, went, stood, bare,
    own.whole.trans detaches, own.sound.distinct path, ?_⟩
  intro id
  rw [same.mem_iff, stood.wellFormed.listed]

end Transaction.Stands

theorem Transaction.Stands.of_begin {store : Store} (wellFormed : store.committed.WellFormed) :
    (store.begin .readWrite).1.Stands store.committed := ⟨rfl, wellFormed, .refl _⟩

namespace Traffic

/-- A transaction that revised nothing and whose commit succeeds could as well have begun on what is
committed now: each of its writes succeeds again there, and they come to the graph that the commit
installs. In particular a deletion finds nothing contained in its entity, and detaches what the log
says it did. -/
theorem reissued_of_committed (ids : IdSource) (calls : List Call)
    (distinct : ((start ids).related calls).Nodup) {number : Nat} {tx : Transaction} {next : Store}
    (present : ((start ids).run calls).underway.find? number = some tx)
    (committed : ((start ids).run calls).store.commit tx = .ok next)
    (plain : ∀ success ∈ (start ids).successes number calls, success.act.revises = false) :
    let store := ((start ids).run calls).store
    let done := (start ids).successes number calls
    tx.log = done.flatMap Success.written ∧
      (∃ redone, (store.begin .readWrite).1.reissue done = some redone ∧
        redone.working.Alike next.committed) ∧
      ∀ earlier path draft later, done = earlier ++ ⟨.delete (.entity path), draft⟩ :: later →
        ∃ (here : Graph) (there : Transaction) (detached : List String),
          store.committed.replay (earlier.flatMap Success.written) = .ok here ∧
          (store.begin .readWrite).1.reissue earlier = some there ∧ there.working.Alike here ∧
          there.working.hasContents path = false ∧
          (Act.delete (.entity path)).written draft = detached.map .removeRelationship ++
            [.removeEntity path] ∧
          detached.Nodup ∧
          ∀ id, id ∈ detached ↔
            ∃ rel, there.working.relationships.find? id = some rel ∧ rel.touches path .both := by
  intro store done
  obtain ⟨registry, consistent, recorded⟩ := recorded_run ids number calls distinct
  have logged : tx.log = done.flatMap Success.written := recorded.logged present
  have fits : registry.Fits number (done.flatMap Success.written) store.committed := by
    rw [← logged]
    exact consistent.fits present
  have replayed : store.committed.replay (done.flatMap Success.written) = .ok next.committed := by
    rw [← logged]
    exact Store.replay_of_commit (faithful_run ids calls number tx present) committed
  have stands := Transaction.Stands.of_begin consistent.committed.toWellFormed
  refine ⟨logged, ?_, ?_⟩
  · rw [← List.append_nil (done.flatMap _)] at fits
    obtain ⟨redone, went, stood⟩ := stands.reissued plain recorded.known fits replayed
    exact ⟨redone, went, stood.alike⟩
  · intro earlier path draft later split
    rw [split] at fits replayed
    have plain' : ∀ success ∈ earlier, success.act.revises = false := by
      intro success member
      apply plain
      show _ ∈ done
      rw [split]
      exact List.mem_append_left _ member
    have known : ∀ success ∈ earlier ++ ⟨.delete (.entity path), draft⟩ :: later,
        success.Known registry := by
      rw [← split]
      exact recorded.known
    obtain ⟨here, there, detached, first, went, stood, deleted⟩ :=
      stands.reissued_deletion plain' known fits replayed
    exact ⟨here, there, detached, first, went, stood.alike, deleted⟩

def lone (id : String) (valid : ValidId id) : Path := ⟨[⟨.tenant, id⟩], Path.legal_tenant valid⟩

/-- One of two related tenants is deleted after a third came, and while a fourth is committed. -/
def departure : List Call :=
  let home := lone "home" (by decide)
  let away := lone "away" (by decide)
  let new := lone "new" (by decide)
  let other := lone "other" (by decide)
  let tenant (path : Path) : Act := .persist path { id := none, details := .tenant }
  let knows (path : Path) : Act := .relate (.entity home) (.entity path) "knows" ∅
  [.begin .readWrite, .act 1 (tenant home), .act 1 (tenant away), .act 1 (knows away), .commit 1,
    .begin .readWrite, .begin .readWrite, .act 2 (tenant new), .act 2 (knows new),
    .act 2 (.delete (.entity away)),
    .act 3 (tenant other), .commit 3]

theorem departure_reissued :
    ((start .counter).related departure).Nodup ∧
      ((start .counter).successes 2 departure).length = 3 ∧
      ∃ tx next redone, ((start .counter).run departure).underway.find? 2 = some tx ∧
        tx.baseVersion ≠ ((start .counter).run departure).store.version ∧
        ((start .counter).run departure).store.commit tx = .ok next ∧
        (∀ success ∈ (start .counter).successes 2 departure, success.act.revises = false) ∧
        (((start .counter).run departure).store.begin .readWrite).1.reissue
          ((start .counter).successes 2 departure) = some redone ∧
        redone.working.Alike next.committed := by
  have distinct : ((start .counter).related departure).Nodup := by decide +kernel
  obtain ⟨tx, present⟩ : ∃ tx, ((start .counter).run departure).underway.find? 2 = some tx :=
    ⟨_, rfl⟩
  have newer : tx.baseVersion ≠ ((start .counter).run departure).store.version := by
    obtain rfl := Option.some.inj present
    decide +kernel
  obtain ⟨next, committed⟩ : ∃ next, ((start .counter).run departure).store.commit tx =
      .ok next := by
    obtain rfl := Option.some.inj present
    exact ⟨_, rfl⟩
  have some : ((start .counter).successes 2 departure).length = 3 := by decide +kernel
  have plain : ∀ success ∈ (start .counter).successes 2 departure, success.act.revises = false := by
    have none : ((start .counter).successes 2 departure).all
        (fun success => !success.act.revises) := by
      decide +kernel
    simpa using none
  obtain ⟨-, ⟨redone, went, alike⟩, -⟩ :=
    reissued_of_committed .counter departure distinct present committed plain
  exact ⟨distinct, some, tx, next, redone, present, newer, committed, plain, went, alike⟩

end Traffic

end Estate
