import Estate.Proofs.Store.Replay

/-!
Updates that race. An update is logged as the whole element it makes of the one in the snapshot, and
replaying a replacement asks for no more than that something is still there to replace. So of two
updates of one element on one snapshot the one committed last stands alone, whatever fields the two
set.
-/
namespace Estate

variable {traffic : Traffic} {tx next : Transaction} {number : Nat} {handle : Handle}
  {element revised : Element} {update : Update} {calls : List Call} {act : Act} {ids : IdSource}

def Act.reaches (act : Act) (draft : Draft) (handle : Handle) : Bool :=
  (act.changes draft).any (·.handle = handle)

namespace Transaction

/-- An element is as it was when the transaction began, and may be written. -/
structure Awaits (tx : Transaction) (handle : Handle) (element : Element) : Prop where
  access : tx.access = .readWrite
  stored : tx.working.element? handle = some element

/-- The last word of the log on an element. -/
def Leaves (tx : Transaction) (element : Element) : Prop :=
  ∃ earlier later, tx.log = earlier ++ element.replacement :: later ∧
    ∀ change ∈ later, change.handle ≠ element.handle

/-- What an act that does not reach an element writes is about others. -/
theorem written_apart {written : List Change} (begun : written <+: act.changes ⟨tx, ids⟩)
    (passes : act.reaches ⟨tx, ids⟩ handle = false) :
    ∀ change ∈ written, change.handle ≠ handle := by
  intro change member
  simp only [Act.reaches, List.any_eq_false, decide_eq_true_eq] at passes
  exact passes change (begun.subset member)

theorem Awaits.acted (awaits : tx.Awaits handle element)
    (passes : act.reaches ⟨tx, ids⟩ handle = false) :
    (act.run ⟨tx, ids⟩).tx.Awaits handle element := by
  obtain ⟨written, begun, wrote⟩ := tx.attempt_wrote (act.changes ⟨tx, ids⟩)
  rw [Act.run_eq]
  refine ⟨wrote.access.trans awaits.access, ?_⟩
  rw [Graph.element?_replay (written_apart begun passes) wrote.replayed]
  exact awaits.stored

theorem Leaves.acted (leaves : tx.Leaves element)
    (passes : act.reaches ⟨tx, ids⟩ element.handle = false) :
    (act.run ⟨tx, ids⟩).tx.Leaves element := by
  obtain ⟨earlier, later, logged, apart⟩ := leaves
  obtain ⟨written, begun, wrote⟩ := tx.attempt_wrote (act.changes ⟨tx, ids⟩)
  rw [Act.run_eq]
  refine ⟨earlier, later ++ written, ?_, ?_⟩
  · rw [wrote.log, logged, List.append_assoc, List.cons_append]
  · intro change member
    rcases List.mem_append.mp member with old | new
    · exact apart change old
    · exact written_apart begun passes change new

/-- An update that reaches the element logs what it makes of the one in the snapshot. -/
theorem Awaits.updated (awaits : tx.Awaits handle element) (keyed : element.handle = handle)
    (reaches : (Act.update handle update).reaches ⟨tx, ids⟩ handle) :
    ∃ revised, element.revise update = .ok revised ∧
      ((Act.update handle update).run ⟨tx, ids⟩).tx.Leaves revised := by
  obtain ⟨change, member, -⟩ := List.any_eq_true.mp reaches
  obtain ⟨old, revised, stored, success, rfl⟩ := Act.mem_changes_update.mp member
  obtain rfl := Option.some.inj (awaits.stored.symm.trans stored)
  have present : (tx.working.element? revised.handle).isSome := by
    rw [Element.handle_revise success, keyed, awaits.stored]
    rfl
  have changes : (Act.update handle update).changes ⟨tx, ids⟩ = [revised.replacement] := by
    simp only [Act.changes, findElement_eq_ok_iff.mpr stored, bind, Except.bind, success]
  have written := write_eq_ok_iff.mpr
    ⟨awaits.access, (Graph.admits_replacement tx.working revised).mpr present, rfl⟩
  refine ⟨revised, success, ?_⟩
  rw [Act.run_eq, changes]
  simp only [attempt, written]
  exact ⟨tx.log, [], rfl, fun _ member => absurd member List.not_mem_nil⟩

end Transaction

namespace Traffic

def reachedBy (traffic : Traffic) (number : Nat) (handle : Handle) : Call → List Act
  | .act acting act =>
    match traffic.underway.find? acting with
    | some tx => if acting = number && act.reaches ⟨tx, traffic.ids⟩ handle then [act] else []
    | none => []
  | _ => []

/-- The acts of a transaction that set out to write an element, in order. -/
def reaching (traffic : Traffic) (number : Nat) (handle : Handle) : List Call → List Act
  | [] => []
  | call :: rest =>
    traffic.reachedBy number handle call ++ (traffic.step call).reaching number handle rest

def Wins (traffic : Traffic) (number : Nat) : Prop :=
  ∃ tx store, traffic.underway.find? number = some tx ∧ traffic.store.commit tx = .ok store

instance (traffic : Traffic) (number : Nat) : Decidable (traffic.Wins number) :=
  decidable_of_iff
    ((traffic.underway.find? number).any fun tx => (traffic.store.commit tx).isOk) <| by
      unfold Wins
      cases traffic.underway.find? number with
      | none => simp
      | some tx =>
        cases success : traffic.store.commit tx <;> simp [success, Except.isOk, Except.toBool]

/-- A call ends a transaction, leaves it alone, or is an act of it. -/
theorem underway_step_cases (present : traffic.underway.find? number = some tx)
    (given : number ≤ traffic.store.begun) (call : Call) (handle : Handle) :
    (traffic.step call).underway.find? number = none ∨
      (traffic.step call).underway.find? number = some tx ∧
      traffic.reachedBy number handle call = [] ∨
      ∃ act, call = .act number act := by
  cases call with
  | begin access =>
    rw [underway_begin, if_neg (by omega)]
    exact .inr (.inl ⟨present, rfl⟩)
  | act acting act =>
    by_cases same : acting = number
    · exact .inr (.inr ⟨act, same ▸ rfl⟩)
    · refine .inr (.inl ⟨?_, ?_⟩)
      · cases other : traffic.underway.find? acting with
        | none => simpa only [step, other] using present
        | some tx =>
          rw [underway_act other, if_neg (Ne.symm same)]
          exact present
      · simp only [reachedBy, same]
        split <;> rfl
  | commit done =>
    rw [underway_commit]
    split
    · exact .inl rfl
    · exact .inr (.inl ⟨present, rfl⟩)
  | rollback done =>
    rw [underway_rollback]
    split
    · exact .inl rfl
    · exact .inr (.inl ⟨present, rfl⟩)

theorem reachedBy_act (present : traffic.underway.find? number = some tx) (act : Act)
    (handle : Handle) :
    traffic.reachedBy number handle (.act number act) =
      if act.reaches ⟨tx, traffic.ids⟩ handle then [act] else [] := by
  simp [reachedBy, present]

/-- Nothing that follows reaches the element, so the last word on it stays. -/
theorem leaves_run (present : traffic.underway.find? number = some tx)
    (given : number ≤ traffic.store.begun) (leaves : tx.Leaves element)
    (unreached : traffic.reaching number element.handle calls = [])
    (last : (traffic.run calls).underway.find? number = some next) : next.Leaves element := by
  induction calls generalizing traffic tx with
  | nil =>
    obtain rfl := Option.some.inj (present.symm.trans last)
    exact leaves
  | cons call rest ih =>
    have given' := Nat.le_trans given (begun_le_step traffic call)
    obtain ⟨passes, unreached⟩ := List.append_eq_nil_iff.mp unreached
    rw [run_cons] at last
    rcases underway_step_cases present given call element.handle with gone | ⟨same, -⟩ | ⟨act, rfl⟩
    · rw [absent_run gone given'] at last
      cases last
    · exact ih same given' leaves unreached last
    · have acted := underway_act present act number
      rw [if_pos rfl] at acted
      rw [reachedBy_act present] at passes
      exact ih acted given' (leaves.acted (by simpa using passes)) unreached last

/-- One update reaches the element, so its outcome is the last word on it. -/
theorem awaits_run (present : traffic.underway.find? number = some tx)
    (given : number ≤ traffic.store.begun) (awaits : tx.Awaits handle element)
    (keyed : element.handle = handle)
    (reached : traffic.reaching number handle calls = [.update handle update])
    (last : (traffic.run calls).underway.find? number = some next) :
    ∃ revised, element.revise update = .ok revised ∧ next.Leaves revised := by
  induction calls generalizing traffic tx with
  | nil => cases reached
  | cons call rest ih =>
    have given' := Nat.le_trans given (begun_le_step traffic call)
    rw [run_cons] at last
    rw [reaching] at reached
    rcases underway_step_cases present given call handle with gone | ⟨same, passed⟩ | ⟨act, rfl⟩
    · rw [absent_run gone given'] at last
      cases last
    · rw [passed, List.nil_append] at reached
      exact ih same given' awaits reached last
    · have acted := underway_act present act number
      rw [if_pos rfl] at acted
      rw [reachedBy_act present] at reached
      split at reached
      · rename_i reaches
        obtain ⟨rfl, unreached⟩ := List.cons.inj reached
        obtain ⟨revised, success, leaves⟩ := awaits.updated keyed reaches
        have same : revised.handle = handle := (Element.handle_revise success).trans keyed
        exact ⟨revised, success, leaves_run acted given' leaves (same ▸ unreached) last⟩
      · rename_i passes
        exact ih acted given' (awaits.acted (by simpa using passes)) reached last

/-- What the update made of the element is what its commit leaves. -/
theorem committed_of_wins (faithful : traffic.Faithful)
    (present : traffic.underway.find? number = some tx) (given : number ≤ traffic.store.begun)
    (awaits : tx.Awaits handle element) (keyed : element.handle = handle)
    (reached : traffic.reaching number handle calls = [.update handle update])
    (wins : (traffic.run calls).Wins number) :
    ∃ revised, element.revise update = .ok revised ∧
      (traffic.run (calls ++ [.commit number])).store.committed.element? handle = some revised := by
  obtain ⟨next, store, last, committed⟩ := wins
  obtain ⟨revised, success, earlier, later, logged, apart⟩ :=
    awaits_run present given awaits keyed reached last
  refine ⟨revised, success, ?_⟩
  have current := faithful.run calls number next last
  rcases (Store.commit_eq_ok_iff current).mp committed with ⟨idle, -⟩ | ⟨-, graph, replayed, rfl⟩
  · simp [logged] at idle
  · have same : revised.handle = handle := (Element.handle_revise success).trans keyed
    rw [logged] at replayed
    rw [run_concat, store_commit last committed, ← same]
    exact Graph.element?_replay_replacement apart replayed

theorem keyed_run (ids : IdSource) (calls : List Call) :
    ((start ids).run calls).store.committed.Keyed :=
  Graph.Keyed.empty.replay (Faithful.replay_winnings (faithful_run ids []) calls)

/-- A transaction of a run that begins to write, reaches an element by one update and no other act,
and is committed. Any calls may stand in its course, those of other transactions among them. -/
structure Bout (ids : IdSource) (handle : Handle) where
  before : List Call
  course : List Call
  number : Nat
  begun : number = ((start ids).run before).store.begun + 1
  update : Update
  reached : ((start ids).run (before ++ [.begin .readWrite])).reaching number handle course =
    [.update handle update]
  wins : ((start ids).run (before ++ .begin .readWrite :: course)).Wins number

namespace Bout

variable (bout : Bout ids handle)

def snapshot : Graph := ((start ids).run bout.before).store.committed

def whole : List Call := bout.before ++ .begin .readWrite :: bout.course ++ [.commit bout.number]

def outcome : Graph := ((start ids).run bout.whole).store.committed

/-- Whatever was committed in its course, its commit leaves what its update alone makes of the
element it began with. -/
theorem element?_outcome (stored : bout.snapshot.element? handle = some element) :
    ∃ revised, element.revise bout.update = .ok revised ∧
      bout.outcome.element? handle = some revised := by
  have keyed := (keyed_run ids bout.before).handle_eq stored
  have faithful := faithful_run ids (bout.before ++ [.begin .readWrite])
  have present : ((start ids).run (bout.before ++ [.begin .readWrite])).underway.find? bout.number =
      some (((start ids).run bout.before).store.begin .readWrite).1 := by
    rw [run_concat, underway_begin, if_pos bout.begun]
  have given : bout.number ≤
      ((start ids).run (bout.before ++ [.begin .readWrite])).store.begun := by
    rw [run_concat, bout.begun]
    exact Nat.le_refl _
  have wins := bout.wins
  rw [List.append_cons, run_append] at wins
  obtain ⟨revised, success, left⟩ :=
    committed_of_wins faithful present given ⟨rfl, stored⟩ keyed bout.reached wins
  refine ⟨revised, success, ?_⟩
  rw [outcome, whole, List.append_assoc, List.cons_append, List.append_cons, run_append]
  exact left

end Bout

/-- Two transactions of one run that both begin on one committed graph. -/
structure Race (ids : IdSource) (handle : Handle) where
  first : Bout ids handle
  second : Bout ids handle
  shared : first.snapshot = second.snapshot
  /-- the first is committed before the second -/
  ordered : first.whole <+: second.before ++ .begin .readWrite :: second.course

/-- Whichever of two racing updates is committed, the element is what that update alone made of the
one both began with. So it has both updates in the end only if the one committed first changed
nothing. -/
theorem race_leaves_last_update_alone (ids : IdSource) (handle : Handle) (race : Race ids handle)
    (element : Element) (stored : race.first.snapshot.element? handle = some element) :
    ∃ revised last, element.revise race.first.update = .ok revised ∧
      element.revise race.second.update = .ok last ∧
      race.first.outcome.element? handle = some revised ∧
      race.second.outcome.element? handle = some last ∧
      (race.first.update.Disjoint race.second.update →
        (revised.revise race.second.update = .ok last ↔ revised = element)) := by
  obtain ⟨revised, success, halfway⟩ := race.first.element?_outcome stored
  obtain ⟨last, alone, outcome⟩ := race.second.element?_outcome (race.shared ▸ stored)
  exact ⟨revised, last, success, alone, halfway, outcome,
    fun disjoint => Element.revise_disjoint_iff disjoint success alone⟩

def contested : Path :=
  ⟨[⟨.tenant, "t"⟩] ++ [⟨.resourceType, "rt"⟩],
    @Path.legal_append ⟨_, Path.legal_tenant (by decide)⟩ ⟨.resourceType, "rt"⟩ (by decide)
      (by decide)⟩

def stocked : List Call :=
  [.begin .readWrite, .act 1 (.persist contested { id := none, details := .resourceType "1" }),
    .commit 1]

def newVersion : Update := { version := some "2" }

def newOwner : Update := { properties := some ((∅ : Properties).insert "owner" .null) }

/-- One transaction sets the version before another begins that sets the properties. -/
def contest : Race .counter (.entity contested) where
  first := {
    before := stocked
    course := [.act 2 (.update (.entity contested) newVersion), .begin .readWrite,
      .act 3 (.update (.entity contested) newOwner)]
    number := 2
    begun := rfl
    update := newVersion
    reached := rfl
    wins := by decide +kernel }
  second := {
    before := stocked ++ [.begin .readWrite, .act 2 (.update (.entity contested) newVersion)]
    course := [.act 3 (.update (.entity contested) newOwner), .commit 2]
    number := 3
    begun := rfl
    update := newOwner
    reached := rfl
    wins := by decide +kernel }
  shared := rfl
  ordered := ⟨[], rfl⟩

/-- Two updates without a field in common are both committed, and the new version is lost. -/
theorem disjoint_update_lost :
    newVersion.Disjoint newOwner ∧ contest.first.update = newVersion ∧
      contest.second.update = newOwner ∧
      ∃ element revised both, contest.first.snapshot.element? (.entity contested) = some element ∧
        element.revise newVersion = .ok revised ∧ revised.revise newOwner = .ok both ∧
        contest.second.outcome.element? (.entity contested) ≠ some both := by
  have disjoint : newVersion.Disjoint newOwner := ⟨.inr rfl, .inl rfl, .inl rfl⟩
  refine ⟨disjoint, rfl, rfl, .entity ⟨contested, .resourceType "1", ∅⟩,
    .entity ⟨contested, .resourceType "2", ∅⟩,
    .entity ⟨contested, .resourceType "2", (∅ : Properties).insert "owner" .null⟩,
    rfl, rfl, rfl, ?_⟩
  have outcome : contest.second.outcome.element? (.entity contested) =
      some (.entity ⟨contested, .resourceType "1", (∅ : Properties).insert "owner" .null⟩) := rfl
  simp [outcome]

theorem contest_leaves_last_update_alone :
    ∃ element revised last : Element,
      contest.first.snapshot.element? (.entity contested) = some element ∧
      element.revise newVersion = .ok revised ∧ element.revise newOwner = .ok last ∧
      contest.first.outcome.element? (.entity contested) = some revised ∧
      contest.second.outcome.element? (.entity contested) = some last ∧
      revised.revise newOwner ≠ .ok last := by
  have stored : contest.first.snapshot.element? (.entity contested) =
      some (.entity ⟨contested, .resourceType "1", ∅⟩) := rfl
  obtain ⟨revised, last, success, alone, halfway, outcome, both⟩ :=
    race_leaves_last_update_alone .counter (.entity contested) contest _ stored
  refine ⟨_, revised, last, stored, success, alone, halfway, outcome, ?_⟩
  have unchanged : revised.revise newOwner = .ok last ↔ revised = _ :=
    both ⟨.inr rfl, .inl rfl, .inl rfl⟩
  rw [ne_eq, unchanged]
  obtain rfl := Except.ok.inj success
  simp

end Traffic

end Estate
