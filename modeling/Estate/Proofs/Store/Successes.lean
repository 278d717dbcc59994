import Estate.Proofs.Graph.Removals
import Estate.Proofs.Store.Consistency

/-!
Successes: the writes of a transaction that succeeded. On a well-formed graph an act writes all that
it sets out to write, or nothing; so a log is what the successes of its transaction wrote, one after
another.
-/
namespace Estate

variable {registry : Registry} {draft : Draft} {traffic : Traffic} {tx : Transaction} {number : Nat}
  {act : Act}

namespace Act

theorem removals_eq {graph : Graph} (wellFormed : graph.WellFormed) (path : Path) :
    removals graph path = (graph.idsAt path).map .removeRelationship ++ [.removeEntity path] := by
  rw [removals, wellFormed.releases_eq]

/-- What a deletion sets out to write is taken one after another. -/
theorem replay_delete {handle : Handle} (wellFormed : draft.tx.working.WellFormed) :
    ∃ next, draft.tx.working.replay ((delete handle).changes draft) = .ok next := by
  cases handle with
  | relationship id =>
    simp only [changes]
    split
    · rename_i stored
      exact ⟨_, Graph.replay_cons_eq_ok_iff.mpr ⟨stored, Graph.replay_nil⟩⟩
    · exact ⟨_, Graph.replay_nil⟩
  | entity path =>
    simp only [changes]
    split
    · rename_i allowed
      have stored : draft.tx.working.entities.contains path := (Bool.and_eq_true_iff.mp allowed).1
      rw [removals_eq wellFormed]
      exact wellFormed.replay_removals stored
    · exact ⟨_, Graph.replay_nil⟩

/-- Only a change on its own can be refused. -/
theorem replay_changes_or_single (act : Act) (wellFormed : draft.tx.working.WellFormed) :
    (∃ next, draft.tx.working.replay (act.changes draft) = .ok next) ∨
      ∃ change, act.changes draft = [change] := by
  have blank : ∃ next, draft.tx.working.replay [] = .ok next := ⟨_, Graph.replay_nil⟩
  cases act with
  | read reading | draw => exact .inl blank
  | persist path blueprint =>
    simp only [changes]
    split
    · exact .inr ⟨_, rfl⟩
    · exact .inl blank
  | relate source target name properties =>
    cases source with
    | relationship id => exact .inl blank
    | entity source =>
      cases target with
      | relationship id => exact .inl blank
      | entity target => exact .inr ⟨_, rfl⟩
  | update handle revision =>
    simp only [changes]
    split
    · exact .inr ⟨_, rfl⟩
    · exact .inl blank
  | delete handle => exact .inl (replay_delete wellFormed)

theorem perform_of_replay {graph : Graph} (something : act.changes draft ≠ [])
    (access : draft.tx.access = .readWrite)
    (replayed : draft.tx.working.replay (act.changes draft) = .ok graph) :
    act.body.perform draft =
      (.ok (), { tx := { draft.tx with working := graph, log := draft.tx.log ++ act.changes draft },
                 ids := drawn draft.ids act }) := by
  rw [(act.settles draft).busy something]
  exact Drafting.perform_writeAll_of_replay access replayed

theorem changes_eq_nil (idle : ¬act.writes) : act.changes draft = [] := by
  cases act with
  | read reading | draw => rfl
  | persist path blueprint | relate source target name properties | update handle revision
  | delete handle =>
    exact absurd rfl idle

theorem changes_ne_nil (writes : act.writes) (succeeds : act.succeeds draft) :
    act.changes draft ≠ [] := by
  intro nothing
  exact ((act.settles draft).idle nothing).2 writes succeeds

/-- An act that succeeds writes all it set out to write, and one that fails writes nothing. -/
theorem written_eq (act : Act) (wellFormed : draft.tx.working.WellFormed) :
    act.written draft = if act.succeeds draft then act.changes draft else [] := by
  obtain ⟨begun, wrote⟩ := act.run_wrote draft
  by_cases nothing : act.changes draft = []
  · rw [nothing] at begun ⊢
    simpa using begun
  have performed := (act.settles draft).busy nothing
  split
  · rename_i succeeds
    rcases outcome : act.body.perform draft with ⟨error | _, later⟩
    · simp [Act.succeeds, outcome, Except.isOk, Except.toBool] at succeeds
    · have whole := Drafting.wrote_of_writeAll (performed.symm.trans outcome)
      simp [written, run, outcome, whole.log]
  · rename_i fails
    cases access : draft.tx.access with
    | readOnly => exact wrote.mutating access
    | readWrite =>
      have unreplayed {graph : Graph} : draft.tx.working.replay (act.changes draft) ≠
          .ok graph := by
        intro replayed
        simp [Act.succeeds, perform_of_replay nothing access replayed, Except.isOk, Except.toBool]
          at fails
      rcases act.replay_changes_or_single wellFormed with ⟨next, replayed⟩ | ⟨change, single⟩
      · exact absurd replayed unreplayed
      · have replayed := wrote.replayed
        rw [single] at begun unreplayed
        rcases List.prefix_cons_iff.mp begun with none | ⟨rest, whole, ends⟩
        · exact none
        · rw [whole, List.prefix_nil.mp ends] at replayed
          exact absurd replayed unreplayed

end Act

/-- A write that succeeded: the act, and the draft it was performed on. -/
structure Success where
  act : Act
  draft : Draft

namespace Success

def written (success : Success) : List Change := success.act.written success.draft

/-- A success on a sound graph, which wrote all it set out to write, and something. -/
structure Known (registry : Registry) (success : Success) : Prop where
  sound : registry.Sound success.draft.tx.working
  whole : success.written = success.act.changes success.draft
  something : success.act.changes success.draft ≠ []

theorem Known.extend {success : Success} {next : Registry} (known : success.Known registry)
    (more : registry.Extends next) : success.Known next :=
  ⟨known.sound.extend more, known.whole, known.something⟩

end Success

namespace Traffic

/-- The writes of a transaction that succeed in a call. -/
def succeeded (traffic : Traffic) (number : Nat) : Call → List Success
  | .act acting act =>
    match traffic.underway.find? acting with
    | some tx =>
      let draft : Draft := ⟨tx, traffic.ids⟩
      if acting = number ∧ act.writes ∧ act.succeeds draft then [⟨act, draft⟩] else []
    | none => []
  | _ => []

/-- The writes of a transaction that succeed in calls, in order. -/
def successes (traffic : Traffic) (number : Nat) : List Call → List Success
  | [] => []
  | call :: rest => traffic.succeeded number call ++ (traffic.step call).successes number rest

/-- How the writes of a transaction that have succeeded stand to its log, and to a registry. -/
structure Recorded (registry : Registry) (traffic : Traffic) (number : Nat) (done : List Success) :
    Prop where
  logged : ∀ {tx}, traffic.underway.find? number = some tx → tx.log = done.flatMap Success.written
  known : ∀ success ∈ done, success.Known registry
  /-- a transaction that is still to begin has done nothing -/
  unbegun : traffic.store.begun < number → done = []

theorem recorded_start (ids : IdSource) (number : Nat) :
    (start ids).Recorded (fun _ => none) number [] where
  logged present := nomatch present
  known _ member := nomatch member
  unbegun _ := rfl

namespace Recorded

variable {next : Registry} {done : List Success}

theorem extend (recorded : traffic.Recorded registry number done) (more : registry.Extends next) :
    traffic.Recorded next number done where
  logged := recorded.logged
  known success member := (recorded.known success member).extend more
  unbegun := recorded.unbegun

theorem begin (recorded : traffic.Recorded registry number done) (access : Access) :
    (traffic.step (.begin access)).Recorded registry number done where
  logged {tx} present := by
    rw [underway_begin] at present
    split at present
    · rename_i new
      obtain rfl := Option.some.inj present
      rw [recorded.unbegun (by omega)]
      rfl
    · exact recorded.logged present
  known := recorded.known
  unbegun later := by
    apply recorded.unbegun
    exact Nat.lt_of_succ_lt later

/-- An act of the transaction logs what it writes, and it writes something if it is a write that
succeeds. -/
theorem acted (recorded : traffic.Recorded registry number done)
    (consistent : traffic.Consistent registry) (present : traffic.underway.find? number = some tx)
    (act : Act) :
    (traffic.step (.act number act)).Recorded registry number
      (done ++ traffic.succeeded number (.act number act)) := by
  have sound : registry.Sound tx.working := consistent.working present
  have written := @Act.written_eq ⟨tx, traffic.ids⟩ act sound.toWellFormed
  have kept : (traffic.step (.act number act)).store = traffic.store := by
    simp [Traffic.step, present]
  have new : ∀ success ∈ traffic.succeeded number (.act number act),
      success = ⟨act, ⟨tx, traffic.ids⟩⟩ ∧ act.writes ∧ act.succeeds ⟨tx, traffic.ids⟩ := by
    intro success member
    simp only [succeeded, present, true_and] at member
    split at member
    · rename_i succeeds
      exact ⟨List.mem_singleton.mp member, succeeds⟩
    · cases member
  constructor
  · intro next found
    rw [underway_act present, if_pos rfl] at found
    obtain rfl := Option.some.inj found
    have wrote := (act.run_wrote ⟨tx, traffic.ids⟩).2.log
    rw [wrote, recorded.logged present, List.flatMap_append]
    congr 1
    simp only [succeeded, present, true_and]
    by_cases writes : act.writes
    · by_cases succeeds : act.succeeds ⟨tx, traffic.ids⟩
      · simp [writes, succeeds, Success.written]
      · simp [written, succeeds]
    · simp [written, writes, Act.changes_eq_nil writes]
  · intro success member
    rcases List.mem_append.mp member with earlier | own
    · exact recorded.known success earlier
    · obtain ⟨rfl, writes, succeeds⟩ := new success own
      refine ⟨sound, ?_, Act.changes_ne_nil writes succeeds⟩
      rw [Success.written, written, if_pos succeeds]
  · intro later
    have begun := consistent.numbered present
    rw [kept] at later
    omega

theorem passed (recorded : traffic.Recorded registry number done) {call : Call}
    (left : ∀ tx, (traffic.step call).underway.find? number = some tx →
      traffic.underway.find? number = some tx) :
    (traffic.step call).Recorded registry number done where
  logged present := recorded.logged (left _ present)
  known := recorded.known
  unbegun later := recorded.unbegun (Nat.lt_of_le_of_lt (traffic.begun_le_step call) later)

theorem step (recorded : traffic.Recorded registry number done)
    (consistent : traffic.Consistent registry) (call : Call) :
    (traffic.step call).Recorded registry number (done ++ traffic.succeeded number call) := by
  cases call with
  | begin access =>
    simp only [succeeded, List.append_nil]
    exact recorded.begin access
  | act acting act =>
    cases present : traffic.underway.find? acting with
    | none =>
      simp only [succeeded, present, List.append_nil, Traffic.step]
      exact recorded
    | some tx =>
      by_cases own : acting = number
      · subst own
        exact recorded.acted consistent present act
      · simp only [succeeded, present, own, false_and, ↓reduceIte, List.append_nil]
        apply recorded.passed
        intro next found
        rwa [underway_act present, if_neg (Ne.symm own)] at found
  | commit ended =>
    simp only [succeeded, List.append_nil]
    apply recorded.passed
    intro next found
    rw [underway_commit] at found
    split at found
    · cases found
    · exact found
  | rollback ended =>
    simp only [succeeded, List.append_nil]
    apply recorded.passed
    intro next found
    rw [underway_rollback] at found
    split at found
    · cases found
    · exact found

end Recorded

/-- After any calls, logs are what the successes of their transactions wrote. -/
theorem recorded_run (ids : IdSource) (number : Nat) (calls : List Call)
    (distinct : ((start ids).related calls).Nodup) :
    ∃ registry, ((start ids).run calls).Consistent registry ∧
      ((start ids).run calls).Recorded registry number ((start ids).successes number calls) := by
  let holds (registry : Registry) (traffic : Traffic) (rest : List Call) : Prop :=
    ∃ done, traffic.Recorded registry number done ∧
      done ++ traffic.successes number rest = (start ids).successes number calls
  have keeps {registry : Registry} {traffic : Traffic} {call : Call} {rest : List Call}
      (consistent : traffic.Consistent registry) (held : holds registry traffic (call :: rest))
      (more : registry.Extends (noted registry traffic call)) :
      holds (noted registry traffic call) (traffic.step call) rest := by
    obtain ⟨done, recorded, same⟩ := held
    refine ⟨done ++ traffic.succeeded number call, (recorded.step consistent call).extend more, ?_⟩
    rw [List.append_assoc]
    exact same
  obtain ⟨registry, -, consistent, ⟨done, recorded, same⟩, -⟩ :=
    (consistent_start ids).run_keeping holds keeps (faithful_run ids []) calls
      ⟨[], recorded_start ids number, rfl⟩ distinct
      fun id new => rfl
  rw [successes, List.append_nil] at same
  rw [same] at recorded
  exact ⟨registry, consistent, recorded⟩

end Traffic

end Estate
