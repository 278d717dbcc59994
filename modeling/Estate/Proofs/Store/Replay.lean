import Estate.Proofs.Store.Traffic

/-!
What is committed is what the winners wrote. A working graph is its snapshot with the log replayed
on it, and equal versions mean equal snapshots; so a commit that installs its working graph and one
that replays its log come to the same, and the committed graph replays the logs of the transactions
whose commits succeeded.
-/
namespace Estate

/-- How a transaction stands to the store it may be committed to. -/
structure Transaction.Current (tx : Transaction) (store : Store) : Prop where
  based : tx.baseVersion ≤ store.version
  replayed : tx.baseVersion = store.version → store.committed.replay tx.log = .ok tx.working
  idle : tx.access = .readOnly → tx.log = []

namespace Store

variable {store next : Store} {tx : Transaction}

def advance (store : Store) (graph : Graph) : Store :=
  { store with committed := graph, version := store.version + 1 }

theorem commit_idle (idle : tx.log = []) : store.commit tx = .ok store := by
  simp [commit, idle]

/-- Whether a commit installs the working graph or replays the log makes no difference. -/
theorem commit_eq_replay (current : tx.Current store) (wrote : tx.log ≠ []) :
    store.commit tx =
      match store.committed.replay tx.log with
      | .ok graph => .ok (store.advance graph)
      | .error why => .error (.conflict why) := by
  by_cases same : store.version = tx.baseVersion
  · simp [commit, wrote, same, current.replayed same.symm, advance]
  · cases replayed : store.committed.replay tx.log <;> simp [commit, wrote, same, replayed, advance]

theorem commit_eq_ok_iff (current : tx.Current store) :
    store.commit tx = .ok next ↔
      tx.log = [] ∧ next = store ∨
        tx.log ≠ [] ∧ ∃ graph, store.committed.replay tx.log = .ok graph ∧
        next = store.advance graph := by
  by_cases idle : tx.log = []
  · simp [commit_idle idle, idle, eq_comm]
  · rw [commit_eq_replay current idle]
    cases store.committed.replay tx.log with
    | ok graph => simp [idle, eq_comm]
    | error why => simp [idle]

theorem replay_of_commit (current : tx.Current store) (committed : store.commit tx = .ok next) :
    store.committed.replay tx.log = .ok next.committed := by
  rcases (commit_eq_ok_iff current).mp committed with ⟨idle, rfl⟩ | ⟨-, graph, replayed, rfl⟩
  · rw [idle]
    rfl
  · exact replayed

end Store

theorem Transaction.Current.of_begin (store : Store) (access : Access) :
    (store.begin access).1.Current (store.begin access).2 where
  based := Nat.le_refl _
  replayed _ := rfl
  idle _ := rfl

theorem Transaction.Current.of_wrote {tx next : Transaction} {store : Store} {written : List Change}
    (current : tx.Current store) (wrote : tx.Wrote next written) : next.Current store where
  based := wrote.baseVersion ▸ current.based
  replayed same := by
    rw [wrote.log, Graph.replay_append_eq_ok_iff]
    exact ⟨tx.working, current.replayed (wrote.baseVersion ▸ same), wrote.replayed⟩
  idle access := by
    rw [wrote.access] at access
    rw [wrote.log, current.idle access, wrote.mutating access, List.nil_append]

/-- Once the version has moved on, nothing is asked of the snapshot any more. -/
theorem Transaction.Current.advance {tx : Transaction} {store : Store} (current : tx.Current store)
    (graph : Graph) :
    tx.Current (store.advance graph) where
  based := Nat.le_succ_of_le current.based
  replayed same := absurd (same ▸ current.based) (Nat.not_succ_le_self _)
  idle := current.idle

namespace Traffic

variable {traffic : Traffic}

/-- Every transaction under way stands to the store as it should. -/
def Faithful (traffic : Traffic) : Prop :=
  ∀ number tx, traffic.underway.find? number = some tx → tx.Current traffic.store

/-- A commit leaves the store alone or replays the log on it, and every other transaction stands as
before. -/
theorem settled_cases {store : Store} {tx : Transaction} (current : tx.Current store) :
    settled store tx = store ∨
      ∃ graph, store.committed.replay tx.log = .ok graph ∧
        settled store tx = store.advance graph := by
  cases outcome : store.commit tx with
  | error error => exact .inl (by simp [settled, outcome])
  | ok next =>
    rcases (Store.commit_eq_ok_iff current).mp outcome with ⟨-, rfl⟩ | ⟨-, graph, replayed, rfl⟩
    · exact .inl (by simp [settled, outcome])
    · exact .inr ⟨graph, replayed, by simp [settled, outcome]⟩

theorem Faithful.step (faithful : traffic.Faithful) (call : Call) :
    (traffic.step call).Faithful := by
  intro other next found
  cases call with
  | begin access =>
    rw [underway_begin] at found
    split at found
    · obtain rfl := Option.some.inj found
      exact .of_begin traffic.store access
    · have standing := faithful other next found
      exact ⟨standing.based, standing.replayed, standing.idle⟩
  | act number act =>
    cases present : traffic.underway.find? number with
    | none =>
      simp only [Traffic.step, present] at found ⊢
      exact faithful other next found
    | some tx =>
      rw [underway_act present, Act.run_eq] at found
      have same : (traffic.step (.act number act)).store = traffic.store := by
        simp [Traffic.step, present]
      rw [same]
      split at found
      · obtain rfl := Option.some.inj found
        obtain ⟨written, -, wrote⟩ := tx.attempt_wrote (act.changes { tx, ids := traffic.ids })
        exact (faithful number tx present).of_wrote wrote
      · exact faithful other next found
  | commit number =>
    rw [underway_commit] at found
    split at found
    · cases found
    · have standing := faithful other next found
      cases present : traffic.underway.find? number with
      | none => simpa only [Traffic.step, present] using standing
      | some tx =>
        simp only [Traffic.step, present]
        rcases settled_cases (faithful number tx present) with same | ⟨graph, -, moved⟩
        · rw [same]
          exact standing
        · rw [moved]
          exact standing.advance graph
  | rollback number =>
    rw [underway_rollback] at found
    split at found
    · cases found
    · exact faithful other next found

theorem Faithful.run (faithful : traffic.Faithful) (calls : List Call) :
    (traffic.run calls).Faithful :=
  run_induction faithful (fun _ call faithful => faithful.step call) calls

theorem faithful_run (ids : IdSource) (calls : List Call) : ((start ids).run calls).Faithful :=
  @Faithful.run (start ids) (fun _ _ found => nomatch found) calls

/-- The changes a call adds to what is committed: the log of a transaction whose commit succeeds. -/
def won (traffic : Traffic) : Call → List Change
  | .commit number =>
    match traffic.underway.find? number with
    | some tx =>
      match traffic.store.commit tx with
      | .ok _ => tx.log
      | .error _ => []
    | none => []
  | _ => []

/-- The logs of all transactions whose commits succeed, one after another in the order of the
commits. -/
def winnings (traffic : Traffic) : List Call → List Change
  | [] => []
  | call :: rest => traffic.won call ++ (traffic.step call).winnings rest

theorem Faithful.replay_won (faithful : traffic.Faithful) (call : Call) :
    traffic.store.committed.replay (traffic.won call) =
      .ok (traffic.step call).store.committed := by
  cases call with
  | begin access => rfl
  | act number act =>
    simp only [won, Traffic.step]
    split <;> rfl
  | rollback number => rfl
  | commit number =>
    cases present : traffic.underway.find? number with
    | none => simp [won, Traffic.step, present, Graph.replay_nil]
    | some tx =>
      simp only [won, Traffic.step, present, settled]
      cases outcome : traffic.store.commit tx with
      | error error => rfl
      | ok next => exact Store.replay_of_commit (faithful number tx present) outcome

theorem Faithful.replay_winnings (faithful : traffic.Faithful) (calls : List Call) :
    traffic.store.committed.replay (traffic.winnings calls) =
      .ok (traffic.run calls).store.committed := by
  induction calls generalizing traffic with
  | nil => rfl
  | cons call rest ih =>
    rw [winnings, Graph.replay_append_eq_ok_iff]
    exact ⟨_, faithful.replay_won call, ih (faithful.step call)⟩

/-- At every moment the committed graph is what the winners' logs make of the empty graph. A working
graph whose snapshot is still current is what its log makes of the committed graph, so installing it
is replaying; and a transaction that wrote nothing, lost or was rolled back leaves the store as it
was. -/
theorem committed_eq_replay_of_winners (ids : IdSource) (calls : List Call) :
    let traffic := (start ids).run calls
    Graph.empty.replay ((start ids).winnings calls) = .ok traffic.store.committed ∧
      ∀ number tx, traffic.underway.find? number = some tx →
        (tx.baseVersion = traffic.store.version →
          traffic.store.committed.replay tx.log = .ok tx.working) ∧
        (tx.access = .readOnly → tx.log = []) ∧
        (tx.log = [] → (traffic.step (.commit number)).store = traffic.store) ∧
        (∀ error, traffic.store.commit tx = .error error →
          (∃ why, error = .conflict why) ∧ (traffic.step (.commit number)).store = traffic.store) ∧
        (traffic.step (.rollback number)).store = traffic.store := by
  intro traffic
  have faithful : traffic.Faithful := faithful_run ids calls
  refine ⟨?_, fun number tx present => ?_⟩
  · exact Faithful.replay_winnings (faithful_run ids []) calls
  · have current := faithful number tx present
    refine ⟨current.replayed, current.idle, fun idle => ?_, fun error lost => ⟨?_, ?_⟩, rfl⟩
    · simp [Traffic.step, present, settled, Store.commit_idle idle]
    · have wrote : tx.log ≠ [] := fun idle => by simp [Store.commit_idle idle] at lost
      rw [Store.commit_eq_replay current wrote] at lost
      cases replayed : traffic.store.committed.replay tx.log with
      | ok graph => simp [replayed] at lost
      | error why => exact ⟨why, by simpa [replayed, eq_comm] using lost⟩
    · simp [Traffic.step, present, settled, lost]

end Traffic

end Estate
