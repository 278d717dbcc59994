import Estate.Proofs.Store.Acts

namespace Estate

/-- What can be asked of a store. Transactions go by their numbers. -/
inductive Call where
  | begin (access : Access)
  | act (number : Nat) (act : Act)
  | commit (number : Nat)
  | rollback (number : Nat)

/-- A store, the source of ids, and the transactions under way. -/
structure Traffic where
  store : Store
  ids : IdSource
  underway : Table Nat Transaction := ∅

namespace Traffic

/-- Nothing stored and nothing under way. -/
def start (ids : IdSource) : Traffic := { store := .empty, ids }

def settled (store : Store) (tx : Transaction) : Store :=
  match store.commit tx with
  | .ok next => next
  | .error _ => store

/-- What a call leaves. One that names no transaction under way changes nothing. -/
def step (traffic : Traffic) : Call → Traffic
  | .begin access =>
    let (tx, store) := traffic.store.begin access
    { traffic with store, underway := traffic.underway.insert tx.number tx }
  | .act number act =>
    match traffic.underway.find? number with
    | some tx =>
      let draft := act.run { tx, ids := traffic.ids }
      { traffic with ids := draft.ids, underway := traffic.underway.insert number draft.tx }
    | none => traffic
  | .commit number =>
    match traffic.underway.find? number with
    | some tx =>
      { traffic with store := settled traffic.store tx, underway := traffic.underway.erase number }
    | none => traffic
  | .rollback number => { traffic with underway := traffic.underway.erase number }

def run (traffic : Traffic) (calls : List Call) : Traffic := calls.foldl step traffic

variable {traffic : Traffic}

theorem run_cons (traffic : Traffic) (call : Call) (rest : List Call) :
    traffic.run (call :: rest) = (traffic.step call).run rest := rfl

theorem run_append (traffic : Traffic) (calls rest : List Call) :
    traffic.run (calls ++ rest) = (traffic.run calls).run rest := List.foldl_append

theorem run_concat (traffic : Traffic) (calls : List Call) (call : Call) :
    traffic.run (calls ++ [call]) = (traffic.run calls).step call := run_append traffic calls [call]

variable {number other : Nat} {tx : Transaction}

theorem underway_begin (traffic : Traffic) (access : Access) (other : Nat) :
    (traffic.step (.begin access)).underway.find? other =
      if other = traffic.store.begun + 1 then some (traffic.store.begin access).1
      else traffic.underway.find? other := by
  simp [step, Store.begin]

theorem underway_act (present : traffic.underway.find? number = some tx) (act : Act) (other : Nat) :
    (traffic.step (.act number act)).underway.find? other =
      if other = number then some (act.run { tx, ids := traffic.ids }).tx
        else traffic.underway.find? other := by
  simp [step, present]

theorem underway_commit (traffic : Traffic) (number other : Nat) :
    (traffic.step (.commit number)).underway.find? other =
      if other = number then none else traffic.underway.find? other := by
  cases present : traffic.underway.find? number with
  | none =>
    simp only [step, present]
    split <;> simp_all
  | some tx => simp [step, present]

theorem store_commit {store : Store} (present : traffic.underway.find? number = some tx)
    (success : traffic.store.commit tx = .ok store) :
    (traffic.step (.commit number)).store = store := by
  simp [step, present, settled, success]

theorem underway_rollback (traffic : Traffic) (number other : Nat) :
    (traffic.step (.rollback number)).underway.find? other =
      if other = number then none else traffic.underway.find? other := by
  simp [step]

theorem begun_settled (store : Store) (tx : Transaction) :
    (settled store tx).begun = store.begun := by
  unfold settled Store.commit
  split
  · rename_i next success
    split at success
    · obtain rfl := Except.ok.inj success
      rfl
    · split at success
      · obtain rfl := Except.ok.inj success
        rfl
      · split at success
        · obtain rfl := Except.ok.inj success
          rfl
        · cases success
  · rfl

theorem begun_le_step (traffic : Traffic) (call : Call) :
    traffic.store.begun ≤ (traffic.step call).store.begun := by
  cases call with
  | begin access => exact Nat.le_succ _
  | act number act | commit number =>
    simp only [step]
    split
    · simp [begun_settled]
    · exact Nat.le_refl _
  | rollback number => exact Nat.le_refl _

/-- Numbers are not given twice. -/
theorem absent_step (absent : traffic.underway.find? number = none)
    (given : number ≤ traffic.store.begun) (call : Call) :
    (traffic.step call).underway.find? number = none := by
  cases call with
  | begin access =>
    rw [underway_begin, if_neg (by omega)]
    exact absent
  | act acting act =>
    cases present : traffic.underway.find? acting with
    | none => simpa only [step, present] using absent
    | some tx =>
      have apart : number ≠ acting := by
        rintro rfl
        simp [absent] at present
      rw [underway_act present, if_neg apart]
      exact absent
  | commit done =>
    rw [underway_commit]
    split
    · rfl
    · exact absent
  | rollback done =>
    rw [underway_rollback]
    split
    · rfl
    · exact absent

theorem absent_run (absent : traffic.underway.find? number = none)
    (given : number ≤ traffic.store.begun) (calls : List Call) :
    (traffic.run calls).underway.find? number = none := by
  induction calls generalizing traffic with
  | nil => exact absent
  | cons call rest ih =>
    exact ih (absent_step absent given call) (Nat.le_trans given (begun_le_step traffic call))

/-- What holds at the start and is kept by every call holds after any calls. -/
theorem run_induction {holds : Traffic → Prop} (start : holds traffic)
    (step : ∀ traffic call, holds traffic → holds (traffic.step call)) (calls : List Call) :
    holds (traffic.run calls) := by
  induction calls generalizing traffic with
  | nil => exact start
  | cons call rest ih => exact ih (step traffic call start)

end Traffic

end Estate
