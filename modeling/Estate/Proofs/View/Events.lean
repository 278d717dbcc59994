import Estate.Proofs.View.Ledger

namespace Estate.Office

inductive Event where
  | step (step : Step)
  /-- a reading begins -/
  | read

def reading (office : Office) : Office :=
  { office with inventory := ((engine.begin .readOnly).run office.inventory).2 }

def undergo (office : Office) : Event → Office
  | .step step => office.step step
  | .read => office.reading

def undergoAll (office : Office) (events : List Event) : Office := events.foldl undergo office

def trace {α : Type} (seen : Office → Event → List α) (office : Office) : List Event → List α
  | [] => []
  | event :: rest => seen office event ++ (office.undergo event).trace seen rest

def drawn (office : Office) : Event → List String
  | .step step => Change.inserted (office.written step)
  | .read => []

def response? (office : Office) : Event → Option (Except Error Unit × List Notice)
  | .step step => office.answer? step
  | .read => none

variable {α : Type} {seen : Office → Event → List α} {office : Office} {registry : Registry}

theorem undergoAll_append (office : Office) (events rest : List Event) :
    office.undergoAll (events ++ rest) = (office.undergoAll events).undergoAll rest :=
  List.foldl_append

theorem undergoAll_concat (office : Office) (events : List Event) (event : Event) :
    office.undergoAll (events ++ [event]) = (office.undergoAll events).undergo event := by
  rw [undergoAll_append]
  rfl

theorem trace_append (office : Office) (events rest : List Event) :
    office.trace seen (events ++ rest) = office.trace seen events ++
      (office.undergoAll events).trace seen rest := by
  induction events generalizing office with
  | nil => rfl
  | cons event events ih =>
    rw [List.cons_append, trace, trace, ih, List.append_assoc]
    rfl

theorem nodup_trace_left {events rest : List Event}
    (distinct : (office.trace seen (events ++ rest)).Nodup) :
    (office.trace seen events).Nodup := by
  rw [trace_append] at distinct
  exact (List.nodup_append.mp distinct).1

theorem trace_concat (office : Office) (events : List Event) (event : Event) :
    office.trace seen (events ++ [event]) = office.trace seen events ++
      seen (office.undergoAll events) event := by
  rw [trace_append, trace, trace, List.append_nil]

theorem settings_undergo (office : Office) (event : Event) :
    (office.undergo event).inventory.settings = office.inventory.settings := by
  cases event with
  | read => rfl
  | step step =>
    rcases office.step_cases step with same | ⟨offer, -, stepped⟩ |
      ⟨number, tx, offer, outcome, later, -, -, -, -,
        stepped⟩ | ⟨number, tx, outcome, -, -, -, stepped⟩
    · exact congrArg (·.inventory.settings) same
    all_goals exact congrArg (·.inventory.settings) stepped

namespace Kept

theorem reading (kept : office.Kept registry) : office.reading.Kept registry where
  consistent := {
    committed := kept.consistent.committed
    closed := kept.consistent.closed
    begun := fun known => Nat.le_succ_of_le (kept.consistent.begun known)
    numbered := fun present => Nat.le_succ_of_le (kept.consistent.numbered present)
    working := kept.consistent.working
    records := kept.consistent.records }
  faithful := fun number tx present =>
    let current := kept.faithful number tx present
    ⟨current.based, current.replayed, current.idle⟩
  mirrored := kept.mirrored
  logs := kept.logs

theorem undergo (kept : office.Kept registry) (event : Event)
    (distinct : (office.drawn event).Nodup)
    (fresh : ∀ id ∈ office.drawn event, registry id = none) :
    ∃ next, registry.Extends next ∧ (office.undergo event).Kept next ∧
      ∀ id, registry id = none → id ∉ office.drawn event → next id = none := by
  cases event with
  | step step => exact kept.step step distinct fresh
  | read => exact ⟨registry, .refl registry, kept.reading, fun _ unknown _ => unknown⟩

/-- An office is kept by events, as long as no id is given to two relationships; and so is whatever
an event keeps of what holds with the events still to come. -/
theorem undergoAll_keeping (holds : Registry → Office → List Event → Prop)
    (keeps : ∀ {registry office event rest next}, office.Kept registry →
      (office.undergo event).Kept next →
      holds registry office (event :: rest) → holds next (office.undergo event) rest)
    (kept : office.Kept registry) (events : List Event) (held : holds registry office events)
    (distinct : (office.trace drawn events).Nodup)
    (fresh : ∀ id ∈ office.trace drawn events, registry id = none) :
    ∃ next, (office.undergoAll events).Kept next ∧ holds next (office.undergoAll events) [] ∧
      ∀ id, registry id = none → id ∉ office.trace drawn events → next id = none := by
  induction events generalizing office registry with
  | nil => exact ⟨registry, kept, held, fun _ unknown _ => unknown⟩
  | cons event rest ih =>
    rw [trace, List.nodup_append] at distinct
    obtain ⟨next, -, undergone, others⟩ :=
      kept.undergo event distinct.1 fun id new => fresh id (List.mem_append_left _ new)
    obtain ⟨last, still, done, untouched⟩ :=
      ih undergone (keeps kept undergone held) distinct.2.1 fun id new =>
        others id (fresh id (List.mem_append_right _ new)) fun twice =>
          distinct.2.2 id twice id new rfl
    refine ⟨last, still, done, fun id unknown absent => ?_⟩
    rw [trace, List.mem_append, not_or] at absent
    exact untouched id (others id unknown absent.1) absent.2

theorem undergoAll (kept : office.Kept registry) (events : List Event)
    (distinct : (office.trace drawn events).Nodup)
    (fresh : ∀ id ∈ office.trace drawn events, registry id = none) :
    ∃ next, (office.undergoAll events).Kept next ∧
      ∀ id, registry id = none → id ∉ office.trace drawn events → next id = none := by
  obtain ⟨next, still, -, others⟩ :=
    undergoAll_keeping (fun _ _ _ => True) (fun _ _ _ => trivial) kept events trivial distinct fresh
  exact ⟨next, still, others⟩

end Kept

def heard (office : Office) (event : Event) : List Notice :=
  ((office.response? event).map (·.2)).getD []

theorem Told.undergo {notices : List Notice} (told : office.Told notices)
    (kept : office.Kept registry) (event : Event) :
    (office.undergo event).Told (notices ++ office.heard event) := by
  cases event with
  | step step => exact told.step kept step
  | read =>
    rw [show office.heard .read = [] from rfl, List.append_nil]
    exact ⟨told.done, told.ledger⟩

end Estate.Office
