import Estate.Proofs.Store.Consistency
import Estate.Proofs.View.Effects

/-!
An office: mutations of one inventory under way at the same time. Each begins on what is committed
then, runs its body there, and is settled whenever its turn comes; others may do any of this in
between. An office comes to traffic on the store of its inventory.
-/
namespace Estate

inductive Stage where
  | begun (offer : Offer)
  | drafted (outcome : Except Error (Announced Unit))

/-- The transactions under way, and the mutations they are for, go by the numbers of the
transactions. -/
structure Office where
  inventory : Inventory Empty
  underway : Table Nat Transaction := ∅
  stages : Table Nat Stage := ∅

namespace Office

inductive Step where
  | begin (offer : Offer)
  | draft (number : Nat)
  | settle (number : Nat)

/-- Nobody observes: what observers would do, they can do in steps of their own. -/
def engine : Engine (Inventory Empty) := Inventory.engine fun observer => nomatch observer

def start (settings : Settings) (ids : IdSource) : Office := { inventory := { settings, ids } }

/-- What a step leaves. One that is not due changes nothing. -/
def step (office : Office) : Step → Office
  | .begin offer =>
    let (tx, inventory) := (engine.begin .readWrite).run office.inventory
    { inventory
      underway := office.underway.insert tx.number tx
      stages := office.stages.insert tx.number (.begun offer) }
  | .draft number =>
    match office.underway.find? number, office.stages.find? number with
    | some tx, some (.begun offer) =>
      let body := offer.1.body office.inventory.settings
      let ((outcome, tx), inventory) := (engine.draft tx body).run office.inventory
      { inventory
        underway := office.underway.insert number tx
        stages := office.stages.insert number (.drafted outcome) }
    | _, _ => office
  | .settle number =>
    match office.underway.find? number, office.stages.find? number with
    | some tx, some (.drafted outcome) =>
      let (_, inventory) := (engine.settle tx outcome).run office.inventory
      { inventory, underway := office.underway.erase number, stages := office.stages.erase number }
    | _, _ => office

def run (office : Office) (steps : List Step) : Office := steps.foldl step office

/-- What a step writes. -/
def written (office : Office) : Step → List Change
  | .draft number =>
    match office.underway.find? number, (office.step (.draft number)).underway.find? number with
    | some before, some after => after.log.drop before.log.length
    | _, _ => []
  | _ => []

/-- The ids under which steps relate entities, in order. -/
def related (office : Office) : List Step → List String
  | [] => []
  | step :: rest => Change.inserted (office.written step) ++ (office.step step).related rest

/-- The store of an office, as what is asked of it sees it. -/
def traffic (office : Office) : Traffic :=
  { store := office.inventory.store, ids := office.inventory.ids, underway := office.underway }

variable {office : Office} {step : Step}

theorem publish_eq (notices : List Notice) (inventory : Inventory Empty) :
    ((engine.publish notices).run inventory).2 = inventory := by
  have silent (audience : List (Subscription Empty)) : audience = [] := by
    cases audience with
    | nil => rfl
    | cons subscription rest => exact nomatch subscription.observer
  show notices.foldl _ inventory = inventory
  induction notices with
  | nil => rfl
  | cons notice rest ih =>
    rw [List.foldl_cons, silent (Notifier.audience _ _)]
    exact ih

def ended (store : Store) (tx : Transaction) : Except Error (Announced Unit) → Store
  | .ok _ => Traffic.settled store tx
  | .error _ => store

theorem commit_eq (tx : Transaction) (inventory : Inventory Empty) :
    (engine.commit tx).run inventory =
      ((inventory.store.commit tx).map fun _ => (),
        { inventory with store := Traffic.settled inventory.store tx }) := by
  simp only [engine, Inventory.engine, Inventory.commit, modifyGet, MonadStateOf.modifyGet,
    StateT.modifyGet, StateT.run, Traffic.settled]
  cases inventory.store.commit tx <;> rfl

/-- A reading sees what is committed, and committing it cannot fail. -/
theorem outcome_read {α : Type} (reading : Reading α) (inventory : Inventory Empty) :
    ((engine.read reading).run inventory).1 = reading (inventory.store.begin .readOnly).1 := by
  have began : (engine.begin .readOnly).run inventory =
      pure ((inventory.store.begin .readOnly).1,
      { inventory with store := (inventory.store.begin .readOnly).2 }) := rfl
  simp only [Engine.read, StateT.run_bind, began, pure_bind]
  cases outcome : reading (inventory.store.begin .readOnly).1 with
  | error error => rfl
  | ok value => rfl

/-- Publishing to nobody and rolling back leave the inventory alone. -/
theorem settle_eq (tx : Transaction) (outcome : Except Error (Announced Unit))
    (inventory : Inventory Empty) :
    ((engine.settle tx outcome).run inventory).2 =
    { inventory with store := ended inventory.store tx outcome } := by
  cases outcome with
  | error error => rfl
  | ok result =>
    simp only [Engine.settle, StateT.run_bind, commit_eq, ended]
    cases inventory.store.commit tx with
    | error error => rfl
    | ok store => exact publish_eq result.notices _

theorem step_draft {number : Nat} {tx : Transaction} {offer : Offer}
    {outcome : Except Error (Announced Unit)} {later : Draft}
    (present : office.underway.find? number = some tx)
    (begun : office.stages.find? number = some (.begun offer))
    (performed : (offer.1.body office.inventory.settings).perform ⟨tx, office.inventory.ids⟩ =
      (outcome, later)) :
    office.step (.draft number) =
      { inventory := { office.inventory with ids := later.ids }
        underway := office.underway.insert number later.tx
        stages := office.stages.insert number (.drafted outcome) } := by
  have ran : (engine.draft tx (offer.1.body office.inventory.settings)).run office.inventory =
      ((outcome, later.tx), { office.inventory with ids := later.ids }) := by
    have drafted : (engine.draft tx (offer.1.body office.inventory.settings)).run office.inventory =
        (let (outcome, later) := (offer.1.body office.inventory.settings).perform
          ⟨tx, office.inventory.ids⟩
         ((outcome, later.tx), { office.inventory with ids := later.ids })) := rfl
    rw [drafted, performed]
  simp only [Office.step, present, begun, ran]

theorem written_draft {number : Nat} {tx : Transaction} {offer : Offer}
    {outcome : Except Error (Announced Unit)} {later : Draft}
    (present : office.underway.find? number = some tx)
    (begun : office.stages.find? number = some (.begun offer))
    (performed : (offer.1.body office.inventory.settings).perform ⟨tx, office.inventory.ids⟩ =
      (outcome, later)) :
    office.written (.draft number) = later.tx.log.drop tx.log.length := by
  simp [written, step_draft present begun performed, present]

theorem step_settle {number : Nat} {tx : Transaction} {outcome : Except Error (Announced Unit)}
    (present : office.underway.find? number = some tx)
    (drafted : office.stages.find? number = some (.drafted outcome)) :
    office.step (.settle number) =
      { inventory := { office.inventory with store := ended office.inventory.store tx outcome }
        underway := office.underway.erase number
        stages := office.stages.erase number } := by
  simp only [Office.step, present, drafted]
  rw [← settle_eq]
  rfl

theorem step_settle_undue {number : Nat}
    (undue : ¬∃ tx outcome, office.underway.find? number = some tx ∧
      office.stages.find? number = some (.drafted outcome)) : office.step (.settle number) =
        office := by
  simp only [Office.step]
  split
  · rename_i tx outcome present drafted
    exact absurd ⟨tx, outcome, present, drafted⟩ undue
  · rfl

theorem step_cases (office : Office) (step : Step) :
    office.step step = office ∨
    (∃ offer, step = .begin offer ∧
      office.step step =
        { inventory := { office.inventory with store := (office.inventory.store.begin .readWrite).2
          }
          underway :=
            office.underway.insert (office.inventory.store.begun + 1)
              (office.inventory.store.begin .readWrite).1
          stages := office.stages.insert (office.inventory.store.begun + 1) (.begun offer) }) ∨
    (∃ number tx offer outcome later, step = .draft number ∧
      office.underway.find? number = some tx ∧
      office.stages.find? number = some (.begun offer) ∧
      (offer.1.body office.inventory.settings).perform ⟨tx, office.inventory.ids⟩ =
        (outcome, later) ∧
      office.step step =
        { inventory := { office.inventory with ids := later.ids }
          underway := office.underway.insert number later.tx
          stages := office.stages.insert number (.drafted outcome) }) ∨
    ∃ number tx outcome, step = .settle number ∧ office.underway.find? number = some tx ∧
      office.stages.find? number = some (.drafted outcome) ∧
      office.step step =
        { inventory := { office.inventory with store := ended office.inventory.store tx outcome }
          underway := office.underway.erase number
          stages := office.stages.erase number } := by
  cases step with
  | begin offer => exact .inr (.inl ⟨offer, rfl, rfl⟩)
  | draft number =>
    simp only [Office.step]
    split
    · rename_i tx offer present begun
      exact .inr (.inr (.inl ⟨number, tx, offer, _, _, rfl, present, begun, rfl, rfl⟩))
    · exact .inl rfl
  | settle number =>
    by_cases due : ∃ tx outcome, office.underway.find? number = some tx ∧
        office.stages.find? number = some (.drafted outcome)
    · obtain ⟨tx, outcome, present, drafted⟩ := due
      exact .inr (.inr (.inr ⟨number, tx, outcome, rfl, present, drafted,
        step_settle present drafted⟩))
    · exact .inl (step_settle_undue due)

/-- What holds of every mutation under its number still does after a step, if it holds of one that
begins and of what a body leaves. -/
theorem numbered_step (holds : Nat → Transaction → Stage → Prop)
    (standing : ∀ {number tx stage}, office.underway.find? number = some tx →
      office.stages.find? number = some stage → holds number tx stage)
    (begins : ∀ offer, step = .begin offer →
      holds (office.inventory.store.begun + 1) (office.inventory.store.begin .readWrite).1
        (.begun offer))
    (drafts : ∀ {number tx offer outcome later}, step = .draft number →
      office.underway.find? number = some tx →
      office.stages.find? number = some (.begun offer) →
      (offer.1.body office.inventory.settings).perform ⟨tx, office.inventory.ids⟩ =
        (outcome, later) →
      holds number later.tx (.drafted outcome))
    {number : Nat} {tx : Transaction} {stage : Stage}
    (present : (office.step step).underway.find? number = some tx)
    (reached : (office.step step).stages.find? number = some stage) : holds number tx stage := by
  rcases office.step_cases step with same | ⟨offer, begun, stepped⟩ |
    ⟨own, earlier, offer, outcome, later, drafted, started, begun, performed, stepped⟩ |
    ⟨own, earlier, outcome, -, -, -, stepped⟩
  · rw [same] at present reached
    exact standing present reached
  · simp only [stepped, Table.find?_insert, Nat.compare_eq_eq] at present reached
    split at present
    · rename_i here
      rw [if_pos here] at reached
      obtain rfl := Option.some.inj present
      obtain rfl := Option.some.inj reached
      exact here ▸ begins offer begun
    · rename_i other
      rw [if_neg other] at reached
      exact standing present reached
  · simp only [stepped, Table.find?_insert, Nat.compare_eq_eq] at present reached
    split at present
    · rename_i here
      rw [if_pos here] at reached
      obtain rfl := Option.some.inj present
      obtain rfl := Option.some.inj reached
      exact here ▸ drafts drafted started begun performed
    · rename_i other
      rw [if_neg other] at reached
      exact standing present reached
  · simp only [stepped, Table.find?_erase, Nat.compare_eq_eq] at present reached
    split at present
    · cases present
    · rename_i other
      rw [if_neg other] at reached
      exact standing present reached

/-- The same of what holds whatever the number. -/
theorem standing_step (holds : Transaction → Stage → Prop)
    (standing : ∀ {number tx stage}, office.underway.find? number = some tx →
      office.stages.find? number = some stage → holds tx stage)
    (begins : ∀ offer, holds (office.inventory.store.begin .readWrite).1 (.begun offer))
    (drafts : ∀ {number tx offer outcome later}, step = .draft number →
      office.underway.find? number = some tx →
      office.stages.find? number = some (.begun offer) →
      (offer.1.body office.inventory.settings).perform ⟨tx, office.inventory.ids⟩ =
        (outcome, later) →
      holds later.tx (.drafted outcome))
    {number : Nat} {tx : Transaction} {stage : Stage}
    (present : (office.step step).underway.find? number = some tx)
    (reached : (office.step step).stages.find? number = some stage) : holds tx stage :=
  numbered_step (fun _ => holds) standing (fun offer _ => begins offer) drafts present reached

/-- A step that changes nothing writes nothing. -/
theorem written_eq_nil (same : office.step step = office) : office.written step = [] := by
  cases step with
  | begin offer | settle number => rfl
  | draft number =>
    simp only [written, same]
    cases office.underway.find? number with
    | none => rfl
    | some tx => exact List.drop_length

/-- A step comes to calls on the store, which write what the step writes. -/
theorem traffic_step (office : Office) (step : Step) :
    ∃ calls, (office.step step).traffic = office.traffic.run calls ∧
      office.traffic.related calls = Change.inserted (office.written step) := by
  rcases office.step_cases step with same | ⟨offer, rfl, -⟩ |
    ⟨number, tx, offer, outcome, later, rfl, present, begun, performed, stepped⟩ |
    ⟨number, tx, outcome, rfl, present, drafted, stepped⟩
  · refine ⟨[], ?_, ?_⟩
    · rw [same]
      rfl
    · rw [written_eq_nil same]
      rfl
  · exact ⟨[.begin .readWrite], rfl, rfl⟩
  · obtain ⟨acts, acted⟩ := offer.1.composed office.inventory.settings ⟨tx, office.inventory.ids⟩
    obtain ⟨ran, related⟩ := @Traffic.run_acts office.traffic tx number present acts
    have same : Act.runAll acts ⟨tx, office.traffic.ids⟩ = later := by
      rw [performed] at acted
      exact acted.symm
    rw [same] at ran related
    refine ⟨acts.map (.act number), ?_, ?_⟩
    · rw [ran, stepped]
      rfl
    · rw [related, written_draft present begun performed]
  · cases outcome with
    | ok result =>
      refine ⟨[.commit number], ?_, rfl⟩
      rw [stepped]
      simp [Traffic.run, Traffic.step, traffic, present, ended]
    | error error =>
      refine ⟨[.rollback number], ?_, rfl⟩
      rw [stepped]
      rfl

end Office

end Estate
