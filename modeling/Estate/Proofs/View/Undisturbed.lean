import Estate.Proofs.View.Operations
import Estate.Proofs.View.Races

/-!
Mutations that nothing else is committed beside. Others may begin, run their bodies, fail, and read
while such a mutation is under way; yet in the end it answers, commits and publishes what it would
have done alone on what was committed when it began, with the ids drawn when its body runs.
-/
namespace Estate

namespace Store

variable {store : Store} {tx : Transaction}

/-- A version never goes back, and while it stands so does what is committed. -/
theorem settled_version (store : Store) (tx : Transaction) :
    store.version ≤ (Traffic.settled store tx).version ∧
      ((Traffic.settled store tx).version = store.version →
        (Traffic.settled store tx).committed = store.committed) := by
  unfold Traffic.settled commit
  split
  · rename_i next committed
    split at committed
    · obtain rfl := Except.ok.inj committed
      exact ⟨Nat.le_refl _, fun _ => rfl⟩
    · have later : next.version = store.version + 1 := by
        split at committed
        · obtain rfl := Except.ok.inj committed
          rfl
        · split at committed
          · obtain rfl := Except.ok.inj committed
            rfl
          · cases committed
      omega
  · exact ⟨Nat.le_refl _, fun _ => rfl⟩

/-- Nothing is in the way of a transaction whose snapshot is still current. -/
theorem commit_of_version {start : Transaction} {written : List Change}
    (version : store.version = start.baseVersion) (blank : start.log = [])
    (snapshot : start.working = store.committed) (wrote : start.Wrote tx written) :
    ∃ next, store.commit tx = .ok next ∧ next.committed = tx.working := by
  have log : tx.log = written := by rw [wrote.log, blank, List.nil_append]
  unfold commit
  split
  · rename_i idle
    refine ⟨store, rfl, ?_⟩
    have same := wrote.replayed
    rw [← log, List.isEmpty_iff.mp idle, snapshot] at same
    exact Except.ok.inj same
  · rw [wrote.baseVersion, if_pos version]
    exact ⟨_, rfl, rfl⟩

end Store

/-- A mutation whose result does not matter still leaves what it leaves. -/
theorem Mutation.performed_forget {settings : Settings} {draft later : Draft}
    {outcome : Except Error (Announced Yield)} (mutation : Mutation)
    (performed : (mutation.yielding settings).perform draft = (outcome, later)) :
    (mutation.body settings).perform draft = (outcome.map (·.map fun _ => ()), later) := by
  rw [← forget_yielding, forget, Drafting.perform_bind, performed]
  cases outcome <;> rfl

namespace Aftermath

variable {α : Type} {body : Drafting (Announced α)} {store : Store} {ids : IdSource} {later : Draft}

theorem of_error {error : Error}
    (performed : body.perform ⟨(store.begin .readWrite).1, ids⟩ = (.error error, later)) :
    Aftermath.of body store ids =
      { outcome := .error error, store := (store.begin .readWrite).2, ids := later.ids } := by
  simp only [Aftermath.of, performed]

theorem of_ok {result : Announced α} {written : List Change}
    (performed : body.perform ⟨(store.begin .readWrite).1, ids⟩ = (.ok result, later))
    (wrote : (store.begin .readWrite).1.Wrote later.tx written) :
    (Aftermath.of body store ids).outcome = .ok result.value ∧
      (Aftermath.of body store ids).store.committed = later.tx.working ∧
      (Aftermath.of body store ids).published = result.notices := by
  obtain ⟨next, commits, committed⟩ :=
    @Store.commit_of_version (store.begin .readWrite).2 _ (store.begin .readWrite).1 _ rfl
      rfl rfl wrote
  simp only [Aftermath.of, performed, commits]
  exact ⟨trivial, committed, trivial⟩

end Aftermath

namespace Office

variable {office : Office} {offer : Offer} {number : Nat} {event : Event}

theorem version_undergo (office : Office) (event : Event) :
    office.inventory.store.version ≤ (office.undergo event).inventory.store.version ∧
      ((office.undergo event).inventory.store.version = office.inventory.store.version →
        (office.undergo event).inventory.store.committed = office.inventory.store.committed) := by
  have stays {later : Office} (same : later.inventory.store.version =
      office.inventory.store.version)
      (committed : later.inventory.store.committed = office.inventory.store.committed) :
      office.inventory.store.version ≤ later.inventory.store.version ∧
        (later.inventory.store.version = office.inventory.store.version →
          later.inventory.store.committed = office.inventory.store.committed) :=
    ⟨Nat.le_of_eq same.symm, fun _ => committed⟩
  cases event with
  | read => exact stays rfl rfl
  | step step =>
    simp only [undergo]
    rcases office.step_cases step with same | ⟨offer, -, stepped⟩ |
      ⟨own, tx, offer, outcome, later, -, -, -, -, stepped⟩ | ⟨own, tx, outcome, -, -, -, stepped⟩
    · rw [same]
      exact stays rfl rfl
    · rw [stepped]
      exact stays rfl rfl
    · rw [stepped]
      exact stays rfl rfl
    · rw [stepped]
      cases outcome with
      | error error => exact stays rfl rfl
      | ok result => exact Store.settled_version _ _

theorem version_undergoAll (office : Office) (events : List Event) :
    office.inventory.store.version ≤ (office.undergoAll events).inventory.store.version ∧
      ((office.undergoAll events).inventory.store.version = office.inventory.store.version →
        (office.undergoAll events).inventory.store.committed =
          office.inventory.store.committed) := by
  induction events generalizing office with
  | nil => exact ⟨Nat.le_refl _, fun _ => rfl⟩
  | cons event rest ih =>
    obtain ⟨grows, stands⟩ := office.version_undergo event
    obtain ⟨more, still⟩ := ih (office.undergo event)
    refine ⟨Nat.le_trans grows more, fun same => ?_⟩
    change ((office.undergo event).undergoAll rest).inventory.store.version = _ at same
    exact (still (Nat.le_antisymm (same ▸ grows) more)).trans
      (stands (Nat.le_antisymm (same ▸ more) grows))

theorem settings_undergoAll (office : Office) (events : List Event) :
    (office.undergoAll events).inventory.settings = office.inventory.settings := by
  induction events generalizing office with
  | nil => rfl
  | cons event rest ih => exact (ih (office.undergo event)).trans (office.settings_undergo event)

theorem begun_undergoAll (office : Office) (events : List Event) :
    office.inventory.store.begun ≤ (office.undergoAll events).inventory.store.begun := by
  induction events generalizing office with
  | nil => exact Nat.le_refl _
  | cons event rest ih =>
    exact Nat.le_trans (office.begun_undergo event) (ih (office.undergo event))

def Event.furthers? : Event → Option Nat
  | .step (.draft number) | .step (.settle number) => some number
  | .step (.begin _) | .read => none

/-- Events that neither run the body of the mutation under a number nor settle it. -/
def Bypass (number : Nat) (events : List Event) : Prop :=
  ∀ event ∈ events, event.furthers? ≠ some number

instance (number : Nat) (events : List Event) : Decidable (Bypass number events) :=
  inferInstanceAs (Decidable (∀ event ∈ events, event.furthers? ≠ some number))

/-- How far the mutation under a number has come, and its transaction. -/
def progress (office : Office) (number : Nat) : Option Transaction × Option Stage :=
  (office.underway.find? number, office.stages.find? number)

/-- Where a number is given, only its own steps get its mutation any further. -/
theorem progress_undergo (given : number ≤ office.inventory.store.begun)
    (apart : event.furthers? ≠ some number) :
    (office.undergo event).progress number = office.progress number := by
  cases event with
  | read => rfl
  | step step =>
    simp only [undergo, progress]
    rcases office.step_cases step with same | ⟨offer, -, stepped⟩ |
      ⟨own, tx, offer, outcome, later, rfl, -, -, -,
        stepped⟩ | ⟨own, tx, outcome, rfl, -, -, stepped⟩
    · rw [same]
    · have other : number ≠ office.inventory.store.begun + 1 := by omega
      simp [stepped, other]
    · have other : number ≠ own := fun same => apart (congrArg some same.symm)
      simp [stepped, other]
    · have other : number ≠ own := fun same => apart (congrArg some same.symm)
      simp [stepped, other]

theorem progress_undergoAll {events : List Event} (given : number ≤ office.inventory.store.begun)
    (apart : Bypass number events) :
    (office.undergoAll events).progress number = office.progress number := by
  induction events generalizing office with
  | nil => rfl
  | cons event rest ih =>
    obtain ⟨here, later⟩ := List.forall_mem_cons.mp apart
    have further := ih (Nat.le_trans given (office.begun_undergo event)) later
    exact further.trans (progress_undergo given here)

/-- What else happens while a mutation is under way: before its body runs, and from then on until it
is settled. -/
structure Passage where
  first : List Event
  second : List Event

def upcoming (office : Office) : Nat := office.inventory.store.begun + 1

namespace Passage

variable {passage : Passage}

def opened (passage : Passage) (office : Office) (offer : Offer) : Office :=
  (office.step (.begin offer)).undergoAll passage.first

def drafted (passage : Passage) (office : Office) (offer : Offer) : Office :=
  ((passage.opened office offer).step (.draft office.upcoming)).undergoAll passage.second

/-- All that happens from the beginning of the mutation until it is about to be settled. -/
def events (passage : Passage) (office : Office) (offer : Offer) : List Event :=
  .step (.begin offer) :: passage.first ++ .step (.draft office.upcoming) :: passage.second

theorem undergoAll_events (passage : Passage) (office : Office) (offer : Offer) :
    office.undergoAll (passage.events office offer) = passage.drafted office offer := by
  rw [events, undergoAll_append]
  rfl

/-- The mutation takes its own time, and nothing else is committed meanwhile. -/
structure Undisturbed (passage : Passage) (office : Office) (offer : Offer) : Prop where
  apart : Bypass office.upcoming (passage.first ++ passage.second)
  still : (passage.drafted office offer).inventory.store.version = office.inventory.store.version

instance (passage : Passage) (office : Office) (offer : Offer) :
    Decidable (passage.Undisturbed office offer) :=
  decidable_of_iff (Bypass office.upcoming (passage.first ++ passage.second) ∧
      (passage.drafted office offer).inventory.store.version = office.inventory.store.version)
    ⟨fun both => ⟨both.1, both.2⟩, fun undisturbed => ⟨undisturbed.apart, undisturbed.still⟩⟩

/-- What comes of the mutation by itself, on what is committed when it begins and with the ids at
hand when its body runs. -/
def aftermath (passage : Passage) (office : Office) (offer : Offer) : Aftermath Yield :=
  .of (offer.1.yielding office.inventory.settings) office.inventory.store
    (passage.opened office offer).inventory.ids

namespace Undisturbed

variable (undisturbed : passage.Undisturbed office offer)
include undisturbed

/-- By the time its body runs, the mutation stands where it began. -/
theorem opened_eq :
    let opened := passage.opened office offer
    opened.underway.find? office.upcoming = some (office.inventory.store.begin .readWrite).1 ∧
      opened.stages.find? office.upcoming = some (.begun offer) ∧
      opened.inventory.settings = office.inventory.settings := by
  intro opened
  have began : (office.step (.begin offer)).progress office.upcoming =
      (some (office.inventory.store.begin .readWrite).1, some (.begun offer)) := by
    show (Table.find? (office.underway.insert (office.inventory.store.begun + 1) _) _,
      Table.find? (office.stages.insert (office.inventory.store.begun + 1) _) _) = _
    simp [upcoming]
    rfl
  have apart : Bypass office.upcoming passage.first := fun event member =>
    undisturbed.apart event (List.mem_append_left _ member)
  have given : office.upcoming ≤ (office.step (.begin offer)).inventory.store.begun := Nat.le_refl _
  have same : opened.progress office.upcoming = _ := (progress_undergoAll given apart).trans began
  refine ⟨congrArg Prod.fst same, congrArg Prod.snd same, ?_⟩
  have settings := office.settings_undergo (.step (.begin offer))
  exact ((office.step (.begin offer)).settings_undergoAll passage.first).trans settings

/-- When it is about to be settled, it stands as its body has left it, and so does what was
committed. -/
theorem drafted_eq {outcome : Except Error (Announced Yield)} {later : Draft}
    (performed : (offer.1.yielding office.inventory.settings).perform
      ⟨(office.inventory.store.begin .readWrite).1, (passage.opened office offer).inventory.ids⟩ =
        (outcome, later)) :
    let drafted := passage.drafted office offer
    drafted.underway.find? office.upcoming = some later.tx ∧
      drafted.stages.find? office.upcoming = some (.drafted (outcome.map (·.map fun _ => ()))) ∧
      drafted.inventory.store.committed = office.inventory.store.committed := by
  intro drafted
  obtain ⟨present, begun, settings⟩ := undisturbed.opened_eq
  have forgotten := offer.1.performed_forget performed
  rw [← settings] at forgotten
  have ran : ((passage.opened office offer).step (.draft office.upcoming)).progress
      office.upcoming =
      (some later.tx, some (.drafted (outcome.map (·.map fun _ => ())))) := by
    simp [step_draft present begun forgotten, progress]
  have given : office.upcoming ≤
      ((passage.opened office offer).step (.draft office.upcoming)).inventory.store.begun :=
    Nat.le_trans (begun_undergoAll (office.step (.begin offer)) passage.first)
      ((passage.opened office offer).begun_undergo (.step (.draft office.upcoming)))
  have apart : Bypass office.upcoming passage.second := fun event member =>
    undisturbed.apart event (List.mem_append_right _ member)
  have same : drafted.progress office.upcoming = _ := (progress_undergoAll given apart).trans ran
  have whole := office.version_undergoAll (passage.events office offer)
  rw [passage.undergoAll_events] at whole
  exact ⟨congrArg Prod.fst same, congrArg Prod.snd same, whole.2 undisturbed.still⟩

/-- A mutation that nothing is committed beside ends as it would alone. -/
theorem settles :
    let drafted := passage.drafted office offer
    let after := passage.aftermath office offer
    drafted.answer? (.settle office.upcoming) = some (after.outcome.map fun _ => (),
      after.published) ∧
      (drafted.step (.settle office.upcoming)).inventory.store.committed =
        after.store.committed := by
  intro drafted after
  rcases performed : (offer.1.yielding office.inventory.settings).perform
    ⟨(office.inventory.store.begin .readWrite).1, (passage.opened office offer).inventory.ids⟩
      with ⟨outcome, later⟩
  obtain ⟨present, stage, committed⟩ := undisturbed.drafted_eq performed
  rw [answer?_settle present stage, step_settle present stage]
  cases outcome with
  | error error =>
    have comes : after = _ := Aftermath.of_error performed
    rw [comes]
    exact ⟨rfl, committed⟩
  | ok result =>
    obtain ⟨written, wrote⟩ := Mutation.wrote (offer.1.performed_forget performed)
    obtain ⟨outcome, left, published⟩ := Aftermath.of_ok performed wrote
    obtain ⟨next, commits, installed⟩ :=
      @Store.commit_of_version (passage.drafted office offer).inventory.store _
        (office.inventory.store.begin .readWrite).1 _ undisturbed.still rfl committed.symm wrote
    have alone : after.store.committed = later.tx.working := left
    rw [alone, show after.outcome = _ from outcome, show after.published = _ from published]
    simp only [Except.map, ended, Traffic.settled, commits]
    exact ⟨rfl, installed⟩

/-- Until anything else is committed, what such a mutation has left stands. -/
theorem stands {between : List Event} :
    let settled := (passage.drafted office offer).step (.settle office.upcoming)
    let later :=
      office.undergoAll (passage.events office offer ++ .step (.settle office.upcoming) :: between)
    later.inventory.store.version = settled.inventory.store.version →
    later.inventory.store.committed = (passage.aftermath office offer).store.committed := by
  intro settled later still
  have whole : later = settled.undergoAll between := by
    show office.undergoAll _ = _
    rw [undergoAll_append, passage.undergoAll_events]
    rfl
  rw [whole] at still ⊢
  exact ((settled.version_undergoAll between).2 still).trans undisturbed.settles.2

/-- What its body writes draws its ids in the passage. -/
theorem drawn_sublist {outcome : Except Error (Announced Yield)} {later : Draft}
    (performed : (offer.1.yielding office.inventory.settings).perform
      ⟨(office.inventory.store.begin .readWrite).1, (passage.opened office offer).inventory.ids⟩ =
        (outcome, later)) :
    (Change.inserted later.tx.log).Sublist (office.trace drawn (passage.events office offer)) := by
  obtain ⟨present, begun, settings⟩ := undisturbed.opened_eq
  have forgotten := offer.1.performed_forget performed
  rw [← settings] at forgotten
  have written : (passage.opened office offer).written (.draft office.upcoming) = later.tx.log :=
    written_draft present begun forgotten
  rw [← written, events, trace_append, trace]
  exact (List.sublist_append_left _ _).trans (List.sublist_append_right _ _)

omit undisturbed in
/-- As long as no id is given to two relationships, what is committed when a mutation begins is
well-formed and mirrors the paths, and none of the ids that the mutation relates entities under is
taken. -/
theorem grounds {settings : Settings} {ids : IdSource} {before : List Event}
    (undisturbed : passage.Undisturbed ((start settings ids).undergoAll before) offer)
    (distinct : ((start settings ids).trace drawn
      (before ++ passage.events ((start settings ids).undergoAll before) offer)).Nodup) :
    let office := (start settings ids).undergoAll before
    let graph := office.inventory.store.committed
    graph.WellFormed ∧ graph.Mirrored none ∧ ∀ outcome later,
      (offer.1.yielding office.inventory.settings).perform
        ⟨(office.inventory.store.begin .readWrite).1, (passage.opened office offer).inventory.ids⟩ =
          (outcome, later) →
      (Change.inserted later.tx.log).Nodup ∧
        ∀ id ∈ Change.inserted later.tx.log, graph.relationships.find? id = none := by
  intro office graph
  rw [trace_append, List.nodup_append] at distinct
  obtain ⟨earlier, meanwhile, apart⟩ := distinct
  obtain ⟨registry, notices, kept, -, -, unregistered⟩ := soberly settings ids before earlier
  have sound : registry.Sound graph := kept.consistent.committed
  refine ⟨sound.toWellFormed, kept.mirrored, fun outcome later performed => ?_⟩
  have drawn := undisturbed.drawn_sublist performed
  refine ⟨meanwhile.sublist drawn, fun id member => ?_⟩
  cases found : graph.relationships.find? id with
  | none => rfl
  | some rel =>
    obtain ⟨writer, known⟩ := sound.registered found
    have unknown := unregistered id fun old => apart id old id (drawn.subset member) rfl
    rw [unknown] at known
    cases known

omit undisturbed in
/-- What comes of a mutation is what its body comes to, and what it hands back is read off that. -/
theorem comes {settings : Settings} {ids : IdSource} {before : List Event} {α : Type}
    {body : Drafting (Announced α)} {give : α → Yield}
    (undisturbed : passage.Undisturbed ((start settings ids).undergoAll before) offer)
    (distinct : ((start settings ids).trace drawn
      (before ++ passage.events ((start settings ids).undergoAll before) offer)).Nodup)
    (gives : offer.1.yielding settings = do return (← body).map give) :
    let office := (start settings ids).undergoAll before
    let graph := office.inventory.store.committed
    let after := passage.aftermath office offer
    ∃ outcome later, body.perform ⟨(office.inventory.store.begin .readWrite).1,
        (passage.opened office offer).inventory.ids⟩ = (outcome, later) ∧
      (Change.inserted later.tx.log).Nodup ∧
      (∀ id ∈ Change.inserted later.tx.log, graph.relationships.find? id = none) ∧
      (∀ error, outcome = .error error →
        after.outcome = .error error ∧ after.published = [] ∧ after.store.committed = graph) ∧
      ∀ result, outcome = .ok result →
        after.outcome = .ok (give result.value) ∧ after.published = result.notices ∧
          after.store.committed = later.tx.working := by
  intro office graph after
  have same : office.inventory.settings = settings := settings_undergoAll _ _
  rcases performed : body.perform
    ⟨(office.inventory.store.begin .readWrite).1, (passage.opened office offer).inventory.ids⟩
      with ⟨outcome, later⟩
  have yielded : (offer.1.yielding office.inventory.settings).perform
      ⟨(office.inventory.store.begin .readWrite).1, (passage.opened office offer).inventory.ids⟩ =
      (outcome.map (·.map give), later) := by
    rw [same, gives, Drafting.perform_bind, performed]
    cases outcome <;> rfl
  obtain ⟨-, -, writes⟩ := undisturbed.grounds distinct
  obtain ⟨once, fresh⟩ := writes _ _ yielded
  refine ⟨outcome, later, rfl, once, fresh, ?_, ?_⟩
  · rintro error rfl
    have failed : after = _ := Aftermath.of_error yielded
    rw [failed]
    exact ⟨rfl, rfl, rfl⟩
  · rintro result rfl
    obtain ⟨written, wrote⟩ := Mutation.wrote (offer.1.performed_forget yielded)
    obtain ⟨outcome, left, published⟩ := Aftermath.of_ok yielded wrote
    exact ⟨outcome, published, left⟩

end Undisturbed

/-- How a mutation ends: what it hands back, what it publishes, and what is committed then. -/
structure Ends (passage : Passage) (office : Office) (offer : Offer) (outcome : Except Error Yield)
    (published : List Notice) (next : Graph) : Prop where
  yields : (passage.aftermath office offer).outcome = outcome
  answers : (passage.drafted office offer).answer? (.settle office.upcoming) =
    some (outcome.map fun _ => (), published)
  leaves : ((passage.drafted office offer).step (.settle office.upcoming)).inventory.store.committed
    = next

/-- Where its body meets what is wanted of it or fails as is allowed, a mutation ends so. -/
theorem Undisturbed.ends {settings : Settings} {ids : IdSource} {before : List Event} {α : Type}
    {body : Drafting (Announced α)} {give : α → Yield} {fails : Error → Prop}
    {wanted : Announced α → Draft → Prop}
    (undisturbed : passage.Undisturbed ((start settings ids).undergoAll before) offer)
    (distinct : ((start settings ids).trace drawn
      (before ++ passage.events ((start settings ids).undergoAll before) offer)).Nodup)
    (gives : offer.1.yielding settings = do return (← body).map give)
    (meets : body.Meets
      ⟨(((start settings ids).undergoAll before).inventory.store.begin .readWrite).1,
      (passage.opened ((start settings ids).undergoAll before) offer).inventory.ids⟩ fails wanted) :
    let office := (start settings ids).undergoAll before
    let graph := office.inventory.store.committed
    (∃ error, fails error ∧ passage.Ends office offer (.error error) [] graph) ∨
      ∃ result later, wanted result later ∧
        (∀ id ∈ Change.inserted later.tx.log, graph.relationships.find? id = none) ∧
        passage.Ends office offer (.ok (give result.value)) result.notices later.tx.working := by
  intro office graph
  obtain ⟨answered, committed⟩ := undisturbed.settles
  obtain ⟨outcome, later, performed, -, fresh, failed, succeeded⟩ :=
    undisturbed.comes distinct gives
  cases outcome with
  | error error =>
    obtain ⟨outcome, published, same⟩ := failed error rfl
    refine .inl ⟨error, meets.of_error performed, outcome, ?_, committed.trans same⟩
    rw [answered, outcome, published]
  | ok result =>
    obtain ⟨outcome, published, left⟩ := succeeded result rfl
    refine .inr ⟨result, later, meets.of_ok performed, fresh, outcome, ?_, committed.trans left⟩
    rw [answered, outcome, published]

/-- What is committed when a mutation ends stands until anything else is committed. -/
theorem Ends.stands {origin : Office} {before between : List Event} {outcome : Except Error Yield}
    {published : List Notice} {next : Graph}
    (ends : passage.Ends (origin.undergoAll before) offer outcome published next)
    (undisturbed : passage.Undisturbed (origin.undergoAll before) offer) :
    let office := origin.undergoAll before
    let settled := (passage.drafted office offer).step (.settle office.upcoming)
    let later :=
      origin.undergoAll (before ++ passage.events office offer ++ .step (.settle office.upcoming) ::
        between)
    later.inventory.store.version = settled.inventory.store.version →
      later.inventory.store.committed = next := by
  intro office settled later still
  have whole : later = office.undergoAll (passage.events office offer ++
      .step (.settle office.upcoming) :: between) := by
    show origin.undergoAll (_ ++ _ ++ _) = _
    rw [List.append_assoc, undergoAll_append]
  rw [whole] at still ⊢
  exact (undisturbed.stands still).trans (undisturbed.settles.2.symm.trans ends.leaves)

end Passage

end Office

end Estate
