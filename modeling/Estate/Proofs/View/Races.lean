import Estate.Proofs.View.Discipline
import Estate.Proofs.View.Prizes

/-!
Races for a prize: mutations that ask for it begin and end in any order, among others that leave it
alone. As long as it is free, every claim that was drafted still goes through; the first to be
settled takes the prize, and for all others it is held from then on.
-/
namespace Estate

namespace Prize

variable {prize : Prize} {needs : List Path} {settings : Settings} {graph next : Graph}
  {tx : Transaction} {stage : Stage}

/-- The outcomes of those who do not get the prize. -/
def Loses (prize : Prize) (outcome : Except Error Unit) : Prop :=
  ∃ error, outcome = .error error ∧ (error.family = prize.taken ∨ error.family = .conflict)

/-- How a call for the prize stands to what is committed. -/
def Runs (prize : Prize) (needs : List Path) (settings : Settings) (graph : Graph)
    (tx : Transaction) : Stage → Prop
  | .begun offer =>
    prize.isSoughtBy needs settings tx.working offer.1 ∧
      (prize.isHeldBy tx.working → prize.isHeldBy graph) ∧
      ∀ path ∈ needs, tx.working.entities.contains path → graph.entities.contains path
  | .drafted (.ok result) => Claims needs graph prize tx.log result.notices
  | .drafted (.error error) => error.family = prize.taken ∧ prize.isHeldBy graph

/-- It stands as it did while what is committed keeps the prize and what the prize needs. -/
theorem Runs.later (runs : prize.Runs needs settings graph tx stage)
    (held : prize.isHeldBy graph → prize.isHeldBy next)
    (kept : ∀ path ∈ needs, graph.entities.contains path → next.entities.contains path) :
    prize.Runs needs settings next tx stage := by
  rcases stage with offer | (error | result)
  · obtain ⟨sought, known, stored⟩ := runs
    exact ⟨sought, fun holds => held (known holds),
      fun path needed here => kept path needed (stored path needed here)⟩
  · exact ⟨runs.1, held runs.2⟩
  · exact Claims.later runs kept

theorem Runs.drafted {offer : Offer} {ids : IdSource} {outcome : Except Error (Announced Unit)}
    {later : Draft} (runs : prize.Runs needs settings graph tx (.begun offer))
    (access : tx.access = .readWrite) (blank : tx.log = []) (wellFormed : tx.working.WellFormed)
    (performed : (offer.1.body settings).perform ⟨tx, ids⟩ = (outcome, later)) :
    prize.Runs needs settings graph later.tx (.drafted outcome) := by
  obtain ⟨sought, known, stored⟩ := runs
  have drafted :=
    @drafts needs settings prize offer.1 ⟨tx, ids⟩ later outcome access blank wellFormed
      sought performed
  cases outcome with
  | error error => exact ⟨drafted.1, known drafted.2⟩
  | ok result => exact Claims.later drafted stored

/-- What may happen in a race: calls ask for the prize, and nobody else makes or unmakes it, or
takes away what it needs. -/
def Allows (prize : Prize) (needs : List Path) (callers : List Nat) (office : Office) :
    Office.Event → Prop
  | .step (.begin offer) =>
    office.inventory.store.begun + 1 ∈ callers →
      prize.isSoughtBy needs office.inventory.settings office.inventory.store.committed offer.1
  | .step (.settle number) =>
    number ∉ callers →
      prize.isHeldBy (office.step (.settle number)).inventory.store.committed =
          prize.isHeldBy office.inventory.store.committed ∧
        ∀ path ∈ needs, office.inventory.store.committed.entities.contains path →
          (office.step (.settle number)).inventory.store.committed.entities.contains path
  | _ => True

instance (prize : Prize) (needs : List Path) (callers : List Nat) (office : Office) :
    ∀ event, Decidable (prize.Allows needs callers office event)
  | .step (.begin _) => inferInstanceAs (Decidable (_ → _))
  | .step (.settle _) => inferInstanceAs (Decidable (_ → _))
  | .step (.draft _) | .read => isTrue trivial

/-- The verdicts and announcements so far, as long as the prize is free and once it is held. -/
def Standing (prize : Prize) (held : Bool) (verdicts : List (Nat × Except Error Unit))
    (announced : List Notice) : Prop :=
  match held with
  | false => verdicts = [] ∧ announced = []
  | true =>
    ∃ winner losses, verdicts = (winner, .ok ()) :: losses ∧ (∀ loss ∈ losses, prize.Loses loss.2) ∧
      announced.length = 1

/-- What an event can do to a race. -/
def Turns (prize : Prize) (held after : Bool) (verdicts : List (Nat × Except Error Unit))
    (announced : List Notice) :
    Prop :=
  after = held ∧ announced = [] ∧ (∀ verdict ∈ verdicts, held = true ∧ prize.Loses verdict.2) ∨
    held = false ∧ after = true ∧ (∃ winner, verdicts = [(winner, .ok ())]) ∧ announced.length = 1

theorem Turns.keeps {held after : Bool} {verdicts : List (Nat × Except Error Unit)}
    {announced : List Notice} (turns : prize.Turns held after verdicts announced) (holds : held) :
    after := by
  rcases turns with ⟨same, -⟩ | ⟨-, won, -⟩
  · rw [same]
    exact holds
  · exact won

theorem Standing.turn {held after : Bool} {verdicts more : List (Nat × Except Error Unit)}
    {announced told : List Notice} (standing : prize.Standing held verdicts announced)
    (turns : prize.Turns held after more told) :
    prize.Standing after (verdicts ++ more) (announced ++ told) := by
  rcases turns with ⟨rfl, rfl, lost⟩ | ⟨rfl, rfl, ⟨winner, rfl⟩, once⟩
  · rw [List.append_nil]
    cases after with
    | false =>
      obtain ⟨rfl, rfl⟩ := standing
      refine ⟨?_, rfl⟩
      rw [List.nil_append, List.eq_nil_iff_forall_not_mem]
      exact fun verdict member => Bool.false_ne_true (lost verdict member).1
    | true =>
      obtain ⟨winner, losses, rfl, losing, once⟩ := standing
      refine ⟨winner, losses ++ more, rfl, fun loss member => ?_, once⟩
      rcases List.mem_append.mp member with old | new
      · exact losing loss old
      · exact (lost loss new).2
  · obtain ⟨rfl, rfl⟩ := standing
    exact ⟨winner, [], rfl, List.forall_mem_nil _, once⟩

end Prize

namespace Office

variable {origin office : Office} {registry : Registry} {events : List Event} {number : Nat}
  {tx : Transaction} {prize : Prize} {needs : List Path} {callers : List Nat}

def Throughout (holds : Office → Event → Prop) (office : Office) : List Event → Prop
  | [] => True
  | event :: rest => holds office event ∧ (office.undergo event).Throughout holds rest

instance Throughout.decidable
    {holds : Office → Event → Prop} [∀ office event, Decidable (holds office event)] :
    ∀ office events, Decidable (Throughout holds office events)
  | _, [] => isTrue trivial
  | office, event :: rest =>
    have : Decidable ((office.undergo event).Throughout holds rest) := Throughout.decidable _ rest
    inferInstanceAs (Decidable (holds office event ∧ _))

def started (office : Office) : Event → List Nat
  | .step (.begin _) => [office.inventory.store.begun + 1]
  | _ => []

def verdicts (callers : List Nat) (office : Office) : Event → List (Nat × Except Error Unit)
  | .step (.settle number) =>
    if number ∈ callers then
      (office.answer? (.settle number)).toList.map fun answer => (number, answer.1)
    else []
  | _ => []

def announcements (prize : Prize) (office : Office) (event : Event) : List Notice :=
  (office.heard event).filter prize.isAnnouncedBy

/-- An event brings a race forward: the prize is passed on as it can be, and nothing is lost that it
needs. -/
def Advances (office : Office) (prize : Prize) (needs : List Path) (callers : List Nat)
    (event : Event) : Prop :=
  prize.Turns (prize.isHeldBy office.inventory.store.committed)
      (prize.isHeldBy (office.undergo event).inventory.store.committed)
        (office.verdicts callers event)
      (office.announcements prize event) ∧
    ∀ path ∈ needs, office.inventory.store.committed.entities.contains path →
      (office.undergo event).inventory.store.committed.entities.contains path

theorem begun_undergo (office : Office) (event : Event) :
    office.inventory.store.begun ≤ (office.undergo event).inventory.store.begun := by
  cases event with
  | read => exact Nat.le_succ _
  | step step =>
    rcases office.step_cases step with same | ⟨offer, -, stepped⟩ |
      ⟨own, tx, offer, outcome, later, -, -, -, -, stepped⟩ | ⟨own, tx, outcome, -, -, -, stepped⟩
    · exact Nat.le_of_eq (congrArg (·.inventory.store.begun) same).symm
    · rw [undergo, stepped]
      exact Nat.le_succ _
    · rw [undergo, stepped]
    · rw [undergo, stepped]
      cases outcome with
      | error error => exact Nat.le_refl _
      | ok result => exact Nat.le_of_eq (Traffic.begun_settled office.inventory.store tx).symm

theorem begun_lt_of_started (begins : number ∈ office.trace started events) :
    office.inventory.store.begun < number := by
  induction events generalizing office with
  | nil => cases begins
  | cons event rest ih =>
    rcases List.mem_append.mp begins with here | later
    · cases event with
      | read => cases here
      | step step =>
        cases step with
        | begin offer =>
          obtain rfl := List.mem_singleton.mp here
          exact Nat.lt_succ_self _
        | draft own | settle own => cases here
    · exact Nat.lt_of_le_of_lt (office.begun_undergo event) (ih later)

/-- What is settled in vain changes nothing; and whoever asked for the prize has lost it. -/
theorem advances_of_refused {error : Error}
    (same : (office.step (.settle number)).inventory.store.committed =
      office.inventory.store.committed)
    (answered : office.answer? (.settle number) = some (.error error, []))
    (lost : number ∈ callers → prize.isHeldBy office.inventory.store.committed ∧
      (error.family = prize.taken ∨ error.family = .conflict)) :
    office.Advances prize needs callers (.step (.settle number)) := by
  simp only [Advances, undergo, same]
  refine ⟨.inl ⟨rfl, ?_, fun verdict member => ?_⟩, fun path _ stored => stored⟩
  · simp [announcements, heard, response?, answered]
  · by_cases caller : number ∈ callers
    · obtain ⟨held, family⟩ := lost caller
      obtain rfl : verdict = (number, .error error) := by
        simpa [verdicts, caller, answered] using member
      exact ⟨held, error, rfl, family⟩
    · simp [verdicts, caller] at member

/-- A deed that goes through takes the prize if it was asked for, and otherwise leaves it alone. -/
theorem advances_of_deed {planned : Graph} {mutation : Mutation} {log : List Change}
    {notices : List Notice} (deed : Deed planned mutation log notices)
    (wellFormed : office.inventory.store.committed.WellFormed)
    (after : (office.step (.settle number)).inventory.store.committed.WellFormed)
    (replayed : office.inventory.store.committed.replay log =
      .ok (office.step (.settle number)).inventory.store.committed)
    (answered : office.answer? (.settle number) = some (.ok (), notices))
    (claimed : number ∈ callers →
      Prize.Claims needs office.inventory.store.committed prize log notices)
    (allowed : prize.Allows needs callers office (.step (.settle number))) :
    office.Advances prize needs callers (.step (.settle number)) := by
  have made {notice : Notice} (told : notice ∈ notices) (announced : prize.isAnnouncedBy notice) :=
    Prize.made_of_announced deed replayed after told announced
  have heard : office.announcements prize (.step (.settle number)) =
      notices.filter prize.isAnnouncedBy := by
    simp [announcements, heard, response?, answered]
  rw [Advances, heard]
  by_cases caller : number ∈ callers
  · have claims := claimed caller
    obtain ⟨notice, kept⟩ :=
      List.exists_mem_of_length_pos (Nat.lt_of_lt_of_eq Nat.one_pos claims.announced.symm)
    obtain ⟨told, announced⟩ := List.mem_filter.mp kept
    obtain ⟨free, held⟩ := made told announced
    obtain ⟨graph, same, grown⟩ := claims.replays wellFormed free
    obtain rfl := Except.ok.inj (replayed.symm.trans same)
    refine ⟨.inr ⟨free, held, ⟨number, ?_⟩, claims.announced⟩,
      fun path _ stored => grown path stored⟩
    simp [verdicts, caller, answered]
  · obtain ⟨unchanged, stays⟩ := allowed caller
    refine ⟨.inl ⟨unchanged, ?_, by simp [verdicts, caller]⟩, stays⟩
    rw [List.filter_eq_nil_iff]
    intro notice told announced
    obtain ⟨free, held⟩ := made told announced
    rw [unchanged, free] at held
    cases held

/-- What it comes to in a race that a mutation is settled. -/
theorem advances_of_settled {notices : List Notice} {next : Registry}
    {outcome : Except Error (Announced Unit)} (kept : office.Kept registry)
    (told : office.Told notices) (after : (office.step (.settle number)).Kept next)
    (present : office.underway.find? number = some tx)
    (drafted : office.stages.find? number = some (.drafted outcome)) (runs : number ∈ callers →
      prize.Runs needs office.inventory.settings office.inventory.store.committed tx
        (.drafted outcome))
    (allowed : prize.Allows needs callers office (.step (.settle number))) :
    office.Advances prize needs callers (.step (.settle number)) := by
  have wellFormed : office.inventory.store.committed.WellFormed :=
    kept.consistent.committed.toWellFormed
  rcases told.settle_cases kept present drafted with ⟨error, rfl, same, answered⟩ |
    ⟨result, planned, mutation, rfl, deed, ⟨why, refused, same, answered⟩ | ⟨replayed, answered⟩⟩
  · refine advances_of_refused same answered fun caller => ?_
    obtain ⟨family, held⟩ := runs caller
    exact ⟨held, .inl family⟩
  · refine advances_of_refused same answered fun caller => ⟨?_, .inr rfl⟩
    -- were the prize free, the claim would have gone through
    by_contra free
    obtain ⟨graph, taken, -⟩ := (runs caller).replays wellFormed (Bool.eq_false_iff.mpr free)
    rw [refused] at taken
    cases taken
  · exact advances_of_deed deed wellFormed after.consistent.committed.toWellFormed replayed answered
      runs allowed

/-- What an event does to a race that it is allowed in. -/
theorem advances_of_allowed {notices : List Notice} {next : Registry} {event : Event}
    (kept : office.Kept registry) (told : office.Told notices)
    (after : (office.undergo event).Kept next)
    (runs : ∀ {number tx stage}, number ∈ callers → office.underway.find? number = some tx →
      office.stages.find? number = some stage →
      prize.Runs needs office.inventory.settings office.inventory.store.committed tx stage)
    (allowed : prize.Allows needs callers office event) :
    office.Advances prize needs callers event := by
  have passes (same : (office.undergo event).inventory.store.committed =
      office.inventory.store.committed)
      (silent : office.verdicts callers event = [])
      (quiet : office.announcements prize event = []) :
      office.Advances prize needs callers event := by
    rw [Advances, same, silent, quiet]
    exact ⟨.inl ⟨rfl, rfl, List.forall_mem_nil _⟩, fun path _ stored => stored⟩
  cases event with
  | read => exact passes rfl rfl rfl
  | step step =>
    cases step with
    | begin offer => exact passes rfl rfl rfl
    | draft number => exact passes (congrArg Store.committed (office.store_draft number)) rfl rfl
    | settle number =>
      by_cases due : ∃ tx outcome, office.underway.find? number = some tx ∧
          office.stages.find? number = some (.drafted outcome)
      · obtain ⟨tx, outcome, present, drafted⟩ := due
        exact advances_of_settled kept told after present drafted
          (fun caller => runs caller present drafted) allowed
      · have silent := answer?_settle_undue due
        refine passes ?_ ?_ ?_
        · rw [undergo, step_settle_undue due]
        · simp [verdicts, silent]
        · simp [announcements, heard, response?, silent]

/-- How an office stands to a race of which it has undergone some events. -/
structure Racing (origin : Office) (prize : Prize) (needs : List Path) (callers : List Nat)
    (events : List Event) (office : Office) : Prop where
  runs : ∀ {number tx stage}, number ∈ callers → office.underway.find? number = some tx →
    office.stages.find? number = some stage →
    prize.Runs needs office.inventory.settings office.inventory.store.committed tx stage
  standing : prize.Standing (prize.isHeldBy office.inventory.store.committed)
    (origin.trace (verdicts callers) events)
    (origin.trace (announcements prize) events)

namespace Racing

variable {past : List Event} {start : Office} {notices : List Notice} {event : Event}
  {next : Registry}

theorem runs_undergo (racing : origin.Racing prize needs callers events office)
    (kept : office.Kept registry) (sober : start.Sober past office)
    (allowed : prize.Allows needs callers office event)
    (advances : office.Advances prize needs callers event) {stage : Stage}
    (caller : number ∈ callers) (present : (office.undergo event).underway.find? number = some tx)
    (reached : (office.undergo event).stages.find? number = some stage) :
    prize.Runs needs (office.undergo event).inventory.settings
      (office.undergo event).inventory.store.committed
      tx stage := by
  have onward {tx : Transaction} {stage : Stage}
      (runs : prize.Runs needs office.inventory.settings office.inventory.store.committed
        tx stage) :
      prize.Runs needs (office.undergo event).inventory.settings
        (office.undergo event).inventory.store.committed
        tx stage := by
    rw [settings_undergo]
    exact runs.later advances.1.keeps advances.2
  refine onward ?_
  cases event with
  | read => exact racing.runs caller present reached
  | step step =>
    refine numbered_step
      (fun number tx stage => number ∈ callers →
        prize.Runs needs office.inventory.settings office.inventory.store.committed tx stage)
      (fun present reached caller => racing.runs caller present reached) ?_ ?_ present
        reached caller
    · rintro offer rfl caller
      exact ⟨allowed caller, id, fun path _ stored => stored⟩
    · intro number tx offer outcome later _ started begun performed caller
      have access := (sober.fair started begun).1
      have wellFormed : tx.working.WellFormed := (kept.consistent.working started).toWellFormed
      exact (racing.runs caller started begun).drafted access
        (kept.logs started begun) wellFormed performed

theorem undergo (racing : origin.Racing prize needs callers events office)
    (same : office = origin.undergoAll events) (kept : office.Kept registry)
    (sober : start.Sober past office) (told : office.Told notices)
    (after : (office.undergo event).Kept next) (allowed : prize.Allows needs callers office event) :
    origin.Racing prize needs callers (events ++ [event]) (office.undergo event) := by
  have advances := advances_of_allowed kept told after racing.runs allowed
  refine ⟨racing.runs_undergo kept sober allowed advances, ?_⟩
  rw [trace_concat, trace_concat, ← same]
  exact racing.standing.turn advances.1

end Racing

end Office

end Estate
