import Estate.Proofs.View.Races
import Estate.Proofs.View.Tenancy

namespace Estate.Office

variable {origin office : Office} {registry : Registry} {events : List Event} {number : Nat}
  {prize : Prize} {needs : List Path} {callers : List Nat}

def settledBy (origin : Office) (callers : List Nat) (events : List Event) : List Nat :=
  (origin.trace (verdicts callers) events).map (·.1)

/-- How an office stands to its callers: each is under way until it is settled, and then done for
good. -/
structure Tallied (origin : Office) (callers : List Nat) (events : List Event) (office : Office) :
    Prop where
  waiting : ∀ number ∈ callers, number ∈ origin.trace started events →
    number ∈ origin.settledBy callers events ∨ office.underway.contains number
  done : ∀ number ∈ origin.settledBy callers events,
    number ∈ callers ∧ number ≤ office.inventory.store.begun ∧ office.underway.find? number = none
  once : (origin.settledBy callers events).Nodup

theorem absent_undergo (absent : office.underway.find? number = none)
    (given : number ≤ office.inventory.store.begun) (event : Event) :
    (office.undergo event).underway.find? number = none := by
  cases event with
  | read => exact absent
  | step step =>
    obtain ⟨calls, same, -⟩ := office.traffic_step step
    have still := @Traffic.absent_run office.traffic number absent given calls
    rw [← same] at still
    exact still

/-- What is under way stays so, unless it is settled. -/
theorem underway_undergo (present : office.underway.contains number) (event : Event) :
    (office.undergo event).underway.contains number ∨
      event = .step (.settle number) ∧ ∃ answer, office.answer? (.settle number) = some answer := by
  cases event with
  | read => exact .inl present
  | step step =>
    simp only [undergo]
    rcases office.step_cases step with same | ⟨offer, -, stepped⟩ |
      ⟨own, tx, offer, outcome, later, -, -, -, -, stepped⟩ | ⟨own, tx, outcome, rfl, started,
        drafted, stepped⟩
    · rw [same]
      exact .inl present
    · rw [stepped]
      exact .inl (by simp [present])
    · rw [stepped]
      exact .inl (by simp [present])
    · by_cases here : number = own
      · subst here
        exact .inr ⟨rfl, _, answer?_settle started drafted⟩
      · rw [stepped]
        exact .inl (by simp [here, present])

/-- Only callers under way are told a verdict. -/
theorem underway_of_verdict {event : Event}
    (member : number ∈ (office.verdicts callers event).map (·.1)) :
    event = .step (.settle number) ∧ number ∈ callers ∧
      ∃ tx, office.underway.find? number = some tx ∧
      (office.undergo event).underway.find? number = none := by
  cases event with
  | read => cases member
  | step step =>
    cases step with
    | begin offer | draft own => cases member
    | settle own =>
      by_cases caller : own ∈ callers
      · by_cases due : ∃ tx outcome, office.underway.find? own = some tx ∧
            office.stages.find? own = some (.drafted outcome)
        · obtain ⟨tx, outcome, present, drafted⟩ := due
          obtain rfl : number = own := by
            simpa [verdicts, caller, answer?_settle present drafted] using member
          exact ⟨rfl, caller, tx, present, by simp [undergo, step_settle present drafted]⟩
        · simp [verdicts, caller, answer?_settle_undue due] at member
      · simp [verdicts, caller] at member

theorem nodup_verdicts (office : Office) (callers : List Nat) (event : Event) :
    ((office.verdicts callers event).map (·.1)).Nodup := by
  cases event with
  | read => exact List.nodup_nil
  | step step =>
    cases step with
    | begin offer | draft own => exact List.nodup_nil
    | settle own =>
      simp only [verdicts]
      split
      · cases office.answer? (.settle own) <;> simp
      · exact List.nodup_nil

theorem settledBy_concat (same : office = origin.undergoAll events) (event : Event) :
    origin.settledBy callers (events ++ [event]) =
      origin.settledBy callers events ++ (office.verdicts callers event).map (·.1) := by
  rw [settledBy, trace_concat, List.map_append, ← same]
  rfl

theorem Tallied.undergo (tallied : origin.Tallied callers events office)
    (same : office = origin.undergoAll events) (kept : office.Kept registry) (event : Event) :
    origin.Tallied callers (events ++ [event]) (office.undergo event) where
  waiting number caller begins := by
    rw [settledBy_concat same, List.mem_append]
    rw [trace_concat, ← same, List.mem_append] at begins
    rcases begins with old | new
    · rcases tallied.waiting number caller old with settled | present
      · exact .inl (.inl settled)
      · rcases underway_undergo present event with still | ⟨rfl, answer, answered⟩
        · exact .inr still
        · exact .inl (.inr (by simp [verdicts, caller, answered]))
    · right
      cases event with
      | read => cases new
      | step step =>
        cases step with
        | draft own | settle own => cases new
        | begin offer =>
          obtain rfl := List.mem_singleton.mp new
          show (office.underway.insert (office.inventory.store.begun + 1) _).contains _
          simp
  done number settled := by
    rw [settledBy_concat same, List.mem_append] at settled
    rcases settled with old | new
    · obtain ⟨caller, given, absent⟩ := tallied.done number old
      exact ⟨caller, Nat.le_trans given (office.begun_undergo event),
        absent_undergo absent given event⟩
    · obtain ⟨-, caller, tx, present, absent⟩ := underway_of_verdict new
      exact ⟨caller, Nat.le_trans (kept.consistent.numbered present) (office.begun_undergo event),
        absent⟩
  once := by
    rw [settledBy_concat same, List.nodup_append]
    refine ⟨tallied.once, ?_, ?_⟩
    · exact nodup_verdicts office callers event
    · rintro number old _ new rfl
      obtain ⟨-, -, absent⟩ := tallied.done number old
      obtain ⟨-, -, tx, present, -⟩ := underway_of_verdict new
      cases absent.symm.trans present

/-- Calls for a prize that is free at first, under their numbers, among events that otherwise leave
it alone. -/
structure Rush (office : Office) (prize : Prize) (needs : List Path) (callers : List Nat)
    (events : List Event) :
    Prop where
  free : prize.isHeldBy office.inventory.store.committed = false
  once : callers.Nodup
  begin : ∀ number ∈ callers, number ∈ office.trace started events
  settled : ∀ number ∈ callers, (office.undergoAll events).underway.find? number = none
  fair : office.Throughout (prize.Allows needs callers) events

theorem Rush.run {start : Office} {before : List Event} {notices : List Notice}
    (rush : office.Rush prize needs callers events) (kept : office.Kept registry)
    (sober : start.Sober before office) (back : office = start.undergoAll before)
    (told : office.Told notices) (distinct : (office.trace drawn events).Nodup)
    (fresh : ∀ id ∈ office.trace drawn events, registry id = none) :
    ∃ next, (office.undergoAll events).Kept next ∧
      office.Racing prize needs callers events (office.undergoAll events) ∧
      office.Tallied callers events (office.undergoAll events) := by
  let holds (_ : Registry) (here : Office) (rest : List Event) : Prop :=
    ∃ done past notices, done ++ rest = events ∧ here = office.undergoAll done ∧
      start.Sober past here ∧
      here = start.undergoAll past ∧ here.Told notices ∧
      office.Racing prize needs callers done here ∧
      office.Tallied callers done here ∧ here.Throughout (prize.Allows needs callers) rest
  have keeps {registry : Registry} {here : Office} {event : Event} {rest : List Event}
      {next : Registry}
      (kept : here.Kept registry) (after : (here.undergo event).Kept next)
      (held : holds registry here (event :: rest)) :
      holds next (here.undergo event) rest := by
    obtain ⟨done, past, notices, whole, same, sober, back, told, racing, tallied, allowed, fair⟩ :=
      held
    refine ⟨done ++ [event], past ++ [event], _, by simpa using whole, ?_,
      sober.undergo kept back event, ?_,
      told.undergo kept event, racing.undergo same kept sober told after allowed,
      tallied.undergo same kept event, fair⟩
    · rw [undergoAll_concat, same]
    · rw [undergoAll_concat, back]
  have racing : office.Racing prize needs callers [] office := {
    runs := fun {number tx stage} caller present reached => by
      have later := begun_lt_of_started (rush.begin number caller)
      exact absurd (kept.consistent.numbered present) (Nat.not_le.mpr later)
    standing := by
      rw [rush.free]
      exact ⟨rfl, rfl⟩ }
  have tallied : office.Tallied callers [] office := {
    waiting := fun number caller begins => absurd begins List.not_mem_nil
    done := fun number settled => absurd settled List.not_mem_nil
    once := List.nodup_nil }
  obtain ⟨next, final, ⟨done, -, -, whole, -, -, -, -, racing, tallied, -⟩, -⟩ :=
    Kept.undergoAll_keeping holds keeps kept events
      ⟨[], before, notices, rfl, rfl, sober, back, told, racing, tallied, rush.fair⟩ distinct fresh
  obtain rfl : done = events := by simpa using whole
  exact ⟨next, final, racing, tallied⟩

/--
From every state that comes about, as long as no id is given to two relationships: where any number
of calls asks for a prize that is free, and whatever else happens leaves the prize and what it needs
alone, the call that is settled first gets it; every other call is told that the prize is taken, or
of a conflict. In the end just one element is the prize, and its making has been published once.
-/
theorem rush_has_one_winner (settings : Settings) (ids : IdSource) (before events : List Event)
    (prize : Prize) (needs : List Path) (callers : List Nat)
    (distinct : ((start settings ids).trace drawn (before ++ events)).Nodup)
    (rush : ((start settings ids).undergoAll before).Rush prize needs callers events)
    (called : callers ≠ []) :
    let office := (start settings ids).undergoAll before
    let graph := (office.undergoAll events).inventory.store.committed
    ∃ winner losses, office.trace (verdicts callers) events = (winner, .ok ()) :: losses ∧
      (∀ loss ∈ losses, prize.Loses loss.2) ∧ (winner :: losses.map (·.1)).Perm callers ∧
      (∃! handle, ∃ element, graph.element? handle = some element ∧ prize.isMetBy element) ∧
      (office.trace (announcements prize) events).length = 1 := by
  intro office graph
  rw [trace_append, List.nodup_append] at distinct
  obtain ⟨registry, notices, kept, sober, told, others⟩ := soberly settings ids before distinct.1
  obtain ⟨last, final, racing, tallied⟩ := rush.run kept sober rfl told distinct.2.1 fun id new =>
    others id fun old => distinct.2.2 id old id new rfl
  have settled : ∀ number ∈ callers, number ∈ office.settledBy callers events :=
    fun number caller => by
    refine (tallied.waiting number caller (rush.begin number caller)).resolve_right fun present =>
      ?_
    simp [Table.contains, rush.settled number caller] at present
  have standing := racing.standing
  cases held : prize.isHeldBy graph with
  | false =>
    rw [show prize.isHeldBy (office.undergoAll events).inventory.store.committed = false from held]
      at standing
    obtain ⟨caller, member⟩ := List.exists_mem_of_ne_nil callers called
    have none := settled caller member
    rw [settledBy, standing.1] at none
    cases none
  | true =>
    rw [show prize.isHeldBy (office.undergoAll events).inventory.store.committed = true from held]
      at standing
    obtain ⟨winner, losses, told, losing, once⟩ := standing
    refine ⟨winner, losses, told, losing, ?_, ?_, once⟩
    · have same : office.settledBy callers events = winner :: losses.map (·.1) := by
        rw [settledBy, told]
        rfl
      rw [← same]
      refine (List.perm_ext_iff_of_nodup tallied.once rush.once).mpr fun number =>
        ⟨fun member => ?_, settled number⟩
      exact (tallied.done number member).1
    · have committed := final.consistent.committed
      exact Prize.existsUnique_of_isHeldBy committed.toWellFormed committed.exclusive held

def ownedBy (tenant resourceType : String) : Listing :=
  { kind := .metricType
    position := ((types tenant .resourceType).get resourceType).position.proceedTo .owns .metricType
    scope := .associate .resourceType .owns }

theorem reached_ownedBy (tenant resourceType : String) :
    Script.AnyView.Reached (.listing (ownedBy tenant resourceType)) :=
  @Script.AnyView.Reached.along _ _ [.get resourceType, .follow .metricTypes]
    (reached_resourceTypes tenant) rfl

def tenantPath : Path := ⟨[⟨.tenant, "inn"⟩], Path.legal_tenant (by decide)⟩

def childPath (segment : Segment) (valid : ValidId segment.id)
    (nests : tenantPath.kind ∈ segment.kind.parents) : Path :=
  ⟨tenantPath.segments ++ [segment], Path.legal_append valid nests⟩

def environmentPath : Path := childPath ⟨.environment, "cellar"⟩ (by decide) (by decide)

def resourceTypePath : Path := childPath ⟨.resourceType, "barrel"⟩ (by decide) (by decide)

def metricTypePath : Path := childPath ⟨.metricType, "level"⟩ (by decide) (by decide)

def founding : List Event :=
  let tenant : Step :=
    .begin ⟨.create tenants { id := some "inn", details := .tenant }, .tenants, rfl, rfl⟩
  let resources : Step :=
    .begin ⟨.create (types "inn" .resourceType)
      { id := some "barrel", details := .resourceType "1" }, reached_resourceTypes "inn", rfl, rfl⟩
  let metrics : Step :=
    .begin ⟨.create (types "inn" .metricType) { id := some "level", details := .metricType .none },
      reached_metricTypes "inn", rfl, rfl⟩
  [tenant, .draft 1, .settle 1, resources, .draft 2, .settle 2, metrics, .draft 3,
    .settle 3].map .step

/-- Two would create one environment, the second when the first has done so; and two would have the
resource type own the metric type, both at once. -/
def scramble : List Event :=
  let create : Step :=
    .begin ⟨.create (environments "inn") { id := some "cellar", details := .environment },
      reached_environments "inn", rfl, rfl⟩
  let associate : Step :=
    .begin ⟨.associate ⟨.metricType, (ownedBy "inn" "barrel").position, .resourceType,
      .owns⟩ metricTypePath, _, reached_ownedBy "inn" "barrel", rfl⟩
  [create, associate, associate, .draft 6, .draft 4, .draft 5, .settle 4, .settle 6,
    .settle 5].map .step ++ [.read] ++
    [create, .draft 8, .settle 8].map .step

theorem scramble_has_two_winners :
    let office := (start {} .counter).undergoAll founding
    let environment : Prize := .entity environmentPath
    let ownership : Prize := .ownership resourceTypePath metricTypePath
    let outcomes (callers : List Nat) :=
      (office.trace (verdicts callers) scramble).map fun verdict =>
        (verdict.1, verdict.2.mapError (·.family))
    (office.Rush environment [tenantPath] [4, 8] scramble ∧
        outcomes [4, 8] = [(4, .ok ()), (8, .error .entityAlreadyExists)] ∧
        (office.trace (announcements environment) scramble).length = 1) ∧
      office.Rush ownership [resourceTypePath, metricTypePath] [5, 6] scramble ∧
        outcomes [5, 6] = [(6, .ok ()), (5, .error .conflict)] ∧
        (office.trace (announcements ownership) scramble).length = 1 := by
  intro office environment ownership outcomes
  have facts : ((start {} .counter).trace drawn (founding ++ scramble)).Nodup ∧
      (environment.isHeldBy office.inventory.store.committed = false ∧
        ownership.isHeldBy office.inventory.store.committed = false) ∧
      (∀ number ∈ [4, 8, 5, 6], number ∈ office.trace started scramble ∧
        (office.undergoAll scramble).underway.find? number = none) ∧
      office.Throughout (environment.Allows [tenantPath] [4, 8]) scramble ∧
      office.Throughout (ownership.Allows [resourceTypePath, metricTypePath] [5, 6]) scramble ∧
      outcomes [4, 8] = [(4, .ok ()), (8, .error .entityAlreadyExists)] ∧
      outcomes [5, 6] = [(6, .ok ()), (5, .error .conflict)] := by decide +kernel
  obtain ⟨distinct, ⟨free, unowned⟩, calls, fair, fairly, told, heard⟩ := facts
  have create : office.Rush environment [tenantPath] [4, 8] scramble := {
    free
    once := by decide
    begin := fun number caller => (calls number (List.mem_append_left [5, 6] caller)).1
    settled := fun number caller => (calls number (List.mem_append_left [5, 6] caller)).2
    fair }
  have own : office.Rush ownership [resourceTypePath, metricTypePath] [5, 6] scramble := {
    free := unowned
    once := by decide
    begin := fun number caller => (calls number (List.mem_append_right [4, 8] caller)).1
    settled := fun number caller => (calls number (List.mem_append_right [4, 8] caller)).2
    fair := fairly }
  obtain ⟨_, _, -, -, -, -, created⟩ :=
    rush_has_one_winner {} .counter founding scramble environment [tenantPath] [4, 8] distinct
      create (by decide)
  obtain ⟨_, _, -, -, -, -, owned⟩ :=
    rush_has_one_winner {} .counter founding scramble ownership _ [5, 6] distinct own (by decide)
  exact ⟨⟨create, told, created⟩, own, heard, owned⟩

end Estate.Office
