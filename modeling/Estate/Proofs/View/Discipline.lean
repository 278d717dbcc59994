import Estate.Proofs.View.Events
import Estate.Proofs.View.Failures

/-!
The discipline of errors: whatever happens at an office, no operation comes to an error that tells
of the store rather than of what was asked for; only a mutation that another has overtaken is in
conflict; and views of several entities do not fail at all.
-/
namespace Estate

/-- Acts write, and nothing else becomes of their transaction. -/
theorem Act.runAll_wrote (acts : List Act) (draft : Draft) :
    ∃ written, draft.tx.Wrote (runAll acts draft).tx written := by
  induction acts generalizing draft with
  | nil => exact ⟨[], .refl draft.tx⟩
  | cons act rest ih =>
    obtain ⟨written, wrote⟩ := ih (act.run draft)
    exact ⟨_, (act.run_wrote draft).2.trans wrote⟩

/-- What is left of a transaction in which a mutation has run. -/
theorem Mutation.wrote {settings : Settings} {mutation : Mutation} {draft later : Draft}
    {outcome : Except Error (Announced Unit)}
    (performed : (mutation.body settings).perform draft = (outcome, later)) :
    ∃ written, draft.tx.Wrote later.tx written := by
  obtain ⟨acts, acted⟩ := mutation.composed settings draft
  rw [performed] at acted
  rw [show later = Act.runAll acts draft from acted]
  exact Act.runAll_wrote acts draft

theorem Mutation.family_of_check {mutation : Mutation} {error : Error}
    (refused : mutation.check = .error error) :
    error.family = .invalidArgument := by
  cases mutation with
  | link view name path properties =>
    simp only [check, Relations.linkable] at refused
    split at refused
    · cases refused
      rfl
    · cases refused
  | _ => cases refused

theorem Store.error_of_commit {store : Store} {tx : Transaction} {error : Error}
    (failed : store.commit tx = .error error) :
    error.family = .conflict ∧ store.version ≠ tx.baseVersion := by
  unfold commit at failed
  split at failed
  · cases failed
  · split at failed
    · cases failed
    · rename_i moved
      split at failed
      · cases failed
      · cases failed
        exact ⟨rfl, moved⟩

/-- The errors of a body that has failed tell of what it was asked for. -/
def Stage.Fair : Stage → Prop
  | .drafted (.error error) => error.Regular
  | _ => True

namespace Office

variable {origin office : Office} {registry : Registry} {events : List Event} {number : Nat}
  {tx : Transaction}

def Begins (origin : Office) (events : List Event) (number : Nat) : Prop :=
  ∃ earlier offer between, events = earlier ++ .step (.begin offer) :: between ∧
    number = (origin.undergoAll earlier).inventory.store.begun + 1

/-- Among some events a mutation begins under a number, and then another is committed. -/
def Overtaken (origin : Office) (events : List Event) (number : Nat) : Prop :=
  ∃ earlier offer middle other rest published,
    events = earlier ++ .step (.begin offer) :: (middle ++ .step (.settle other) :: rest) ∧
    number = (origin.undergoAll earlier).inventory.store.begun + 1 ∧ other ≠ number ∧
    (origin.undergoAll (earlier ++ .step (.begin offer) :: middle)).answer? (.settle other) =
      some (.ok (), published)

theorem Begins.later (begins : origin.Begins events number) (more : List Event) :
    origin.Begins (events ++ more) number := by
  obtain ⟨earlier, offer, between, rfl, same⟩ := begins
  exact ⟨earlier, offer, between ++ more, by simp, same⟩

theorem Overtaken.later (overtaken : origin.Overtaken events number) (more : List Event) :
    origin.Overtaken (events ++ more) number := by
  obtain ⟨earlier, offer, middle, other, rest, published, rfl, same, apart, answered⟩ := overtaken
  exact ⟨earlier, offer, middle, other, rest ++ more, published, by simp, same, apart, answered⟩

theorem Begins.overtaken (begins : origin.Begins events number) {other : Nat}
    {published : List Notice} (apart : other ≠ number)
    (answered : (origin.undergoAll events).answer? (.settle other) = some (.ok (), published)) :
    origin.Overtaken (events ++ [.step (.settle other)]) number := by
  obtain ⟨earlier, offer, between, rfl, same⟩ := begins
  exact ⟨earlier, offer, between, other, [], published, by simp, same, apart, answered⟩

/-- How an office stands to the events that it has undergone. -/
structure Sober (origin : Office) (events : List Event) (office : Office) : Prop where
  fair : ∀ {number tx stage}, office.underway.find? number = some tx →
    office.stages.find? number = some stage →
    tx.access = .readWrite ∧ stage.Fair
  based : ∀ {number tx}, office.underway.find? number = some tx → origin.Begins events number ∧
    (tx.baseVersion = office.inventory.store.version ∨ origin.Overtaken events number)

theorem sober_start (settings : Settings) (ids : IdSource) :
    (start settings ids).Sober [] (start settings ids) where
  fair present := by cases present
  based present := by cases present

namespace Sober

theorem read (sober : origin.Sober events office) :
    origin.Sober (events ++ [.read]) office.reading where
  fair := sober.fair
  based present := by
    obtain ⟨begins, based⟩ := sober.based present
    exact ⟨begins.later _, based.imp_right fun overtaken => overtaken.later _⟩

/-- Whatever body runs, it runs on a well-formed graph that it may write to. -/
theorem fair_step (sober : origin.Sober events office) (kept : office.Kept registry) {step : Step}
    {stage : Stage} (present : (office.step step).underway.find? number = some tx)
    (reached : (office.step step).stages.find? number = some stage) :
    tx.access = .readWrite ∧ stage.Fair := by
  refine standing_step (fun tx stage => tx.access = .readWrite ∧
    stage.Fair) sober.fair ?_ ?_ present reached
  · intro offer
    exact ⟨rfl, trivial⟩
  · intro number tx offer outcome later _ present begun performed
    have access := (sober.fair present begun).1
    obtain ⟨written, wrote⟩ := Mutation.wrote performed
    refine ⟨wrote.access.trans access, ?_⟩
    cases outcome with
    | ok result => trivial
    | error error =>
      have wellFormed : tx.working.WellFormed := (kept.consistent.working present).toWellFormed
      exact (@Mutation.body_meets ⟨tx, office.inventory.ids⟩ _ offer.1 access wellFormed).of_error
        performed

/-- A version only passes when a mutation is committed. -/
theorem based_step (sober : origin.Sober events office) (same : office = origin.undergoAll events)
    {step : Step} (present : (office.step step).underway.find? number = some tx) :
    origin.Begins (events ++ [.step step]) number ∧
      (tx.baseVersion = (office.step step).inventory.store.version ∨
        origin.Overtaken (events ++ [.step step]) number) := by
  have carried {tx : Transaction} {number : Nat} (present : office.underway.find? number =
      some tx) :
      origin.Begins (events ++ [.step step]) number ∧
        (tx.baseVersion = office.inventory.store.version ∨
          origin.Overtaken (events ++ [.step step]) number) := by
    obtain ⟨begins, based⟩ := sober.based present
    exact ⟨begins.later _, based.imp_right fun overtaken => overtaken.later _⟩
  rcases office.step_cases step with idle | ⟨offer, rfl, stepped⟩ |
    ⟨own, earlier, offer, outcome, later, rfl, started, -, performed, stepped⟩ |
    ⟨own, earlier, outcome, rfl, started, drafted, stepped⟩
  · rw [idle] at present ⊢
    exact carried present
  · rw [stepped] at present ⊢
    simp only [Table.find?_insert, Nat.compare_eq_eq] at present
    split at present
    · rename_i here
      obtain rfl := Option.some.inj present
      exact ⟨⟨events, offer, [], rfl, by rw [here, same]⟩, .inl rfl⟩
    · exact carried present
  · rw [stepped] at present ⊢
    simp only [Table.find?_insert, Nat.compare_eq_eq] at present
    split at present
    · rename_i here
      obtain rfl := Option.some.inj present
      obtain ⟨written, wrote⟩ := Mutation.wrote performed
      rw [here, wrote.baseVersion]
      exact carried started
    · exact carried present
  · rw [stepped] at present ⊢
    simp only [Table.find?_erase, Nat.compare_eq_eq] at present
    split at present
    · cases present
    · rename_i apart
      obtain ⟨begins, based⟩ := sober.based present
      cases outcome with
      | error error => exact carried present
      | ok result =>
        cases commits : office.inventory.store.commit earlier with
        | error error =>
          simp only [ended, Traffic.settled, commits]
          exact carried present
        | ok store =>
          have answered : office.answer? (.settle own) = some (.ok (), result.notices) := by
            rw [answer?_settle started drafted, commits]
          rw [same] at answered
          exact ⟨begins.later _, .inr (begins.overtaken (Ne.symm apart) answered)⟩

theorem undergo (sober : origin.Sober events office) (kept : office.Kept registry)
    (same : office = origin.undergoAll events) (event : Event) :
    origin.Sober (events ++ [event]) (office.undergo event) := by
  cases event with
  | read => exact sober.read
  | step step =>
    exact {
      fair := sober.fair_step kept
      based := sober.based_step same }

theorem error_of_answer (sober : origin.Sober events office) {error : Error}
    {published : List Notice}
    (failed : office.answer? (.settle number) = some (.error error, published)) :
    error.family.isInternal = false ∧
      (error.family = .conflict → origin.Overtaken events number) := by
  by_cases due : ∃ tx outcome, office.underway.find? number = some tx ∧
      office.stages.find? number = some (.drafted outcome)
  · obtain ⟨tx, outcome, present, drafted⟩ := due
    rw [answer?_settle present drafted] at failed
    cases outcome with
    | error other =>
      cases failed
      obtain ⟨-, outer, free⟩ := sober.fair present drafted
      exact ⟨outer, fun conflict => absurd conflict free⟩
    | ok result =>
      cases commits : office.inventory.store.commit tx with
      | ok store =>
        rw [commits] at failed
        cases failed
      | error other =>
        rw [commits] at failed
        cases failed
        obtain ⟨family, moved⟩ := Store.error_of_commit commits
        refine ⟨by rw [family]; rfl, fun _ => ?_⟩
        exact (sober.based present).2.resolve_left fun still => moved still.symm
  · rw [answer?_settle_undue due] at failed
    cases failed

end Sober

/-- As long as no id is given to two relationships, every office is kept, sober and told. -/
theorem soberly (settings : Settings) (ids : IdSource) (events : List Event)
    (distinct : ((start settings ids).trace drawn events).Nodup) :
    let office := (start settings ids).undergoAll events
    ∃ registry notices, office.Kept registry ∧ (start settings ids).Sober events office ∧
      office.Told notices ∧
      ∀ id, id ∉ (start settings ids).trace drawn events → registry id = none := by
  let holds (_ : Registry) (office : Office) (rest : List Event) : Prop :=
    ∃ done notices, done ++ rest = events ∧ office = (start settings ids).undergoAll done ∧
      (start settings ids).Sober done office ∧ office.Told notices
  have keeps {registry : Registry} {office : Office} {event : Event} {rest : List Event}
      {next : Registry}
      (kept : office.Kept registry) (_ : (office.undergo event).Kept next)
      (held : holds registry office (event :: rest)) :
      holds next (office.undergo event) rest := by
    obtain ⟨done, notices, whole, same, sober, told⟩ := held
    refine ⟨done ++ [event], _, by simpa using whole, ?_, sober.undergo kept same event,
      told.undergo kept event⟩
    rw [undergoAll_concat, same]
  obtain ⟨registry, kept, ⟨done, notices, whole, -, sober, told⟩, others⟩ :=
    Kept.undergoAll_keeping holds keeps (kept_start settings ids) events
      ⟨[], [], rfl, rfl, sober_start settings ids, told_start settings ids⟩ distinct
      fun id new => rfl
  obtain rfl : done = events := by simpa using whole
  exact ⟨registry, notices, kept, sober, told, fun id => others id rfl⟩

/--
Whatever has happened at an office, and as long as no id is given to two relationships: no mutation
ends in an error of the store, and one that ends in conflict has been overtaken by another; those
refused before they begin are refused for their arguments. An inquiry that begins then, and comes to
its end whenever it does, changes nothing, and ends in no error of the store nor in conflict; about
several entities it never fails, and about one only for want of it.
-/
theorem errors_disciplined (settings : Settings) (ids : IdSource) (events : List Event)
    (distinct : ((start settings ids).trace drawn events).Nodup) :
    let office := (start settings ids).undergoAll events
    (∀ (number : Nat) (error : Error) (published : List Notice),
        office.answer? (.settle number) = some (.error error, published) →
        error.family.isInternal = false ∧
        (error.family = .conflict → (start settings ids).Overtaken events number)) ∧
      (∀ (mutation : Mutation) (error : Error), mutation.check = .error error →
        error.family = .invalidArgument) ∧
      ∀ (inquiry : Inquiry) (later : Inventory Empty × List Notice), inquiry.Offered →
        let tx := (office.inventory.store.begin .readOnly).1
        let (outcome, after) :=
          (inquiry.conclude engine.recording tx office.inventory.settings).run later
        after = later ∧ ∀ error, outcome = .error error →
          error.Regular ∧ inquiry.MayFail error := by
  intro office
  obtain ⟨registry, notices, kept, sober, -⟩ := soberly settings ids events distinct
  refine ⟨fun number error published => sober.error_of_answer,
    fun mutation error => Mutation.family_of_check, ?_⟩
  intro inquiry later offered tx
  have wellFormed : tx.working.WellFormed := kept.consistent.committed.toWellFormed
  have ended :=
    Inventory.run_inquiry_conclude later.1 later.2 (show tx.log =
      [] from rfl) office.inventory.settings inquiry
  rw [ended]
  refine ⟨rfl, fun error failed => ?_⟩
  have fails := Inquiry.mayFail_of_answer offered wellFormed failed
  exact ⟨fails.regular, fails⟩

/-- A tenant is to be deleted, but an environment is created under it first; then a reading begins.
-/
def friction : List Event := (rivalry.take 8).map .step ++ [.read]

theorem deletion_conflicts_after_friction :
    let office := (start {} .counter).undergoAll friction
    ((start {} .counter).trace drawn friction).Nodup ∧
      (∃ error published, office.answer? (.settle 3) = some (.error error, published) ∧
        error.family = .conflict) ∧
      (start {} .counter).Overtaken friction 3 := by
  intro office
  have distinct : ((start {} .counter).trace drawn friction).Nodup := by decide +kernel
  have conflicts : (office.answer? (.settle 3)).map (fun answer => answer.1.mapError (·.family)) =
      some (.error .conflict) := by decide +kernel
  obtain ⟨⟨outcome, published⟩, answered, family⟩ := Option.map_eq_some_iff.mp conflicts
  cases outcome with
  | ok _ => cases family
  | error error =>
    have family : error.family = .conflict := Except.error.inj family
    have disciplined :=
      (errors_disciplined {} .counter friction distinct).1 3 error published answered
    exact ⟨distinct, ⟨error, published, answered, family⟩, disciplined.2 family⟩

end Office

end Estate
