import Estate.Proofs.View.Office

namespace Estate

/-- What a mutation has written by the time it reaches a stage: nothing before its body runs, and a
tidy log if that succeeds. -/
def Stage.Logs (registry : Registry) (log : List Change) : Stage → Prop
  | .begun _ => log = []
  | .drafted (.ok _) => Tidy registry none log
  | .drafted (.error _) => True

theorem Stage.Logs.extend {registry next : Registry} {log : List Change} {stage : Stage}
    (logs : stage.Logs registry log) (more : registry.Extends next) : stage.Logs next log := by
  rcases stage with offer | (error | result)
  · exact logs
  · trivial
  · exact Tidy.extend logs more

namespace Office

variable {registry next : Registry} {office : Office} {number : Nat} {tx : Transaction}

/-- How an office stands to a registry between steps. -/
structure Kept (registry : Registry) (office : Office) : Prop where
  consistent : office.traffic.Consistent registry
  faithful : office.traffic.Faithful
  mirrored : office.inventory.store.committed.Mirrored none
  logs : ∀ {number tx stage}, office.underway.find? number = some tx →
    office.stages.find? number = some stage →
    stage.Logs registry tx.log

theorem kept_start (settings : Settings) (ids : IdSource) :
    (start settings ids).Kept fun _ => none where
  consistent := Traffic.consistent_start ids
  faithful := Traffic.faithful_run ids []
  mirrored := .empty
  logs present := nomatch present

namespace Kept

variable (kept : office.Kept registry)
include kept

/-- Only settling a mutation whose body succeeded changes what is committed: its log is replayed on
it. -/
theorem committed_step (step : Step) :
    (office.step step).inventory.store.committed = office.inventory.store.committed ∨
      ∃ number tx result, office.underway.find? number = some tx ∧
        office.stages.find? number = some (.drafted (.ok result)) ∧
        office.inventory.store.committed.replay tx.log =
          .ok (office.step step).inventory.store.committed := by
  rcases office.step_cases step with same | ⟨offer, -, stepped⟩ |
    ⟨number, tx, offer, outcome, later, -, -, -, -, stepped⟩ | ⟨number, tx, outcome, -, present,
      drafted, stepped⟩
  · exact .inl (by rw [same])
  · exact .inl (by rw [stepped]; rfl)
  · exact .inl (by rw [stepped])
  · rw [stepped]
    cases outcome with
    | error error => exact .inl rfl
    | ok result =>
      rcases Traffic.settled_cases (kept.faithful number tx present)
        with same | ⟨graph, replayed, moved⟩
      · exact .inl (congrArg Store.committed same)
      · refine .inr ⟨number, tx, result, present, drafted, ?_⟩
        rw [show ended office.inventory.store tx (.ok result) =
          office.inventory.store.advance graph from moved]
        exact replayed

theorem mirrored_step (step : Step) :
    (office.step step).inventory.store.committed.Mirrored none := by
  rcases kept.committed_step step with same | ⟨number, tx, result, present, drafted, replayed⟩
  · rw [same]
    exact kept.mirrored
  · exact (kept.logs present drafted).replay (kept.consistent.fits present) kept.mirrored replayed

/-- What a body leaves where it succeeds is what its deed writes, for nothing was written before. -/
theorem deed_drafted {offer : Offer} {later : Draft} {result : Announced Unit}
    (present : office.underway.find? number = some tx)
    (begun : office.stages.find? number = some (.begun offer))
    (performed : (offer.1.body office.inventory.settings).perform ⟨tx, office.inventory.ids⟩ =
      (.ok result, later)) :
    Deed tx.working offer.1 later.tx.log result.notices := by
  have sound : registry.Sound tx.working := kept.consistent.working present
  have blank : tx.log = [] := kept.logs present begun
  obtain ⟨written, wrote, deed⟩ :=
    @Mutation.does office.inventory.settings offer.1
      ⟨tx, office.inventory.ids⟩ _ _ sound.toWellFormed performed
  have same : later.tx.log = written := by rw [wrote.log, blank, List.nil_append]
  rw [same]
  exact deed

theorem logs_step {step : Step} {stage : Stage}
    (present : (office.step step).underway.find? number = some tx)
    (reached : (office.step step).stages.find? number = some stage) :
    stage.Logs registry tx.log := by
  refine standing_step (fun tx stage => stage.Logs registry tx.log) kept.logs ?_ ?_ present reached
  · intro offer
    rfl
  · intro number tx offer outcome later _ present begun performed
    cases outcome with
    | error error => trivial
    | ok result =>
      exact (kept.deed_drafted present begun performed).tidy offer.2
        (kept.consistent.working present)

theorem step (step : Step) (distinct : (Change.inserted (office.written step)).Nodup)
    (fresh : ∀ id ∈ Change.inserted (office.written step), registry id = none) :
    ∃ next, registry.Extends next ∧ (office.step step).Kept next ∧
      ∀ id, registry id = none → id ∉ Change.inserted (office.written step) → next id = none := by
  obtain ⟨calls, same, related⟩ := office.traffic_step step
  rw [← related] at distinct fresh ⊢
  obtain ⟨next, more, consistent, others⟩ := kept.consistent.run kept.faithful calls distinct fresh
  refine ⟨next, more, ?_, others⟩
  exact {
    consistent := by
      rw [same]
      exact consistent
    faithful := by
      rw [same]
      exact kept.faithful.run calls
    mirrored := kept.mirrored_step step
    logs := fun present reached => (kept.logs_step present reached).extend more }

omit kept in
/-- An office is kept, as long as no id is given to two relationships; and so is whatever a step
keeps of what holds with the steps still to come. -/
theorem run_keeping (holds : Registry → Office → List Step → Prop)
    (keeps : ∀ {registry office step rest next}, office.Kept registry →
      holds registry office (step :: rest) →
      registry.Extends next → holds next (office.step step) rest)
    (kept : office.Kept registry) (steps : List Step) (held : holds registry office steps)
    (distinct : (office.related steps).Nodup)
    (fresh : ∀ id ∈ office.related steps, registry id = none) :
    ∃ next, (office.run steps).Kept next ∧ holds next (office.run steps) [] := by
  induction steps generalizing office registry with
  | nil => exact ⟨registry, kept, held⟩
  | cons step rest ih =>
    rw [related, List.nodup_append] at distinct
    obtain ⟨next, more, stepped, others⟩ :=
      kept.step step distinct.1 fun id new => fresh id (List.mem_append_left _ new)
    refine ih stepped (keeps kept held more) distinct.2.1 fun id new => ?_
    exact others id (fresh id (List.mem_append_right _ new)) fun twice =>
      distinct.2.2 id twice id new rfl

theorem run (steps : List Step) (distinct : (office.related steps).Nodup)
    (fresh : ∀ id ∈ office.related steps, registry id = none) :
    ∃ next, (office.run steps).Kept next := by
  obtain ⟨next, ran, -⟩ :=
    run_keeping (fun _ _ _ => True) (fun _ _ _ => trivial) kept steps trivial distinct fresh
  exact ⟨next, ran⟩

end Kept

/-- As long as no id is given to two relationships, containment mirrors the paths of what is
committed, whatever mutations are under way at once and however their steps are mixed. -/
theorem committed_hierarchical (settings : Settings) (ids : IdSource) (steps : List Step)
    (distinct : ((start settings ids).related steps).Nodup) :
    ((start settings ids).run steps).inventory.store.committed.Hierarchical := by
  obtain ⟨registry, kept⟩ := (kept_start settings ids).run steps distinct fun id new => rfl
  have sound := kept.consistent.committed
  exact kept.mirrored.hierarchical sound.toWellFormed sound.exclusive

def environments (tenant : String) : Listing :=
  { kind := .environment
    position := (tenants.get tenant).position.proceedTo .contains .environment
    scope := .manage }

theorem reached_environments (tenant : String) :
    Script.AnyView.Reached (.listing (environments tenant)) :=
  @Script.AnyView.Reached.move (.single (tenants.get tenant)) _ (.follow .environments)
    (@Script.AnyView.Reached.move (.listing tenants) _ (.get tenant) .tenants rfl) rfl

/-- A tenant is to be deleted while an environment is created under it, and that environment while
it is updated. -/
def rivalry : List Step :=
  let tenant : Step :=
    .begin ⟨.create tenants { id := some "t", details := .tenant }, .tenants, rfl, rfl⟩
  let environment : Step :=
    .begin ⟨.create (environments "t") { id := some "e", details := .environment },
      reached_environments "t", rfl, rfl⟩
  let close : Step := .begin ⟨.delete tenants "t", .tenants, rfl⟩
  let update : Step := .begin ⟨.update (environments "t") "e" {}, reached_environments "t", rfl⟩
  let remove : Step := .begin ⟨.delete (environments "t") "e", reached_environments "t", rfl⟩
  [tenant, .draft 1, .settle 1, environment, close, .draft 2, .draft 3, .settle 2, .settle 3,
    update, remove, .draft 5, .draft 4, .settle 5, environment, .draft 6, .settle 4, .settle 6]

theorem hierarchical_after_rivalry :
    ((start {} .counter).related rivalry).Nodup ∧
      ((start {} .counter).run rivalry).inventory.store.committed.relationships.size = 1 ∧
      ((start {} .counter).run rivalry).inventory.store.committed.Hierarchical := by
  have distinct : ((start {} .counter).related rivalry).Nodup := by decide +kernel
  have contained : ((start {} .counter).run rivalry).inventory.store.committed.relationships.size =
      1 := by
    decide +kernel
  exact ⟨distinct, contained, committed_hierarchical {} .counter rivalry distinct⟩

end Office

end Estate
