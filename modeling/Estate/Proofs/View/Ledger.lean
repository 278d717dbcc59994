import Estate.Proofs.Graph.Removals
import Estate.Proofs.View.Hierarchy

/-!
The ledger that notices keep: whoever enters every published notice, in the order of publication,
has what is committed. A mutation decides on its notices while it drafts, and its log may be
replayed on a newer graph; yet its notices tell just what the log does there, and they are published
exactly when it is committed.
-/
namespace Estate

@[ext]
structure Ledger where
  entities : Table Path Entity := ∅
  relationships : Table String Relationship := ∅

namespace Ledger

/-- What is created goes in, what is updated takes the place of what was there, and what is deleted
goes out. -/
def enter (ledger : Ledger) (notice : Notice) : Ledger :=
  match notice.action, notice.element with
  | .created, .entity entity =>
    { ledger with entities := ledger.entities.insert entity.path entity }
  | .created, .relationship rel =>
    { ledger with relationships := ledger.relationships.insert rel.id rel }
  | .updated, .entity entity =>
    { ledger with entities := ledger.entities.modify entity.path fun _ => entity }
  | .updated, .relationship rel =>
    { ledger with relationships := ledger.relationships.modify rel.id fun _ => rel }
  | .deleted, .entity entity => { ledger with entities := ledger.entities.erase entity.path }
  | .deleted, .relationship rel =>
    { ledger with relationships := ledger.relationships.erase rel.id }

def enterAll (ledger : Ledger) (notices : List Notice) : Ledger := notices.foldl enter ledger

theorem enterAll_append (ledger : Ledger) (notices rest : List Notice) :
    ledger.enterAll (notices ++ rest) = (ledger.enterAll notices).enterAll rest := List.foldl_append

theorem entities_enterAll_deleted (ledger : Ledger) (rels : List Relationship) :
    (ledger.enterAll (rels.map (.relationship .deleted))).entities = ledger.entities := by
  induction rels generalizing ledger with
  | nil => rfl
  | cons rel rest ih => exact ih (ledger.enter (.relationship .deleted rel))

theorem find?_enterAll_deleted (ledger : Ledger) (rels : List Relationship) (id : String) :
    (ledger.enterAll (rels.map (.relationship .deleted))).relationships.find? id =
      if id ∈ rels.map (·.id) then none else ledger.relationships.find? id := by
  induction rels generalizing ledger with
  | nil => simp [enterAll]
  | cons rel rest ih =>
    have later := ih (ledger.enter (.relationship .deleted rel))
    simp only [List.map_cons, enterAll, List.foldl_cons] at later ⊢
    rw [later]
    by_cases here : id = rel.id <;> simp [enter, Notice.relationship, here]

end Ledger

def Notice.change (notice : Notice) : Change :=
  match notice.action, notice.element with
  | .created, .entity entity => .insertEntity entity
  | .created, .relationship rel => .insertRelationship rel
  | .updated, .entity entity => .replaceEntity entity
  | .updated, .relationship rel => .replaceRelationship rel
  | .deleted, .entity entity => .removeEntity entity.path
  | .deleted, .relationship rel => .removeRelationship rel.id

namespace Graph

variable {graph next : Graph}

def ledger (graph : Graph) : Ledger :=
  { entities := graph.entities, relationships := graph.relationships }

/-- Where a change goes through, its notice brings the ledger up to date. -/
theorem ledger_after (notice : Notice) (admitted : graph.Admits notice.change) :
    (graph.after notice.change).ledger = graph.ledger.enter notice := by
  obtain ⟨action, element⟩ := notice
  cases element with
  | entity entity =>
    cases action with
    | created | deleted => rfl
    | updated =>
      obtain ⟨old, found⟩ := (Table.contains_iff _ _).mp admitted
      simp [Notice.change, after, ledger, Ledger.enter, Table.modify, found]
  | relationship rel =>
    cases action with
    | created => simp [Notice.change, after, ledger, Ledger.enter]
    | updated =>
      obtain ⟨old, found⟩ := (Table.contains_iff _ _).mp admitted
      simp [Notice.change, after, ledger, Ledger.enter, Table.modify, found]
    | deleted =>
      obtain ⟨old, found⟩ := (Table.contains_iff _ _).mp admitted
      simp [Notice.change, after, ledger, Ledger.enter, found, detachEnds, detach]

theorem ledger_replay {notices : List Notice}
    (replayed : graph.replay (notices.map (·.change)) = .ok next) :
    next.ledger = graph.ledger.enterAll notices := by
  induction notices generalizing graph with
  | nil =>
    obtain rfl := Except.ok.inj replayed
    rfl
  | cons notice rest ih =>
    obtain ⟨admitted, replayed⟩ := replay_cons_eq_ok_iff.mp replayed
    rw [ih replayed, ledger_after notice admitted]
    rfl

end Graph

/-- The notices of a deed tell what its log does on whatever graph it is replayed. -/
theorem Deed.ledger {planned graph next : Graph} {mutation : Mutation} {written : List Change}
    {notices : List Notice} (deed : Deed planned mutation written notices)
    (wellFormed : graph.WellFormed) (replayed : graph.replay written = .ok next) :
    next.ledger = graph.ledger.enterAll notices := by
  have told (same : written = notices.map (·.change)) : next.ledger =
      graph.ledger.enterAll notices := by
    rw [same] at replayed
    exact Graph.ledger_replay replayed
  cases deed with
  | create made wired =>
    apply told
    simp [Notice.change, Notice.entity, Notice.relationship, Function.comp_def]
  | @delete _ _ entity rels stored bare detached =>
    -- the relationships are told in the order of their ids, and removed in that of the list at the
    -- entity
    have same : Act.removals planned entity.path =
        ((planned.touching entity.path .both none).map (·.id)).map .removeRelationship ++
          [.removeEntity entity.path] := by
      rw [Act.removals, List.map_map]
      rfl
    rw [same] at replayed
    have removed := wellFormed.removed_of_replay replayed
    rw [Ledger.enterAll_append]
    apply Ledger.ext
    · show next.entities = (graph.ledger.enterAll (rels.map _)).entities.erase entity.path
      rw [Ledger.entities_enterAll_deleted, removed.entities]
      rfl
    · show next.relationships = (graph.ledger.enterAll (rels.map _)).relationships
      apply Table.ext
      intro id
      rw [Ledger.find?_enterAll_deleted, removed.relationships]
      simp only [(detached.map (·.id)).mem_iff]
      rfl
  | update stored revises | associate named within | disassociate stored named | link apart
  | updateRelationship stored revises | deleteRelationship stored apart => exact told rfl

theorem Deed.written_ne_nil {planned : Graph} {mutation : Mutation} {written : List Change}
    {notices : List Notice} (deed : Deed planned mutation written notices) : written ≠ [] := by
  cases deed <;> simp [Act.removals]

/-- The same engine, which also keeps what it publishes. -/
def Engine.recording {σ : Type} (engine : Engine σ) : Engine (σ × List Notice) :=
  let within {α : Type} (action : StateM σ α) : StateM (σ × List Notice) α := fun (state, kept) =>
    let (value, state) := action.run state
    (value, (state, kept))
  { begin access := within (engine.begin access)
    commit tx := within (engine.commit tx)
    rollback tx := within (engine.rollback tx)
    ids := fun (state, _) => engine.ids state
    withIds ids := fun (state, kept) => (engine.withIds ids state, kept)
    publish notices := do
      within (engine.publish notices)
      modify fun (state, kept) => (state, kept ++ notices) }

def Stage.Done (log : List Change) : Stage → Prop
  | .drafted (.ok result) => ∃ planned mutation, Deed planned mutation log result.notices
  | _ => True

namespace Office

variable {registry : Registry} {office : Office} {number : Nat} {tx : Transaction}

/-- What settling a mutation answers, and the notices it publishes. -/
def answer? (office : Office) : Step → Option (Except Error Unit × List Notice)
  | .settle number =>
    match office.underway.find? number, office.stages.find? number with
    | some tx, some (.drafted outcome) =>
      let (answer, (_, published)) :=
        (engine.recording.settle tx outcome).run (office.inventory, [])
      some (answer, published)
    | _, _ => none
  | _ => none

def published (office : Office) (step : Step) : List Notice :=
  ((office.answer? step).map (·.2)).getD []

def publications (office : Office) : List Step → List Notice
  | [] => []
  | step :: rest => office.published step ++ (office.step step).publications rest

/-- What a settled mutation answers and publishes: all it announced once its commit succeeds, and
otherwise nothing. -/
theorem answer?_settle {outcome : Except Error (Announced Unit)}
    (present : office.underway.find? number = some tx)
    (drafted : office.stages.find? number = some (.drafted outcome)) :
    office.answer? (.settle number) = some
      (match outcome with
      | .error error => (.error error, [])
      | .ok result =>
        match office.inventory.store.commit tx with
        | .ok _ => (.ok result.value, result.notices)
        | .error error => (.error error, [])) := by
  simp only [answer?, present, drafted]
  cases outcome with
  | error error => rfl
  | ok result =>
    have commits := commit_eq tx office.inventory
    cases outcome : office.inventory.store.commit tx with
    | ok store =>
      rw [outcome] at commits
      simp only [Engine.settle, Engine.recording, StateT.run_bind]
      simp only [StateT.run] at commits ⊢
      simp [commits, Except.map]
      rfl
    | error error =>
      rw [outcome] at commits
      simp only [Engine.settle, Engine.recording, StateT.run_bind]
      simp only [StateT.run] at commits ⊢
      simp [commits, Except.map]
      rfl

theorem answer?_settle_undue
    (undue : ¬∃ tx outcome, office.underway.find? number = some tx ∧
      office.stages.find? number = some (.drafted outcome)) : office.answer? (.settle number) =
        none := by
  simp only [answer?]
  split
  · rename_i tx outcome present drafted
    exact absurd ⟨tx, outcome, present, drafted⟩ undue
  · rfl

theorem store_draft (office : Office) (number : Nat) :
    (office.step (.draft number)).inventory.store = office.inventory.store := by
  simp only [Office.step]
  split <;> rfl

/-- A mutation that ends in an error has published nothing. -/
theorem published_of_error {step : Step} {error : Error} {published : List Notice}
    (failed : office.answer? step = some (.error error, published)) : published = [] := by
  cases step with
  | begin offer | draft number => cases failed
  | settle number =>
    by_cases due : ∃ tx outcome, office.underway.find? number = some tx ∧
        office.stages.find? number = some (.drafted outcome)
    · obtain ⟨tx, outcome, present, drafted⟩ := due
      rw [answer?_settle present drafted] at failed
      split at failed
      · simp_all
      · split at failed
        · cases failed
        · simp_all
    · rw [answer?_settle_undue due] at failed
      cases failed

/-- How an office stands to the notices published so far. -/
structure Told (office : Office) (notices : List Notice) : Prop where
  done : ∀ {number tx stage}, office.underway.find? number = some tx →
    office.stages.find? number = some stage →
    stage.Done tx.log
  ledger : office.inventory.store.committed.ledger = ({} : Ledger).enterAll notices

theorem told_start (settings : Settings) (ids : IdSource) : (start settings ids).Told [] where
  done present := nomatch present
  ledger := rfl

namespace Told

variable {notices : List Notice}

theorem done_step (told : office.Told notices) (kept : office.Kept registry) {step : Step}
    {stage : Stage} (present : (office.step step).underway.find? number = some tx)
    (reached : (office.step step).stages.find? number = some stage) : stage.Done tx.log := by
  refine standing_step (fun tx stage => stage.Done tx.log) told.done ?_ ?_ present reached
  · intro offer
    trivial
  · intro number tx offer outcome later _ present begun performed
    cases outcome with
    | error error => trivial
    | ok result =>
      have deed := kept.deed_drafted present begun performed
      exact ⟨_, _, deed⟩

/-- How a mutation that is due is settled: as its body failed, or in conflict, or as its deed. -/
theorem settle_cases (told : office.Told notices) (kept : office.Kept registry)
    {outcome : Except Error (Announced Unit)} (present : office.underway.find? number = some tx)
    (drafted : office.stages.find? number = some (.drafted outcome)) :
    let graph := office.inventory.store.committed
    let next := (office.step (.settle number)).inventory.store.committed
    (∃ error, outcome = .error error ∧ next = graph ∧
      office.answer? (.settle number) = some (.error error, [])) ∨
      ∃ result planned mutation, outcome = .ok result ∧
        Deed planned mutation tx.log result.notices ∧
        ((∃ why, graph.replay tx.log = .error why ∧ next = graph ∧
            office.answer? (.settle number) = some (.error (.conflict why), [])) ∨
          graph.replay tx.log = .ok next ∧
          office.answer? (.settle number) = some (.ok (), result.notices)) := by
  intro graph next
  have stepped : next = (ended office.inventory.store tx outcome).committed :=
    congrArg (·.inventory.store.committed) (step_settle present drafted)
  rw [answer?_settle present drafted, stepped]
  cases outcome with
  | error error => exact .inl ⟨error, rfl, rfl, rfl⟩
  | ok result =>
    obtain ⟨planned, mutation, deed⟩ : ∃ planned mutation,
        Deed planned mutation tx.log result.notices :=
      told.done present drafted
    refine .inr ⟨result, planned, mutation, rfl, deed, ?_⟩
    have current : tx.Current office.inventory.store := kept.faithful number tx present
    have commits := Store.commit_eq_replay current deed.written_ne_nil
    cases replayed : graph.replay tx.log with
    | error why =>
      rw [show office.inventory.store.committed.replay tx.log = _ from replayed] at commits
      exact .inl ⟨why, rfl, by simp only [ended, Traffic.settled, commits]; rfl,
        by simp only [commits]⟩
    | ok graph =>
      rw [show office.inventory.store.committed.replay tx.log = _ from replayed] at commits
      refine .inr ⟨?_, by simp only [commits]⟩
      simp only [ended, Traffic.settled, commits]
      rfl

/-- Notices are published along with the log that they tell of, or neither comes to anything. -/
theorem ledger_settled (told : office.Told notices) (kept : office.Kept registry)
    {outcome : Except Error (Announced Unit)} (present : office.underway.find? number = some tx)
    (drafted : office.stages.find? number = some (.drafted outcome)) :
    (office.step (.settle number)).inventory.store.committed.ledger =
      ({} : Ledger).enterAll (notices ++ office.published (.settle number)) := by
  rcases told.settle_cases kept present drafted with ⟨error, -, same, answered⟩ |
    ⟨result, planned, mutation, -, deed, ⟨why, -, same, answered⟩ | ⟨replayed, answered⟩⟩
  · simpa [published, answered, same] using told.ledger
  · simpa [published, answered, same] using told.ledger
  · rw [published, answered, Option.map_some, Option.getD_some, Ledger.enterAll_append,
      ← told.ledger]
    exact deed.ledger kept.consistent.committed.toWellFormed replayed

theorem step (told : office.Told notices) (kept : office.Kept registry) (step : Step) :
    (office.step step).Told (notices ++ office.published step) where
  done := told.done_step kept
  ledger := by
    cases step with
    | begin offer =>
      show office.inventory.store.committed.ledger = _
      simpa [published, answer?] using told.ledger
    | draft number =>
      rw [store_draft]
      simpa [published, answer?] using told.ledger
    | settle number =>
      by_cases due : ∃ tx outcome, office.underway.find? number = some tx ∧
          office.stages.find? number = some (.drafted outcome)
      · obtain ⟨tx, outcome, present, drafted⟩ := due
        exact told.ledger_settled kept present drafted
      · rw [step_settle_undue due, published, answer?_settle_undue due]
        simpa using told.ledger

end Told

/-- As long as no id is given to two relationships, the ledger of all notices published so far is
what is committed, after every step of any mutations under way at once; and a mutation that ends in
an error has published nothing. -/
theorem publications_tell_committed (settings : Settings) (ids : IdSource) (steps : List Step)
    (distinct : ((start settings ids).related steps).Nodup) :
    let office := (start settings ids).run steps
    office.inventory.store.committed.ledger = ({} : Ledger).enterAll
      ((start settings ids).publications steps) ∧
      ∀ step error published, office.answer? step = some (.error error, published) →
        published = [] := by
  intro office
  let holds (_ : Registry) (office : Office) (rest : List Step) : Prop :=
    ∃ notices, office.Told notices ∧
      notices ++ office.publications rest = (start settings ids).publications steps
  have keeps {registry : Registry} {office : Office} {step : Step} {rest : List Step}
      {next : Registry}
      (kept : office.Kept registry) (held : holds registry office (step :: rest))
      (_ : registry.Extends next) :
      holds next (office.step step) rest := by
    obtain ⟨notices, told, same⟩ := held
    refine ⟨notices ++ office.published step, told.step kept step, ?_⟩
    rw [List.append_assoc]
    exact same
  obtain ⟨registry, -, notices, told, same⟩ :=
    Kept.run_keeping holds keeps (kept_start settings ids) steps ⟨[], told_start settings ids, rfl⟩
      distinct fun id new => rfl
  rw [publications, List.append_nil] at same
  constructor
  · rw [← same]
    exact told.ledger
  · intro step error published failed
    exact published_of_error failed

theorem rivalry_told :
    ((start {} .counter).related rivalry).Nodup ∧
      ((start {} .counter).run rivalry).inventory.store.committed.ledger =
        ({} : Ledger).enterAll ((start {} .counter).publications rivalry) ∧
      (({} : Ledger).enterAll ((start {} .counter).publications rivalry)).relationships.size =
        1 := by
  have distinct : ((start {} .counter).related rivalry).Nodup := by decide +kernel
  have told := (publications_tell_committed {} .counter rivalry distinct).1
  refine ⟨distinct, told, ?_⟩
  rw [← told]
  decide +kernel

end Office

end Estate
