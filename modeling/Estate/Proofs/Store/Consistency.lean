import Estate.Proofs.Store.Registry
import Estate.Proofs.Store.Replay

/-!
Every graph that traffic on a store leads to is well formed, as long as no id is given to two
relationships. Such an id is registered when its relationship is written, as its transaction's; so a
log replayed on what was committed meanwhile never brings an id that is stored already.
-/
namespace Estate

variable {registry : Registry} {draft : Draft} {traffic : Traffic} {tx next : Transaction}
  {number : Nat} {act : Act} {log : List Change}

namespace Act

def written (act : Act) (draft : Draft) : List Change :=
  (act.run draft).tx.log.drop draft.tx.log.length

/-- An act writes what it set out to write, up to the first refusal. -/
theorem run_wrote (act : Act) (draft : Draft) :
    act.written draft <+: act.changes draft ∧
      draft.tx.Wrote (act.run draft).tx (act.written draft) := by
  obtain ⟨changes, begun, wrote⟩ := draft.tx.attempt_wrote (act.changes draft)
  have same : act.written draft = changes := by
    rw [written, run_eq, wrote.log, List.drop_left]
  rw [same, run_eq]
  exact ⟨begun, wrote⟩

theorem log_runAll (acts : List Act) (draft : Draft) :
    (runAll acts draft).tx.log = draft.tx.log ++
      (runAll acts draft).tx.log.drop draft.tx.log.length := by
  have logs : draft.tx.log <+: (runAll acts draft).tx.log := by
    induction acts generalizing draft with
    | nil => exact List.prefix_refl _
    | cons act rest ih =>
      exact List.IsPrefix.trans ⟨_, (act.run_wrote draft).2.log.symm⟩ (ih (act.run draft))
  exact (List.prefix_iff_eq_append.mp logs).symm

end Act

namespace Registry

theorem logged_replacement {graph : Graph} (sound : registry.Sound graph) {handle : Handle}
    {old revised : Element} {revision : Update} (found : graph.element? handle = some old)
    (success : old.revise revision = .ok revised) :
    registry.Logged number revised.replacement := by
  cases handle with
  | entity path =>
    obtain ⟨entity, stored, rfl⟩ := Option.map_eq_some_iff.mp found
    obtain ⟨next, revised, rfl⟩ := Element.revise_entity_eq_ok_iff.mp success
    have kinds := sound.kinds stored
    rw [← sound.entity stored] at kinds
    show next.details.kind = next.path.kind
    rw [Entity.kind_revise revised, Entity.path_revise revised, kinds]
  | relationship id =>
    obtain ⟨rel, stored, rfl⟩ := Option.map_eq_some_iff.mp found
    obtain ⟨next, revised, rfl⟩ := Element.revise_relationship_eq_ok_iff.mp success
    obtain ⟨writer, known⟩ := sound.registered stored
    refine ⟨writer, ?_⟩
    rw [Relationship.id_revise revised, Relationship.edge_revise revised, sound.relationship stored,
      known]

/-- What an act sets out to write is known to the registry, new relationships apart. -/
theorem logged_changes (sound : registry.Sound draft.tx.working) {change : Change}
    (member : change ∈ act.changes draft) :
    registry.Logged number change ∨ ∃ rel, change = .insertRelationship rel := by
  cases act with
  | read reading | draw => simp [Act.changes] at member
  | persist path blueprint =>
    cases made : Entity.ofBlueprint path blueprint with
    | error error => simp [Act.changes, made] at member
    | ok entity =>
      simp only [Act.changes, made, List.mem_singleton] at member
      subst member
      exact .inl (Entity.kind_ofBlueprint made)
  | relate source target name properties =>
    cases source <;> cases target <;> simp only [Act.changes, List.not_mem_nil, List.mem_singleton]
      at member
    exact .inr ⟨_, member⟩
  | update handle revision =>
    obtain ⟨old, revised, found, success, rfl⟩ := Act.mem_changes_update.mp member
    exact .inl (logged_replacement sound found success)
  | delete handle =>
    rcases Act.removal_of_mem_changes_delete member
      with ⟨path, rfl⟩ | ⟨id, rfl⟩ <;> exact .inl trivial

/-- What an act writes joins the records of its transaction, and keeps its working graph sound. -/
theorem Records.acted (records : registry.Records number log)
    (sound : registry.Sound draft.tx.working) (act : Act)
    (distinct : (Change.inserted (act.written draft)).Nodup)
    (fresh : ∀ id ∈ Change.inserted (act.written draft), registry id = none) :
    (registry.note number (act.written draft)).Records number (log ++ act.written draft) ∧
      (registry.note number (act.written draft)).Sound (act.run draft).tx.working := by
  obtain ⟨begun, wrote⟩ := act.run_wrote draft
  obtain ⟨more, noted⟩ := @extends_note registry _ number distinct fresh
  have logged : ∀ change ∈ act.written draft, (registry.note number (act.written draft)).Logged
      number change := by
    intro change member
    rcases @logged_changes registry draft number act sound change (begun.subset member)
      with known | ⟨rel, rfl⟩
    · exact known.extend more
    · exact noted rel member
  constructor
  · refine ⟨fun change member => ?_, ?_⟩
    · rcases List.mem_append.mp member with earlier | new
      · exact (records.logged change earlier).extend more
      · exact logged change new
    · rw [Change.inserted_append, List.nodup_append]
      refine ⟨records.distinct, distinct, ?_⟩
      rintro id earlier _ new rfl
      obtain ⟨edge, known⟩ := records.inserted earlier
      simp [fresh id new] at known
  · refine Fits.replay ⟨sound.extend more, ⟨logged, distinct⟩, fun id member => ?_⟩ wrote.replayed
    cases stored : draft.tx.working.relationships.find? id with
    | none => rfl
    | some rel =>
      obtain ⟨writer, known⟩ := sound.registered stored
      simp [fresh id member] at known

end Registry

namespace Traffic

/-- How the graphs of a store and of the transactions under way stand to a registry. -/
structure Consistent (registry : Registry) (traffic : Traffic) : Prop where
  committed : registry.Sound traffic.store.committed
  /-- whoever wrote what is committed is done -/
  closed : ∀ {id rel stamp}, traffic.store.committed.relationships.find? id = some rel →
    registry id = some stamp → traffic.underway.find? stamp.writer = none
  begun : ∀ {id stamp}, registry id = some stamp → stamp.writer ≤ traffic.store.begun
  numbered : ∀ {number tx}, traffic.underway.find? number = some tx → number ≤ traffic.store.begun
  working : ∀ {number tx}, traffic.underway.find? number = some tx → registry.Sound tx.working
  records : ∀ {number tx}, traffic.underway.find? number = some tx → registry.Records number tx.log

def written (traffic : Traffic) : Call → List Change
  | .act number act =>
    match traffic.underway.find? number with
    | some tx => act.written ⟨tx, traffic.ids⟩
    | none => []
  | _ => []

/-- The ids under which calls relate entities, in order. -/
def related (traffic : Traffic) : List Call → List String
  | [] => []
  | call :: rest => Change.inserted (traffic.written call) ++ (traffic.step call).related rest

theorem run_acts (present : traffic.underway.find? number = some tx) (acts : List Act) :
    let later := Act.runAll acts ⟨tx, traffic.ids⟩
    traffic.run (acts.map (.act number)) =
        { traffic with ids := later.ids, underway := traffic.underway.insert number later.tx } ∧
      traffic.related (acts.map (.act number)) =
        Change.inserted (later.tx.log.drop tx.log.length) := by
  induction acts generalizing traffic tx with
  | nil =>
    constructor
    · simp [Act.runAll, run, Table.insert_of_find? present]
    · simp [Act.runAll, related, Change.inserted]
  | cons act rest ih =>
    have acted := underway_act present act number
    rw [if_pos rfl] at acted
    have stepped : traffic.step (.act number act) = { traffic with
        ids := (act.run ⟨tx, traffic.ids⟩).ids
        underway := traffic.underway.insert number (act.run ⟨tx, traffic.ids⟩).tx } := by
      simp [step, present]
    obtain ⟨ran, inserted⟩ := ih acted
    simp only [stepped] at ran inserted
    constructor
    · rw [List.map_cons, run_cons, stepped, ran, Table.insert_insert]
      rfl
    · have wrote := (act.run_wrote ⟨tx, traffic.ids⟩).2.log
      have logs := Act.log_runAll rest (act.run ⟨tx, traffic.ids⟩)
      rw [congrArg (· ++ _) wrote, List.append_assoc] at logs
      rw [List.map_cons, related, stepped, inserted, ← Change.inserted_append]
      simp only [written, present]
      exact congrArg Change.inserted
        ((congrArg (List.drop tx.log.length) logs).trans List.drop_left).symm

def noted (registry : Registry) (traffic : Traffic) : Call → Registry
  | .act number act => registry.note number (traffic.written (.act number act))
  | _ => registry

namespace Consistent

variable (consistent : traffic.Consistent registry)
include consistent

theorem begin (access : Access) : (traffic.step (.begin access)).Consistent registry where
  committed := consistent.committed
  closed {id rel stamp} found known := by
    have earlier := consistent.begun known
    rw [underway_begin, if_neg (by omega)]
    exact consistent.closed found known
  begun known := Nat.le_succ_of_le (consistent.begun known)
  numbered {other next} found := by
    show other ≤ traffic.store.begun + 1
    rw [underway_begin] at found
    split at found
    · omega
    · have numbered := consistent.numbered found
      omega
  working found := by
    rw [underway_begin] at found
    split at found
    · obtain rfl := Option.some.inj found
      exact consistent.committed
    · exact consistent.working found
  records found := by
    rw [underway_begin] at found
    split at found
    · obtain rfl := Option.some.inj found
      exact ⟨by simp [Store.begin], by simp [Store.begin, Change.inserted]⟩
    · exact consistent.records found

theorem acting (present : traffic.underway.find? number = some tx)
    (distinct : (Change.inserted (act.written ⟨tx, traffic.ids⟩)).Nodup)
    (fresh : ∀ id ∈ Change.inserted (act.written ⟨tx, traffic.ids⟩), registry id = none) :
    (traffic.step (.act number act)).Consistent
      (registry.note number (act.written ⟨tx, traffic.ids⟩)) := by
  have more := (@Registry.extends_note registry _ number distinct fresh).1
  have same : (traffic.step (.act number act)).store = traffic.store := by simp [step, present]
  obtain ⟨recorded, sound⟩ :=
    @Registry.Records.acted registry ⟨tx, traffic.ids⟩ number _ (consistent.records present)
      (consistent.working present) act distinct fresh
  exact {
    committed := by
      rw [same]
      exact consistent.committed.extend more
    closed := fun {id rel stamp} found known => by
      rw [same] at found
      rcases Registry.known_of_note known with earlier | ⟨-, new⟩
      · have done := consistent.closed found earlier
        rw [underway_act present, if_neg (fun acting => by simp [acting, present] at done), done]
      · obtain ⟨writer, taken⟩ := consistent.committed.registered found
        simp [fresh id new] at taken
    begun := fun {id stamp} known => by
      rw [same]
      rcases Registry.known_of_note known with earlier | ⟨own, -⟩
      · exact consistent.begun earlier
      · rw [own]
        exact consistent.numbered present
    numbered := fun {other next} found => by
      rw [same]
      rw [underway_act present] at found
      split at found
      · rename_i here
        rw [here]
        exact consistent.numbered present
      · exact consistent.numbered found
    working := fun {other next} found => by
      rw [underway_act present] at found
      split at found
      · obtain rfl := Option.some.inj found
        exact sound
      · exact (consistent.working found).extend more
    records := fun {other next} found => by
      rw [underway_act present] at found
      split at found
      · rename_i here
        obtain rfl := Option.some.inj found
        rw [here, (act.run_wrote ⟨tx, traffic.ids⟩).2.log]
        exact recorded
      · exact (consistent.records found).extend more }

/-- A transaction that is done leaves a store whose relationships were stored before, or are its
own. -/
theorem ended {store : Store} (committed : registry.Sound store.committed)
    (closed : ∀ {id rel stamp}, store.committed.relationships.find? id = some rel →
      registry id = some stamp →
      stamp.writer = number ∨ traffic.underway.find? stamp.writer = none)
    (begun : store.begun = traffic.store.begun) :
    Consistent registry { traffic with store, underway := traffic.underway.erase number } where
  committed := committed
  closed found known := by
    rcases closed found known with own | done
    · simp [own]
    · simp [Table.find?_erase, done]
  begun known := by
    rw [begun]
    exact consistent.begun known
  numbered found := by
    rw [Table.find?_erase] at found
    rw [begun]
    split at found
    · cases found
    · exact consistent.numbered found
  working found := by
    rw [Table.find?_erase] at found
    split at found
    · cases found
    · exact consistent.working found
  records found := by
    rw [Table.find?_erase] at found
    split at found
    · cases found
    · exact consistent.records found

theorem rollback (number : Nat) : (traffic.step (.rollback number)).Consistent registry :=
  consistent.ended consistent.committed
    (fun found known => .inr (consistent.closed found known)) rfl

/-- What was committed meanwhile lacks every id that a log inserts, for the ids of others are not
its writer's. -/
theorem fits (present : traffic.underway.find? number = some tx) :
    registry.Fits number tx.log traffic.store.committed := by
  have records := consistent.records present
  refine ⟨consistent.committed, records, fun id member => ?_⟩
  obtain ⟨edge, known⟩ := records.inserted member
  cases stored : traffic.store.committed.relationships.find? id with
  | none => rfl
  | some rel =>
    -- whoever wrote it would be done, but this transaction did
    have done := consistent.closed stored known
    rw [present] at done
    cases done

theorem commit (faithful : traffic.Faithful) (number : Nat) :
    (traffic.step (.commit number)).Consistent registry := by
  cases present : traffic.underway.find? number with
  | none => simpa only [step, present] using consistent
  | some tx =>
    simp only [step, present]
    rcases settled_cases (faithful number tx present) with same | ⟨graph, replayed, moved⟩
    · rw [same]
      exact consistent.ended consistent.committed
        (fun found known => .inr (consistent.closed found known)) rfl
    · rw [moved]
      have fits := consistent.fits present
      refine consistent.ended (fits.replay replayed) (fun {id rel stamp} found known => ?_) rfl
      rcases Graph.relationship_of_replay replayed found with stored | inserted
      · obtain ⟨old, stored⟩ := (Table.contains_iff _ _).mp stored
        exact .inr (consistent.closed stored known)
      · obtain ⟨edge, own⟩ := fits.records.inserted inserted
        obtain rfl := Option.some.inj (own.symm.trans known)
        exact .inl rfl

theorem step (faithful : traffic.Faithful) (call : Call)
    (distinct : (Change.inserted (traffic.written call)).Nodup)
    (fresh : ∀ id ∈ Change.inserted (traffic.written call), registry id = none) :
    (traffic.step call).Consistent (noted registry traffic call) := by
  cases call with
  | begin access => exact consistent.begin access
  | act number act =>
    cases present : traffic.underway.find? number with
    | none =>
      simp only [noted, written, Traffic.step, present]
      exact consistent
    | some tx =>
      simp only [written, present] at distinct fresh
      simp only [noted, written, present]
      exact consistent.acting present distinct fresh
  | commit number => exact consistent.commit faithful number
  | rollback number => exact consistent.rollback number

end Consistent

theorem consistent_start (ids : IdSource) : (start ids).Consistent fun _ => none where
  committed := .empty _
  closed found := nomatch found
  begun known := nomatch known
  numbered found := nomatch found
  working found := nomatch found
  records found := nomatch found

theorem extends_noted {call : Call} (distinct : (Change.inserted (traffic.written call)).Nodup)
    (fresh : ∀ id ∈ Change.inserted (traffic.written call), registry id = none) :
    registry.Extends (noted registry traffic call) := by
  cases call with
  | begin access | commit number | rollback number => exact .refl registry
  | act number act => exact (Registry.extends_note distinct fresh).1

theorem noted_eq_none {call : Call} {id : String} (unknown : registry id = none)
    (other : id ∉ Change.inserted (traffic.written call)) :
    noted registry traffic call id = none := by
  cases call with
  | begin access | commit number | rollback number => exact unknown
  | act number act =>
    cases known : noted registry traffic (.act number act) id with
    | none => rfl
    | some stamp =>
      rcases Registry.known_of_note known with earlier | ⟨-, new⟩
      · simp [unknown] at earlier
      · exact absurd new other

/-- Consistency lasts, as long as no id is given to two relationships; and so does whatever a call
keeps of what holds with the calls still to come. -/
theorem Consistent.run_keeping (holds : Registry → Traffic → List Call → Prop)
    (keeps : ∀ {registry traffic call rest}, traffic.Consistent registry →
      holds registry traffic (call :: rest) →
      registry.Extends (noted registry traffic call) →
      holds (noted registry traffic call) (traffic.step call) rest)
    (consistent : traffic.Consistent registry) (faithful : traffic.Faithful) (calls : List Call)
    (held : holds registry traffic calls) (distinct : (traffic.related calls).Nodup)
    (fresh : ∀ id ∈ traffic.related calls, registry id = none) :
    ∃ next, registry.Extends next ∧ (traffic.run calls).Consistent next ∧
      holds next (traffic.run calls) [] ∧
      ∀ id, registry id = none → id ∉ traffic.related calls → next id = none := by
  induction calls generalizing traffic registry with
  | nil => exact ⟨registry, .refl registry, consistent, held, fun _ unknown _ => unknown⟩
  | cons call rest ih =>
    rw [related, List.nodup_append] at distinct
    have first : ∀ id ∈ Change.inserted (traffic.written call), registry id = none := fun id new =>
      fresh id (List.mem_append_left _ new)
    have later : ∀ id ∈ (traffic.step call).related rest, noted registry traffic call id =
        none := by
      intro id new
      refine noted_eq_none (fresh id (List.mem_append_right _ new)) fun twice => ?_
      exact distinct.2.2 id twice id new rfl
    have more := extends_noted distinct.1 first
    obtain ⟨next, further, kept, still, others⟩ :=
      ih (consistent.step faithful call distinct.1 first) (faithful.step call)
        (keeps consistent held more)
        distinct.2.1 later
    refine ⟨next, more.trans further, kept, still, ?_⟩
    intro id unknown absent
    rw [related, List.mem_append, not_or] at absent
    exact others id (noted_eq_none unknown absent.1) absent.2

theorem Consistent.run (consistent : traffic.Consistent registry) (faithful : traffic.Faithful)
    (calls : List Call) (distinct : (traffic.related calls).Nodup)
    (fresh : ∀ id ∈ traffic.related calls, registry id = none) :
    ∃ next, registry.Extends next ∧ (traffic.run calls).Consistent next ∧
      ∀ id, registry id = none → id ∉ traffic.related calls → next id = none := by
  obtain ⟨next, more, kept, -, others⟩ :=
    consistent.run_keeping (fun _ _ _ => True) (fun _ _ _ => trivial) faithful calls trivial
      distinct fresh
  exact ⟨next, more, kept, others⟩

/-- As long as no id is given to two relationships, the committed graph and every working graph are
well formed, whatever is asked of the store in whatever order. -/
theorem wellFormed_of_distinct_ids (ids : IdSource) (calls : List Call)
    (distinct : ((start ids).related calls).Nodup) :
    let traffic := (start ids).run calls
    traffic.store.committed.WellFormed ∧
      ∀ number tx, traffic.underway.find? number = some tx → tx.working.WellFormed := by
  obtain ⟨registry, -, consistent, -⟩ :=
    (consistent_start ids).run (faithful_run ids []) calls distinct fun id new => rfl
  exact ⟨consistent.committed.toWellFormed,
    fun number tx present => (consistent.working present).toWellFormed⟩

theorem legal_left : Legal [⟨.tenant, "left"⟩] := Path.legal_tenant (by decide)

theorem legal_right : Legal [⟨.tenant, "right"⟩] := Path.legal_tenant (by decide)

/-- Two tenants, related by two transactions on one snapshot that are both committed, and by one
still under way. -/
def crossing : List Call :=
  let left : Path := ⟨[⟨.tenant, "left"⟩], Path.legal_tenant (by decide)⟩
  let right : Path := ⟨[⟨.tenant, "right"⟩], Path.legal_tenant (by decide)⟩
  [.begin .readWrite, .act 1 (.persist left { id := none, details := .tenant }),
    .act 1 (.persist right { id := none, details := .tenant }), .commit 1, .begin .readWrite,
    .begin .readWrite,
    .act 2 (.relate (.entity left) (.entity right) "knows" ∅),
    .act 3 (.relate (.entity left) (.entity left) "knows" ∅),
    .commit 2, .commit 3, .begin .readWrite,
    .act 4 (.relate (.entity right) (.entity left) "knows" ∅)]

theorem wellFormed_after_crossing :
    ((start .counter).related crossing).Nodup ∧
      ((start .counter).run crossing).store.committed.relationships.size = 2 ∧
      ((start .counter).run crossing).store.committed.WellFormed ∧
      ∀ number tx, ((start .counter).run crossing).underway.find? number = some tx →
        tx.working.WellFormed := by
  have distinct : ((start .counter).related crossing).Nodup := by decide +kernel
  have both : ((start .counter).run crossing).store.committed.relationships.size = 2 := by
    decide +kernel
  exact ⟨distinct, both, wellFormed_of_distinct_ids .counter crossing distinct⟩

end Traffic

end Estate
