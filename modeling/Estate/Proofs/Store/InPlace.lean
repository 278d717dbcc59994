import Estate.Proofs.Graph.InPlace
import Estate.Proofs.Store.Successes
import Estate.Store.InPlace

/-!
Acts whose changes alter the working graph in place. Only the removal of an entity can be refused
halfway, and no deletion comes to that on a well-formed graph: it has taken away all that is noted
at the entity before. So nothing is left of a write that fails.
-/
namespace Estate

variable {draft : Draft} {traffic : Traffic} {change : Change}

namespace Drafting

theorem perform_writeInPlace (draft : Draft) (change : Change) :
    (writeInPlace change).perform draft =
      ((draft.tx.writeInPlace change).1,
      { draft with tx := (draft.tx.writeInPlace change).2 }) := by
  simp only [writeInPlace, perform_bind, perform_get]
  rcases draft.tx.writeInPlace change with ⟨_ | _, tx⟩ <;> rfl

/-- To write in place makes a difference only to what is left of a graph that refuses the change. -/
theorem perform_writeInPlace_eq
    (whole : ∀ why, draft.tx.working.apply change = .error why →
      draft.tx.working.leftBy change = draft.tx.working) :
    (writeInPlace change).perform draft = (write change).perform draft := by
  rw [perform_writeInPlace, perform_write, Transaction.writeInPlace, Transaction.write,
    Graph.applyInPlace_eq]
  cases mutating : draft.tx.access.isMutating with
  | false => rfl
  | true =>
    cases outcome : draft.tx.working.apply change with
    | ok next => rfl
    | error why => simp [whole why outcome]

theorem writeInPlace_eq (other : ∀ path, change ≠ .removeEntity path) :
    writeInPlace change = write change := by
  funext draft
  refine perform_writeInPlace_eq fun _ _ => ?_
  cases change with
  | removeEntity path => exact absurd rfl (other path)
  | _ => rfl

theorem perform_removeEntityInPlace {path : Path} (bare : draft.tx.working.idsAt path = []) :
    (writeInPlace (.removeEntity path)).perform draft =
      (write (.removeEntity path)).perform draft := by
  refine perform_writeInPlace_eq fun why refused => if_neg fun stored => ?_
  simp [Graph.apply, Graph.removeEntity, stored, bare] at refused

theorem writeAllBy_congr {writing other : Change → Drafting Unit} {changes : List Change}
    (same : ∀ change ∈ changes, writing change = other change) :
    writeAllBy writing changes = writeAllBy other changes := by
  induction changes with
  | nil => rfl
  | cons change rest ih =>
    rw [writeAllBy, writeAllBy, same change List.mem_cons_self,
      ih fun later member => same later (List.mem_cons_of_mem _ member)]

end Drafting

namespace Act

/-- The body of an act, however its changes are written. -/
def bodyBy (writing : Change → Drafting Unit) : Act → Drafting Unit
  | .read reading => Drafting.look reading
  | .draw => discard Drafting.draw
  | .persist path blueprint => discard (Drafting.persistBy writing path blueprint)
  | .relate source target name properties =>
    discard (Drafting.relateBy writing source target name properties)
  | .update handle revision => Drafting.updateBy writing handle revision
  | .delete handle => Drafting.deleteBy writing handle

theorem bodyBy_write (act : Act) : act.bodyBy Drafting.write = act.body := by cases act <;> rfl

/-- What an act comes to in place, and the draft it leaves. -/
def performInPlace (act : Act) (draft : Draft) : Except Error Unit × Draft :=
  (act.bodyBy Drafting.writeInPlace).perform draft

theorem perform_deleteEntityInPlace {path : Path} (wellFormed : draft.tx.working.WellFormed) :
    (Drafting.deleteEntityBy Drafting.writeInPlace path).perform draft =
      (Drafting.deleteEntity path).perform draft := by
  have releasing : Drafting.writeAllBy Drafting.writeInPlace
      ((draft.tx.working.idsAt path).map .removeRelationship) =
      Drafting.writeAll ((draft.tx.working.idsAt path).map .removeRelationship) := by
    refine Drafting.writeAllBy_congr fun change member => Drafting.writeInPlace_eq fun other => ?_
    obtain ⟨id, -, rfl⟩ := List.mem_map.mp member
    nofun
  cases stored : draft.tx.working.entities.contains path with
  | false => simp [Drafting.deleteEntity, Drafting.deleteEntityBy, Drafting.perform_bind, stored]
  | true =>
    cases full : draft.tx.working.hasContents path with
    | true =>
      simp [Drafting.deleteEntity, Drafting.deleteEntityBy, Drafting.perform_bind, stored, full]
    | false =>
      simp only [Drafting.deleteEntity, Drafting.deleteEntityBy, Drafting.perform_bind,
        Drafting.perform_get, stored, full, wellFormed.releases_eq, releasing, Bool.not_true,
        Bool.false_eq_true, ↓reduceIte]
      rcases outcome : (Drafting.writeAll
        ((draft.tx.working.idsAt path).map .removeRelationship)).perform draft with
        ⟨error | _, later⟩
      · rfl
      · have replayed := (Drafting.wrote_of_writeAll outcome).replayed
        exact Drafting.perform_removeEntityInPlace (wellFormed.bare_of_released replayed)

/-- In place an act comes to the same on a well-formed graph. -/
theorem performInPlace_eq (act : Act) (wellFormed : draft.tx.working.WellFormed) :
    act.performInPlace draft = act.body.perform draft := by
  rw [performInPlace, ← bodyBy_write]
  cases act with
  | read reading | draw => rfl
  | persist path blueprint => simp [bodyBy, Drafting.persistBy, Drafting.writeInPlace_eq]
  | relate source target name properties =>
    simp [bodyBy, Drafting.relateBy, Drafting.writeInPlace_eq]
  | update handle revision => simp [bodyBy, Drafting.updateBy, Drafting.writeInPlace_eq]
  | delete handle =>
    cases handle with
    | relationship id =>
      simp [bodyBy, Drafting.deleteBy, Drafting.deleteRelationshipBy, Drafting.writeInPlace_eq]
    | entity path => exact perform_deleteEntityInPlace wellFormed

/-- An act that fails on a well-formed graph leaves the transaction as it was. -/
theorem tx_of_failure (act : Act) (wellFormed : draft.tx.working.WellFormed)
    (fails : ¬act.succeeds draft) :
    (act.run draft).tx = draft.tx := by
  have wrote := (act.run_wrote draft).2.log
  rw [act.written_eq wellFormed, if_neg fails, List.append_nil, run_eq] at wrote
  rw [run_eq]
  exact Transaction.attempt_eq_self wrote

/-- A deletion that gets to write writes all there is to write. -/
theorem perform_delete {handle : Handle} (wellFormed : draft.tx.working.WellFormed)
    (access : draft.tx.access = .readWrite) (allowed : (delete handle).changes draft ≠ []) :
    ∃ later, (delete handle).body.perform draft = (.ok (), later) ∧
      later.tx.log = draft.tx.log ++ (delete handle).changes draft := by
  obtain ⟨graph, replayed⟩ := @replay_delete draft handle wellFormed
  exact ⟨_, perform_of_replay allowed access replayed, rfl⟩

end Act

namespace Traffic

/-- What a call leaves where acts write in place. A commit replays a log on a copy, of which nothing
stays when it is refused. -/
def stepInPlace (traffic : Traffic) : Call → Traffic
  | .act number act =>
    match traffic.underway.find? number with
    | some tx =>
      let draft := (act.performInPlace { tx, ids := traffic.ids }).2
      { traffic with ids := draft.ids, underway := traffic.underway.insert number draft.tx }
    | none => traffic
  | call => traffic.step call

def runInPlace (traffic : Traffic) (calls : List Call) : Traffic := calls.foldl stepInPlace traffic

theorem Consistent.stepInPlace_eq {registry : Registry} (consistent : traffic.Consistent registry)
    (call : Call) :
    traffic.stepInPlace call = traffic.step call := by
  cases call with
  | begin access | commit number | rollback number => rfl
  | act number act =>
    cases present : traffic.underway.find? number with
    | none => simp only [stepInPlace, Traffic.step, present]
    | some tx =>
      have same :=
        @Act.performInPlace_eq ⟨tx, traffic.ids⟩ act (consistent.working present).toWellFormed
      simp only [stepInPlace, Traffic.step, present, same, Act.run]

theorem runInPlace_eq (ids : IdSource) (calls : List Call)
    (distinct : ((start ids).related calls).Nodup) :
    ∃ registry, ((start ids).run calls).Consistent registry ∧
      (start ids).runInPlace calls = (start ids).run calls := by
  let holds (_ : Registry) (traffic : Traffic) (rest : List Call) : Prop :=
    traffic.runInPlace rest = (start ids).runInPlace calls
  have keeps {registry : Registry} {traffic : Traffic} {call : Call} {rest : List Call}
      (consistent : traffic.Consistent registry) (held : holds registry traffic (call :: rest))
      (_ : registry.Extends (noted registry traffic call)) :
      holds (noted registry traffic call) (traffic.step call) rest := by
    rw [← consistent.stepInPlace_eq]
    exact held
  obtain ⟨registry, -, consistent, same, -⟩ :=
    (consistent_start ids).run_keeping holds keeps (faithful_run ids []) calls rfl distinct
      fun id new => rfl
  exact ⟨registry, consistent, same.symm⟩

/-- An act that fails leaves nothing behind, even though its changes alter the working graph in
place: the transaction is as it was, whatever it was asked for and whether or not it may write. A
deletion that gets to write writes all it has to. So everything is as if each change were taken at
once or not at all. -/
theorem failure_leaves_transaction (ids : IdSource) (calls : List Call)
    (distinct : ((start ids).related calls).Nodup) {number : Nat} {tx : Transaction}
    (present : ((start ids).runInPlace calls).underway.find? number = some tx) :
    let draft : Draft := ⟨tx, ((start ids).runInPlace calls).ids⟩
    (start ids).runInPlace calls = (start ids).run calls ∧
      (∀ act, Act.performInPlace act draft = act.body.perform draft) ∧
      (∀ act error later, Act.performInPlace act draft = (.error error, later) → later.tx = tx) ∧
      ∀ handle, tx.access = .readWrite → (Act.delete handle).changes draft ≠ [] →
        ∃ later, (Act.delete handle).performInPlace draft = (.ok (), later) ∧
          later.tx.log = tx.log ++ (Act.delete handle).changes draft := by
  intro draft
  obtain ⟨registry, consistent, same⟩ := runInPlace_eq ids calls distinct
  have wellFormed : draft.tx.working.WellFormed :=
    (consistent.working (same ▸ present)).toWellFormed
  refine ⟨same, fun act => act.performInPlace_eq wellFormed, fun act error later failed => ?_,
    fun handle access allowed => ?_⟩
  · rw [act.performInPlace_eq wellFormed] at failed
    have left :=
      act.tx_of_failure wellFormed (by simp [Act.succeeds, failed, Except.isOk, Except.toBool])
    rwa [Act.run, failed] at left
  · rw [Act.performInPlace_eq _ wellFormed]
    exact Act.perform_delete wellFormed access allowed

/-- Someone only reads, after tenants have crossed. -/
def audience : List Call := crossing ++ [.begin .readOnly]

/-- The reader may not take away the tenant on the right, and the writer takes away the one on the
left with all three relationships at it. -/
theorem audience_leaves_no_trace :
    let left : Path := ⟨_, legal_left⟩
    let right : Path := ⟨_, legal_right⟩
    let traffic := (start .counter).runInPlace audience
    ((start .counter).related audience).Nodup ∧
      (∃ tx error later, traffic.underway.find? 5 = some tx ∧
        Act.performInPlace (.delete (.entity right)) ⟨tx, traffic.ids⟩ = (.error error, later) ∧
        later.tx = tx) ∧
      ∃ tx later, traffic.underway.find? 4 = some tx ∧
        Act.performInPlace (.delete (.entity left)) ⟨tx, traffic.ids⟩ = (.ok (), later) ∧
        later.tx.log.length = tx.log.length + 4 := by
  intro left right traffic
  have distinct : ((start .counter).related audience).Nodup := by decide +kernel
  obtain ⟨reader, reading⟩ : ∃ tx, traffic.underway.find? 5 = some tx := ⟨_, rfl⟩
  obtain ⟨writer, writing⟩ : ∃ tx, traffic.underway.find? 4 = some tx := ⟨_, rfl⟩
  have refused : (Act.performInPlace (.delete (.entity right)) ⟨reader, traffic.ids⟩).1.isOk =
      false := by
    obtain rfl := Option.some.inj reading
    decide +kernel
  have allowed : writer.access = .readWrite ∧
      ((Act.delete (.entity left)).changes ⟨writer, traffic.ids⟩).length = 4 := by
    obtain rfl := Option.some.inj writing
    decide +kernel
  refine ⟨distinct, ?_, ?_⟩
  · obtain ⟨-, -, untouched, -⟩ := failure_leaves_transaction .counter audience distinct reading
    rcases outcome : Act.performInPlace (.delete (.entity right)) ⟨reader, traffic.ids⟩
      with ⟨error | _, later⟩
    · exact ⟨reader, error, later, reading, outcome, untouched _ error later outcome⟩
    · simp [outcome, Except.isOk, Except.toBool] at refused
  · obtain ⟨-, -, -, whole⟩ := failure_leaves_transaction .counter audience distinct writing
    have something : (Act.delete (.entity left)).changes ⟨writer, traffic.ids⟩ ≠ [] := by
      intro nothing
      simp [nothing] at allowed
    obtain ⟨later, done, logged⟩ := whole (.entity left) allowed.1 something
    exact ⟨writer, later, writing, done, by rw [logged, List.length_append, allowed.2]⟩

end Traffic

end Estate
