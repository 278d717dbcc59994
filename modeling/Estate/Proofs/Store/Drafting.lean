import Estate.Proofs.Graph.Changes
import Estate.Store.Writes

namespace Estate

theorem Handle.path_eq_ok_iff {handle : Handle} {path : Path} :
    handle.path = .ok path ↔ handle = .entity path := by
  cases handle <;> simp [Handle.path]

variable {α β : Type} {tx next : Transaction} {change : Change} {changes : List Change}

namespace Transaction

theorem write_eq_ok_iff :
    tx.write change = .ok next ↔
      tx.access = .readWrite ∧ tx.working.Admits change ∧
        next = { tx with working := tx.working.after change, log := tx.log ++ [change] } := by
  cases access : tx.access with
  | readOnly => simp [write, access, Access.isMutating]
  | readWrite =>
    simp only [write, access, Access.isMutating, decide_true, ↓reduceIte, true_and]
    cases outcome : tx.working.apply change with
    | ok graph =>
      obtain ⟨admitted, rfl⟩ := Graph.apply_eq_ok_iff.mp outcome
      simp [admitted, eq_comm]
    | error why =>
      have refused : ¬tx.working.Admits change := fun admitted => by
        have success := Graph.apply_eq_ok_iff.mpr ⟨admitted, rfl⟩
        simp [outcome] at success
      simp [refused]

def attempt (tx : Transaction) : List Change → Transaction
  | [] => tx
  | change :: rest =>
    match tx.write change with
    | .ok next => next.attempt rest
    | .error _ => tx

/-- What an attempt wrote is logged, and leads from the working graph before to the one after. -/
structure Wrote (tx next : Transaction) (written : List Change) : Prop where
  replayed : tx.working.replay written = .ok next.working
  log : next.log = tx.log ++ written
  access : next.access = tx.access
  baseVersion : next.baseVersion = tx.baseVersion
  mutating : tx.access = .readOnly → written = []

theorem Wrote.refl (tx : Transaction) : tx.Wrote tx [] := ⟨rfl, by simp, rfl, rfl, fun _ => rfl⟩

theorem Wrote.trans {last : Transaction} {written rest : List Change}
    (first : tx.Wrote next written) (second : next.Wrote last rest) :
    tx.Wrote last (written ++ rest) where
  replayed := Graph.replay_append_eq_ok_iff.mpr ⟨next.working, first.replayed, second.replayed⟩
  log := by rw [second.log, first.log, List.append_assoc]
  access := second.access.trans first.access
  baseVersion := second.baseVersion.trans first.baseVersion
  mutating access := by
    rw [first.mutating access, second.mutating (first.access.trans access), List.nil_append]

theorem attempt_wrote (tx : Transaction) (changes : List Change) :
    ∃ written, written <+: changes ∧ tx.Wrote (tx.attempt changes) written := by
  induction changes generalizing tx with
  | nil => exact ⟨[], List.prefix_refl _, rfl, by simp [attempt], rfl, rfl, fun _ => rfl⟩
  | cons change rest ih =>
    cases outcome : tx.write change with
    | error error =>
      refine ⟨[], List.nil_prefix, ?_⟩
      simp only [attempt, outcome]
      exact ⟨rfl, by simp, rfl, rfl, fun _ => rfl⟩
    | ok next =>
      obtain ⟨access, admitted, rfl⟩ := write_eq_ok_iff.mp outcome
      obtain ⟨written, begun, wrote⟩ :=
        ih { tx with working := tx.working.after change, log := tx.log ++ [change] }
      refine ⟨change :: written, List.cons_prefix_cons.mpr ⟨rfl, begun⟩, ?_⟩
      simp only [attempt, outcome]
      exact {
        replayed := Graph.replay_cons_eq_ok_iff.mpr ⟨admitted, wrote.replayed⟩
        log := by simp [wrote.log]
        access := wrote.access
        baseVersion := wrote.baseVersion
        mutating := by simp [access] }

theorem attempt_eq_self (unlogged : (tx.attempt changes).log = tx.log) :
    tx.attempt changes = tx := by
  cases changes with
  | nil => rfl
  | cons change rest =>
    cases outcome : tx.write change with
    | error error => simp only [attempt, outcome]
    | ok next =>
      obtain ⟨-, -, rfl⟩ := write_eq_ok_iff.mp outcome
      obtain ⟨written, -, wrote⟩ :=
        attempt_wrote { tx with working := tx.working.after change, log := tx.log ++ [change] } rest
      simp [attempt, outcome, wrote.log] at unlogged

end Transaction

namespace Drafting

def perform (body : Drafting α) (draft : Draft) : Except Error α × Draft := body.run.run draft

variable {draft later : Draft}

@[simp]
theorem perform_pure (value : α) (draft : Draft) :
    perform (pure value) draft = (.ok value, draft) := rfl

@[simp]
theorem perform_throw (error : Error) (draft : Draft) :
    perform (throw error : Drafting α) draft = (.error error, draft) := rfl

@[simp]
theorem perform_get (draft : Draft) : perform get draft = (.ok draft, draft) := rfl

theorem perform_bind (body : Drafting α) (next : α → Drafting β) (draft : Draft) :
    (body >>= next).perform draft =
      match body.perform draft with
      | (.ok value, later) => (next value).perform later
      | (.error error, later) => (.error error, later) := by
  simp only [perform, ExceptT.run_bind, StateT.run_bind]
  rcases (body.run.run draft : Except Error α × Draft) with ⟨outcome, later⟩
  cases outcome <;> rfl

@[simp]
theorem perform_discard (body : Drafting α) (draft : Draft) :
    (discard body).perform draft = ((body.perform draft).1.map fun _ => (),
      (body.perform draft).2) := by
  have mapped : discard body = body >>= fun _ => pure () := rfl
  rw [mapped, perform_bind]
  rcases body.perform draft with ⟨_ | _, later⟩ <;> rfl

theorem perform_ite (condition : Prop) [Decidable condition] (yes no : Drafting α) (draft : Draft) :
    (if condition then yes else no).perform draft = if condition then yes.perform draft
      else no.perform draft := by
  split <;> rfl

@[simp]
theorem perform_look (read : Transaction → Except Error α) (draft : Draft) :
    (look read).perform draft = (read draft.tx, draft) := by
  simp only [look, perform_bind, perform_get]
  cases read draft.tx <;> rfl

theorem perform_look? (read : Transaction → Except Error α) (draft : Draft) :
    (look? read).perform draft =
      (match read draft.tx with
      | .ok value => .ok (some value)
      | .error (.missing _) => .ok none
      | .error error => .error error, draft) := by
  simp only [look?, perform_bind, perform_get]
  split <;> simp_all

@[simp]
theorem perform_draw (draft : Draft) :
    draw.perform draft = (.ok draft.ids.draw.1, { draft with ids := draft.ids.draw.2 }) := rfl

theorem perform_write (change : Change) (draft : Draft) :
    (write change).perform draft =
      match draft.tx.write change with
      | .ok tx => (.ok (), { draft with tx })
      | .error error => (.error error, draft) := by
  simp only [write, perform_bind, perform_get]
  cases draft.tx.write change <;> rfl

theorem perform_discard_write (change : Change) (value : α) (draft : Draft) :
    (discard (do write change; pure value)).perform draft = (write change).perform draft := by
  rw [perform_discard, perform_bind, perform_write]
  cases draft.tx.write change <;> rfl

theorem perform_writeAll_singleton (change : Change) (draft : Draft) :
    (writeAll [change]).perform draft = (write change).perform draft := by
  simp only [writeAll, writeAllBy, perform_bind, perform_write]
  cases draft.tx.write change <;> rfl

theorem perform_writeAll_append (changes rest : List Change) (draft : Draft) :
    (do writeAll changes; writeAll rest).perform draft =
      (writeAll (changes ++ rest)).perform draft := by
  induction changes generalizing draft with
  | nil => rfl
  | cons change earlier ih =>
    have ih := ih
    simp only [writeAll, writeAllBy, perform_bind, perform_write, List.cons_append] at ih ⊢
    cases draft.tx.write change with
    | ok tx => exact ih { draft with tx }
    | error error => rfl

theorem perform_writeAll_draft (changes : List Change) (draft : Draft) :
    ((writeAll changes).perform draft).2 = { draft with tx := draft.tx.attempt changes } := by
  induction changes generalizing draft with
  | nil => rfl
  | cons change rest ih =>
    have ih := ih
    simp only [writeAll, writeAllBy, perform_bind, perform_write, Transaction.attempt] at ih ⊢
    cases draft.tx.write change with
    | ok tx => exact ih { draft with tx }
    | error error => rfl

theorem perform_writeAll_of_replay {graph : Graph} (access : draft.tx.access = .readWrite)
    (replayed : draft.tx.working.replay changes = .ok graph) :
    (writeAll changes).perform draft =
      (.ok (), { draft with tx := { draft.tx with working := graph, log := draft.tx.log ++
        changes } }) := by
  induction changes generalizing draft with
  | nil =>
    obtain rfl := Except.ok.inj replayed
    simp [writeAll, writeAllBy]
  | cons change rest ih =>
    obtain ⟨admitted, replayed⟩ := Graph.replay_cons_eq_ok_iff.mp replayed
    have written := Transaction.write_eq_ok_iff.mpr ⟨access, admitted, rfl⟩
    have ih := @ih
      { draft with tx := { draft.tx with
        working := draft.tx.working.after change
        log := draft.tx.log ++ [change] } } access replayed
    simp only [writeAll, writeAllBy, perform_bind, perform_write, written]
    simpa using ih

variable {value : α}

theorem perform_bind_eq_ok_iff {body : Drafting β} {next : β → Drafting α} :
    (body >>= next).perform draft = (.ok value, later) ↔
      ∃ first between, body.perform draft = (.ok first, between) ∧
        (next first).perform between = (.ok value, later) := by
  rw [perform_bind]
  rcases body.perform draft with ⟨_ | first, between⟩
  · simp
  · constructor
    · intro rest
      exact ⟨first, between, rfl, rest⟩
    · rintro ⟨_, _, same, rest⟩
      cases same
      exact rest

theorem perform_look_bind_eq_ok_iff {read : Transaction → Except Error β} {next : β → Drafting α} :
    (look read >>= next).perform draft = (.ok value, later) ↔
      ∃ found, read draft.tx = .ok found ∧ (next found).perform draft = (.ok value, later) := by
  rw [perform_bind, perform_look]
  cases read draft.tx <;> simp

/-- An optional look-up finds what the plain one finds, or nothing. -/
theorem perform_look?_bind_eq_ok {read : Transaction → Except Error β}
    {next : Option β → Drafting α}
    (success : (look? read >>= next).perform draft = (.ok value, later)) :
    ∃ found, (∀ result, found = some result → read draft.tx = .ok result) ∧
      (next found).perform draft = (.ok value, later) := by
  rw [perform_bind, perform_look?] at success
  cases outcome : read draft.tx with
  | ok found => exact ⟨some found, by simp, by simpa [outcome] using success⟩
  | error error =>
    rw [outcome] at success
    cases error with
    | missing what => exact ⟨none, by simp, success⟩
    | _ => cases success

theorem wrote_of_write (success : (write change).perform draft = (.ok (), later)) :
    draft.tx.Wrote later.tx [change] := by
  rw [perform_write] at success
  split at success
  · rename_i tx outcome
    obtain ⟨access, admitted, rfl⟩ := Transaction.write_eq_ok_iff.mp outcome
    obtain ⟨-, rfl⟩ := Prod.mk.inj success
    exact {
      replayed := Graph.replay_cons_eq_ok_iff.mpr ⟨admitted, rfl⟩
      log := rfl
      access := rfl
      baseVersion := rfl
      mutating := by simp [access] }
  · cases success

theorem wrote_of_writeAll (success : (writeAll changes).perform draft = (.ok (), later)) :
    draft.tx.Wrote later.tx changes := by
  induction changes generalizing draft with
  | nil =>
    obtain ⟨-, rfl⟩ := Prod.mk.inj success
    exact .refl _
  | cons change rest ih =>
    obtain ⟨_, between, first, second⟩ := perform_bind_eq_ok_iff.mp success
    exact (wrote_of_write first).trans (ih second)

theorem wrote_of_persist {path : Path} {blueprint : Blueprint} {handle : Handle}
    (success : (persist path blueprint).perform draft = (.ok handle, later)) :
    handle = .entity path ∧
      ∃ entity, Entity.ofBlueprint path blueprint = .ok entity ∧
        draft.tx.Wrote later.tx [.insertEntity entity] := by
  obtain ⟨entity, made, writes⟩ := perform_look_bind_eq_ok_iff.mp success
  obtain ⟨_, _, written, last⟩ := perform_bind_eq_ok_iff.mp writes
  cases last
  exact ⟨rfl, entity, made, wrote_of_write written⟩

theorem wrote_of_relate {source target handle : Handle} {name : String} {properties : Properties}
    (success : (relate source target name properties).perform draft = (.ok handle, later)) :
    ∃ rel : Relationship, handle = .relationship rel.id ∧ rel.name = name ∧
      source = .entity rel.source ∧
      target = .entity rel.target ∧ rel.properties = properties ∧
      draft.tx.Wrote later.tx [.insertRelationship rel] := by
  obtain ⟨starts, source, second⟩ := perform_look_bind_eq_ok_iff.mp success
  obtain ⟨ends, target, draws⟩ := perform_look_bind_eq_ok_iff.mp second
  obtain ⟨id, _, drawn, writes⟩ := perform_bind_eq_ok_iff.mp draws
  cases drawn
  obtain ⟨_, _, written, last⟩ := perform_bind_eq_ok_iff.mp writes
  cases last
  have wrote := wrote_of_write written
  exact ⟨_, rfl, rfl, Handle.path_eq_ok_iff.mp source, Handle.path_eq_ok_iff.mp target, rfl, wrote⟩

theorem perform_ite_eq_ok_iff {condition : Prop} [Decidable condition] {yes no : Drafting α} :
    (if condition then yes else no).perform draft = (.ok value, later) ↔
      condition ∧ yes.perform draft = (.ok value, later) ∨ ¬condition ∧
      no.perform draft = (.ok value, later) := by
  by_cases holds : condition <;> simp [holds]

theorem perform_unless_eq_ok_iff {condition : Prop} [Decidable condition] {error : Error}
    {next : Unit → Drafting α} :
    (if condition then throw error >>= next else next ()).perform draft = (.ok value, later) ↔
      ¬condition ∧ (next ()).perform draft = (.ok value, later) := by
  by_cases refused : condition
  · simp [refused]
  · simp [refused]

theorem wrote_of_deleteEntity {path : Path}
    (success : (deleteEntity path).perform draft = (.ok (), later)) :
    draft.tx.working.hasContents path = false ∧
      draft.tx.Wrote later.tx
        ((draft.tx.working.touching path .both none).map (fun rel => .removeRelationship rel.id) ++
          [.removeEntity path]) := by
  obtain ⟨_, _, got, checks⟩ := perform_bind_eq_ok_iff.mp success
  cases got
  obtain ⟨-, checks⟩ := perform_unless_eq_ok_iff.mp checks
  obtain ⟨bare, writes⟩ := perform_unless_eq_ok_iff.mp checks
  obtain ⟨_, _, released, removed⟩ := perform_bind_eq_ok_iff.mp writes
  exact ⟨by simpa using bare, (wrote_of_writeAll released).trans (wrote_of_write removed)⟩

theorem wrote_of_deleteRelationship {id : String}
    (success : (deleteRelationship id).perform draft = (.ok (), later)) :
    draft.tx.Wrote later.tx [.removeRelationship id] := by
  obtain ⟨_, _, got, checks⟩ := perform_bind_eq_ok_iff.mp success
  cases got
  obtain ⟨-, written⟩ := perform_unless_eq_ok_iff.mp checks
  exact wrote_of_write written

end Drafting

end Estate
