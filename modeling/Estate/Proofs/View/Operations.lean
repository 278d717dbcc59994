import Estate.Proofs.View.Ledger

namespace Estate

inductive Yield where
  | view (single : Single)
  | relationship (rel : Relationship)
  | done

namespace Mutation

def yielding (settings : Settings) : Mutation → Drafting (Announced Yield)
  | .create listing blueprint =>
    return (← listing.create settings blueprint).map fun path => .view (listing.created path)
  | .update listing id revision => return (← listing.update id revision).map fun _ => .done
  | .delete listing id => return (← listing.delete id).map fun _ => .done
  | .associate view path => return (← view.associate path).map .relationship
  | .disassociate view path => return (← view.disassociate path).map .relationship
  | .link view name path properties => return (← view.link name path properties).map .relationship
  | .updateRelationship view id revision => return (← view.update id revision).map fun _ => .done
  | .deleteRelationship view id => return (← view.delete id).map fun _ => .done

theorem forget_yielding (settings : Settings) (mutation : Mutation) :
    forget (mutation.yielding settings) = mutation.body settings := by
  cases mutation <;> simp only [forget, yielding, body, bind_assoc, pure_bind] <;> rfl

def check : Mutation → Except Error Unit
  | .link view _ _ _ => view.linkable
  | _ => .ok ()

def carryOut {σ : Type} (engine : Engine σ) (settings : Settings) (mutation : Mutation) :
    StateM σ (Except Error Yield) :=
  match mutation.check with
  | .error error => return .error error
  | .ok () => engine.mutate (mutation.yielding settings)

end Mutation

/-- What views answer without changing anything. -/
inductive Inquiry where
  | entity (single : Single)
  | isThere (single : Single)
  | entities (multiple : Multiple) (pager : Pager)
  | relationships (view : Relations) (name : Option String)
  | relationship (view : Relations) (id : String)
  | association (view : Associations) (id : String)

inductive Reply where
  | entity (entity : Entity)
  | isThere (found : Bool)
  | entities (page : Page Entity)
  | relationships (rels : List Relationship)
  | relationship (rel : Relationship)

def Reply.elements : Reply → List Element
  | entity found => [.entity found]
  | isThere _ => []
  | entities page => page.items.map .entity
  | relationships rels => rels.map .relationship
  | relationship rel => [.relationship rel]

/-- The rest of a reading, once its transaction has begun. -/
def Engine.conclude {σ α : Type} (engine : Engine σ) (tx : Transaction) (reading : Reading α) :
    StateM σ (Except Error α) :=
  match reading tx with
  | .ok value => do
    match ← engine.commit tx with
    | .ok () => return .ok value
    | .error error => return .error error
  | .error error => do
    engine.rollback tx
    return .error error

theorem Engine.read_eq {σ α : Type} (engine : Engine σ) (reading : Reading α) :
    engine.read reading = engine.begin .readOnly >>= fun tx => engine.conclude tx reading := rfl

namespace Inquiry

/-- What an inquiry reads and replies, however readings are done. -/
def through {m : Type → Type} [Monad m] (read : {α : Type} → Reading α → m (Except Error α))
    (settings : Settings) :
    Inquiry → m (Except Error Reply)
  | entity single => return (← read (single.entity settings)).map .entity
  | isThere single => return (Single.existsGiven (← read (single.entity settings))).map .isThere
  | entities multiple pager => return (← read (multiple.entities settings pager)).map .entities
  | relationships view name => return (← read (view.list settings name)).map .relationships
  | relationship view id => return (← read (view.get settings id)).map .relationship
  | association view id => return (← read (view.association settings id)).map .relationship

def carryOut {σ : Type} (engine : Engine σ) (settings : Settings) :
    Inquiry → StateM σ (Except Error Reply) :=
  through engine.read settings

/-- The rest of an inquiry, once its transaction has begun. -/
def conclude {σ : Type} (engine : Engine σ) (tx : Transaction) (settings : Settings) :
    Inquiry → StateM σ (Except Error Reply) :=
  through (engine.conclude tx) settings

theorem carryOut_eq {σ : Type} (engine : Engine σ) (settings : Settings) (inquiry : Inquiry) :
    inquiry.carryOut engine settings = engine.begin .readOnly >>= fun tx =>
      inquiry.conclude engine tx settings := by
  cases inquiry <;> simp only [carryOut, conclude, through, Engine.read_eq, bind_assoc]

def answer (settings : Settings) (tx : Transaction) : Inquiry → Except Error Reply
  | entity single => (single.entity settings tx).map .entity
  | isThere single => (Single.existsGiven (single.entity settings tx)).map .isThere
  | entities multiple pager => (multiple.entities settings pager tx).map .entities
  | relationships view name => (view.list settings name tx).map .relationships
  | relationship view id => (view.get settings id tx).map .relationship
  | association view id => (view.association settings id tx).map .relationship

end Inquiry

inductive Operation where
  | mutation (mutation : Mutation)
  | inquiry (inquiry : Inquiry)

inductive Conclusion where
  | mutated (outcome : Except Error Yield)
  | replied (outcome : Except Error Reply)

def Conclusion.mutated? : Conclusion → Option (Except Error Yield)
  | mutated outcome => some outcome
  | replied _ => none

/-- What a mutation leaves: what it hands back, the store and the source of ids, and the notices it
publishes. -/
structure Aftermath (α : Type) where
  outcome : Except Error α
  store : Store
  ids : IdSource
  published : List Notice := []

/-- What comes of a body in a transaction of its own. -/
def Aftermath.of {α : Type} (body : Drafting (Announced α)) (store : Store) (ids : IdSource) :
    Aftermath α :=
  let (tx, store) := store.begin .readWrite
  match body.perform ⟨tx, ids⟩ with
  | (.error error, draft) => { outcome := .error error, store, ids := draft.ids }
  | (.ok result, draft) =>
    match store.commit draft.tx with
    | .ok next =>
      { outcome := .ok result.value, store := next, ids := draft.ids, published := result.notices }
    | .error error => { outcome := .error error, store, ids := draft.ids }

namespace Inventory

variable {α : Type} (inventory : Inventory Empty) (notices : List Notice)

def carryOut (inventory : Inventory Empty) : Operation → Conclusion × Inventory Empty × List Notice
  | .mutation mutation =>
    let (outcome, later) :=
      (mutation.carryOut Office.engine.recording inventory.settings).run (inventory, [])
    (.mutated outcome, later)
  | .inquiry inquiry =>
    let (outcome, later) :=
      (inquiry.carryOut Office.engine.recording inventory.settings).run (inventory, [])
    (.replied outcome, later)

def carryOutAll (inventory : Inventory Empty) :
    List Operation → List Conclusion × Inventory Empty × List Notice
  | [] => ([], inventory, [])
  | operation :: rest =>
    let (conclusion, later, published) := inventory.carryOut operation
    let (conclusions, last, others) := later.carryOutAll rest
    (conclusion :: conclusions, last, published ++ others)

theorem run_commit (tx : Transaction) :
    (Office.engine.recording.commit tx).run (inventory, notices) =
      pure ((inventory.store.commit tx).map fun _ => (),
        { inventory with store := Traffic.settled inventory.store tx }, notices) := by
  show (((Office.engine.commit tx).run inventory).1, ((Office.engine.commit tx).run inventory).2,
      notices) = _
  rw [Office.commit_eq]
  rfl

/-- A reading that has begun changes nothing any more, and its end cannot fail. -/
theorem run_conclude {tx : Transaction} (blank : tx.log = []) (reading : Reading α) :
    (Office.engine.recording.conclude tx reading).run (inventory, notices) =
      pure (reading tx, inventory, notices) := by
  have unchanged : inventory.store.commit tx = .ok inventory.store := by simp [Store.commit, blank]
  have committed : (Office.engine.recording.commit tx).run (inventory, notices) =
      pure (.ok (), inventory, notices) := by
    rw [run_commit, Traffic.settled, unchanged]
    rfl
  unfold Engine.conclude
  cases outcome : reading tx with
  | error error => rfl
  | ok value => simp only [StateT.run_bind, committed, pure_bind, StateT.run_pure]

theorem run_inquiry_conclude {tx : Transaction} (blank : tx.log = []) (settings : Settings)
    (inquiry : Inquiry) :
    (inquiry.conclude Office.engine.recording tx settings).run (inventory, notices) =
      pure (inquiry.answer settings tx, inventory, notices) := by
  cases inquiry <;>
    simp only [Inquiry.conclude, Inquiry.through, Inquiry.answer, StateT.run_bind,
      run_conclude inventory notices blank, pure_bind, StateT.run_pure]

/-- An inquiry takes a number, and changes nothing else. -/
theorem run_inquiry (settings : Settings) (inquiry : Inquiry) :
    (inquiry.carryOut Office.engine.recording settings).run (inventory, notices) =
      pure (inquiry.answer settings (inventory.store.begin .readOnly).1,
        { inventory with store := (inventory.store.begin .readOnly).2 }, notices) := by
  have began : (Office.engine.recording.begin .readOnly).run (inventory, notices) =
      pure ((inventory.store.begin .readOnly).1,
        { inventory with store := (inventory.store.begin .readOnly).2 }, notices) := rfl
  rw [Inquiry.carryOut_eq, StateT.run_bind, began, pure_bind]
  exact run_inquiry_conclude _ notices rfl settings inquiry

theorem run_draft (tx : Transaction) (body : Drafting α) :
    (Office.engine.recording.draft tx body).run (inventory, notices) =
      pure (((body.perform ⟨tx, inventory.ids⟩).1, (body.perform ⟨tx, inventory.ids⟩).2.tx),
        { inventory with ids := (body.perform ⟨tx, inventory.ids⟩).2.ids }, notices) := rfl

theorem run_publish (published : List Notice) :
    (Office.engine.recording.publish published).run (inventory, notices) =
      pure ((), inventory, notices ++ published) := by
  show ((), (Office.engine.publish published |>.run inventory).2, notices ++ published) = _
  rw [Office.publish_eq]
  rfl

theorem run_mutate (body : Drafting (Announced α)) :
    (Office.engine.recording.mutate body).run (inventory, notices) =
      let after := Aftermath.of body inventory.store inventory.ids
      pure (after.outcome, { inventory with store := after.store, ids := after.ids }, notices ++
        after.published) := by
  have began : (Office.engine.recording.begin .readWrite).run (inventory, notices) =
      pure ((inventory.store.begin .readWrite).1,
        { inventory with store := (inventory.store.begin .readWrite).2 }, notices) := rfl
  simp only [Engine.mutate, StateT.run_bind, began, pure_bind, run_draft, Aftermath.of]
  rcases body.perform ⟨(inventory.store.begin .readWrite).1, inventory.ids⟩
    with ⟨error | result, draft⟩
  · simp only [List.append_nil]
    rfl
  · simp only [Engine.settle, StateT.run_bind, run_commit, pure_bind, Traffic.settled]
    cases (inventory.store.begin .readWrite).2.commit draft.tx with
    | error error =>
      simp only [List.append_nil]
      rfl
    | ok store =>
      simp only [Except.map, StateT.run_bind, run_publish, pure_bind]
      rfl

variable {inventory}

theorem carryOut_inquiry (inquiry : Inquiry) :
    inventory.carryOut (.inquiry inquiry) =
      (.replied (inquiry.answer inventory.settings (inventory.store.begin .readOnly).1),
        { inventory with store := (inventory.store.begin .readOnly).2 }, []) := by
  rw [carryOut, run_inquiry]
  rfl

theorem carryOut_mutation {mutation : Mutation} (allowed : mutation.check = .ok ()) :
    inventory.carryOut (.mutation mutation) =
      let after := Aftermath.of (mutation.yielding inventory.settings) inventory.store inventory.ids
      (.mutated after.outcome, { inventory with store := after.store, ids := after.ids },
        after.published) := by
  rw [carryOut, Mutation.carryOut, allowed]
  dsimp only
  rw [run_mutate]
  rfl

theorem carryOut_refused {mutation : Mutation} {error : Error}
    (refused : mutation.check = .error error) :
    inventory.carryOut (.mutation mutation) = (.mutated (.error error), inventory, []) := by
  rw [carryOut, Mutation.carryOut, refused]
  rfl

end Inventory

end Estate
