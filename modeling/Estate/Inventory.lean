import Estate.Notifier
import Estate.View.Associate
import Estate.View.Relate

/-!
Inventories: a store with settings and a notifier. Readings and mutations run on anything that can
begin, commit and roll back transactions and publish notices; an inventory is one such thing.
-/
namespace Estate

structure Engine (σ : Type) where
  begin : Access → StateM σ Transaction
  /-- the transaction is spent, whether or not this succeeds -/
  commit : Transaction → StateM σ (Except Error Unit)
  rollback : Transaction → StateM σ Unit
  ids : σ → IdSource
  withIds : IdSource → σ → σ
  publish : List Notice → StateM σ Unit

namespace Engine

variable {σ : Type}

/-- Readings commit when they succeed and roll back when they fail. -/
def read (engine : Engine σ) (reading : Reading α) : StateM σ (Except Error α) := do
  let tx ← engine.begin .readOnly
  match reading tx with
  | .ok value =>
    match ← engine.commit tx with
    | .ok () => return .ok value
    | .error error => return .error error
  | .error error =>
    engine.rollback tx
    return .error error

/-- Runs the body of a mutation on a transaction; ids drawn are gone even if it fails. -/
def draft (engine : Engine σ) (tx : Transaction) (body : Drafting α) :
    StateM σ (Except Error α × Transaction) := do
  let (outcome, draft) := (body.run).run { tx, ids := engine.ids (← get) }
  modify (engine.withIds draft.ids)
  return (outcome, draft.tx)

/-- Commits what a mutation wrote and publishes what it announced, or rolls it back. -/
def settle (engine : Engine σ) (tx : Transaction) :
    Except Error (Announced α) → StateM σ (Except Error α)
  | .ok result => do
    match ← engine.commit tx with
    | .ok () =>
      engine.publish result.notices
      return .ok result.value
    | .error error => return .error error
  | .error error => do
    engine.rollback tx
    return .error error

def mutate (engine : Engine σ) (body : Drafting (Announced α)) : StateM σ (Except Error α) := do
  let tx ← engine.begin .readWrite
  let (outcome, tx) ← engine.draft tx body
  engine.settle tx outcome

end Engine

structure Inventory (ω : Type) where
  store : Store := {}
  ids : IdSource := .counter
  notifier : Notifier ω := {}
  settings : Settings := {}

namespace Inventory

variable {ω : Type}

/-- Opens the built-in engine that the settings name. -/
def ofSettings (settings : Settings) : Except Error (Inventory ω) :=
  match settings.engine with
  | .memory => .ok { settings }
  | .external name => .error (.notBuiltIn name)

def begin (access : Access) : StateM (Inventory ω) Transaction :=
  modifyGet fun inventory =>
    let (tx, store) := inventory.store.begin access
    (tx, { inventory with store })

def commit (tx : Transaction) : StateM (Inventory ω) (Except Error Unit) :=
  modifyGet fun inventory =>
    match inventory.store.commit tx with
    | .ok store => (.ok (), { inventory with store })
    | .error error => (.error error, inventory)

def engine (react : Notifier.Reaction ω (Inventory ω)) : Engine (Inventory ω) where
  begin := begin
  commit := commit
  rollback _ := pure ()
  ids := ids
  withIds ids inventory := { inventory with ids }
  publish notices := modify (Notifier.publish notifier react notices)

end Inventory

end Estate
