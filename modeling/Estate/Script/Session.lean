import Estate.Script

namespace Estate.Script

structure Session where
  inventory : Inventory Observer := {}
  /-- open transactions by name, the newest first -/
  transactions : List (String × Transaction) := []
  /-- saved views by name, the newest first -/
  views : List (String × AnyView) := []
  /-- subscription numbers by the name of their observer, the newest first -/
  subscribers : List (String × Nat) := []
  /-- commits and rollbacks of the inventory, whether or not they succeeded -/
  commits : Nat := 0
  rollbacks : Nat := 0
  failCommits : Bool := false
  /-- what is to happen inside the next commit -/
  rivals : List (Except Error StoreStep) := []
  /-- how the rivals fared, where some ran -/
  raced : List Outcome := []
  events : List Event := []

namespace Session

def store (session : Session) : Store := session.inventory.store

def note (event : Event) : StateM Session Unit :=
  modify fun session => { session with events := session.events ++ [event] }

def onInventory (run : StateM (Inventory Observer) α) : StateM Session α :=
  modifyGet fun session =>
    let (value, inventory) := run.run session.inventory
    (value, { session with inventory })

def subscribe (observer : Observer) : StateM Session Nat :=
  modifyGet fun session =>
    let (number, notifier) := session.inventory.notifier.subscribe observer.topic observer
    (number, { session with
      inventory := { session.inventory with notifier }
      subscribers := (observer.name, number) :: session.subscribers })

/-- Ends the newest subscription of a name. -/
def unsubscribe (name : String) : StateM Session (Option Bool) :=
  modifyGet fun session =>
    match session.subscribers.lookup name with
    | none => (none, session)
    | some number =>
      let (found, notifier) := session.inventory.notifier.unsubscribe number
      (some found, { session with inventory := { session.inventory with notifier } })

def noteCommitted (observer : String) (notice : Notice) : StateM Session Unit := do
  let graph := (← get).store.committed
  match notice.element with
  | .entity entity => note (.entityCommitted observer (graph.entities.contains entity.path))
  | .relationship _ => note (.relationshipsCommitted observer graph.relationships.size)

/-- What observers do, given how the inventory counts environments. -/
def react (countEnvironments : StateM Session (Option Nat)) : Notifier.Reaction Observer Session :=
  fun observer notice => do
    note (.heard observer.name notice)
    match observer.behavior with
    | .log => return .normal
    | .panic => return .panic
    | .committed => noteCommitted observer.name notice
    | .count => note (.counted observer.name (← countEnvironments))
    | .unsubscribe other => note (.unsubscribed observer.name (← unsubscribe other))
    | .subscribe =>
      discard <| subscribe { observer with name := observer.name ++ "+", behavior := .log }
    return .normal

end Session

end Estate.Script
