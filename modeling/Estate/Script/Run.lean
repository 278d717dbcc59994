import Estate.Script.StoreSteps

namespace Estate.Script.Session

/-- Rivals run before anything else a commit does. -/
def runRivals : StateM Session Unit := do
  let rivals := (← get).rivals
  modify ({ · with rivals := [] })
  for rival in rivals do
    let outcome ←
      match rival with
      | .ok step => runStoreStep step
      | .error error => pure (.error error)
    modify fun session => { session with raced := session.raced ++ [outcome] }

def commit (tx : Transaction) : StateM Session (Except Error Unit) := do
  modify fun session => { session with commits := session.commits + 1 }
  if tx.access.isMutating then runRivals
  if (← get).failCommits then return .error (.storage "injected commit failure")
  onInventory (Inventory.commit tx)

/-- Whether a rollback fails is for logs alone, so only the attempt counts. -/
def rollback : StateM Session Unit :=
  modify fun session => { session with rollbacks := session.rollbacks + 1 }

/-- The engine of a session, short of publication. -/
def quietEngine : Engine Session where
  begin access := onInventory (Inventory.begin access)
  commit := commit
  rollback _ := rollback
  ids session := session.inventory.ids
  withIds ids session := { session with inventory := { session.inventory with ids } }
  publish _ := pure ()

def countEnvironments : StateM Session (Option Nat) := do
  match tenants.all.follow? .environments with
  | none => return none
  | some environments =>
    let settings := (← get).inventory.settings
    match ← quietEngine.read (environments.all.entities settings .unlimited) with
    | .ok page => return some page.total
    | .error _ => return none

def publish (notices : List Notice) : StateM Session Unit :=
  modify (Notifier.publish (fun session => session.inventory.notifier)
    (react countEnvironments) notices)

def engine : Engine Session := { quietEngine with publish }

def resolve (session : Session) (chain : Chain) : Option AnyView := do
  let start ←
    match chain.saved with
    | some name => session.views.lookup name
    | none => some (.listing tenants)
  chain.moves.foldlM AnyView.move? start

def reading (view : Option (Settings → Reading α)) (wrap : α → Answer) :
    StateM Session Outcome := do
  match view with
  | none => return .unusable
  | some reading => return .ofExcept wrap (← engine.read (reading (← get).inventory.settings))

def mutation (view : Option (Settings → Drafting (Announced α))) (wrap : α → Answer) :
    StateM Session Outcome := do
  match view with
  | none => return .unusable
  | some body => return .ofExcept wrap (← engine.mutate (body (← get).inventory.settings))

def listing? (session : Session) (chain : Chain) : Option Listing := do
  match ← session.resolve chain with
  | .listing view => some view
  | _ => none

/-- A listing whose entities can be created, updated and deleted. -/
def managed? (session : Session) (chain : Chain) : Option Listing :=
  (session.listing? chain).filter (·.scope = .manage)

def associations? (session : Session) (chain : Chain) : Option Associations :=
  (session.listing? chain).bind (·.associations?)

def single? (session : Session) (chain : Chain) : Option Single := do
  match ← session.resolve chain with
  | .single view => some view
  | _ => none

def multiple? (session : Session) (chain : Chain) : Option Multiple := do
  match ← session.resolve chain with
  | .multiple view => some view
  | _ => none

def relations? (session : Session) (chain : Chain) (direction : Direction) : Option Relations :=
  (session.single? chain).map (·.relations direction)

def save (name : Option String) (view : AnyView) : StateM Session Unit :=
  match name with
  | some name => modify fun session => { session with views := (name, view) :: session.views }
  | none => pure ()

def create (listing : Listing) (blueprint : Blueprint) (name : Option String) :
    StateM Session Outcome := do
  if blueprint.kind ≠ listing.kind then return .unusable
  match ← engine.mutate (listing.create (← get).inventory.settings blueprint) with
  | .ok path =>
    let view := listing.created path
    save name (.single view)
    return .ok (.view view.position.query)
  | .error error => return .error error

def link (view : Relations) (name : String) (other : Path) (properties : Properties) :
    StateM Session Outcome := do
  match view.linkable with
  | .error error => return .error error
  | .ok () => return .ofExcept .relationship (← engine.mutate (view.link name other properties))

/-- The positions that shifts pass through, one after another. -/
def shiftAll (position : Position) : List Shift → List Position
  | [] => []
  | shift :: rest =>
    let next := shift.apply position
    next :: shiftAll next rest

def describePosition (view : AnyView) (shifts : List Shift) (name : Option String) :
    StateM Session Outcome := do
  save name view
  let listing :=
    match view with
    | .listing listing => some listing
    | _ => none
  return .ok (.positions view.position (shiftAll view.position shifts) listing)

def runStep (step : Step) : StateM Session Outcome := do
  let session ← get
  match step with
  | .create chain blueprint name =>
    match session.managed? chain with
    | none => return .unusable
    | some listing => create listing blueprint name
  | .update chain id update =>
    mutation ((session.managed? chain).map fun view _ => view.update id update) fun _ => .done
  | .delete chain id =>
    mutation ((session.managed? chain).map fun view _ => view.delete id) fun _ => .done
  | .associate chain target =>
    mutation ((session.associations? chain).map fun view _ => view.associate target) .relationship
  | .disassociate chain target =>
    mutation ((session.associations? chain).map fun view _ => view.disassociate target)
      .relationship
  | .association chain id =>
    reading ((session.associations? chain).map fun view settings => view.association settings id)
      .relationship
  | .entity chain =>
    reading ((session.single? chain).map fun view settings => view.entity settings) .entity
  | .isThere chain =>
    match session.single? chain with
    | none => return .unusable
    | some view =>
      let loaded ← engine.read (view.entity session.inventory.settings)
      return .ofExcept .flag (Single.existsGiven loaded)
  | .entities chain pager full =>
    reading ((session.multiple? chain).map fun view settings => view.entities settings pager)
      (.page · full)
  | .relationships chain direction name =>
    reading ((session.relations? chain direction).map fun view settings => view.list settings name)
      .relationships
  | .relationship chain direction id =>
    reading ((session.relations? chain direction).map fun view settings => view.get settings id)
      .relationship
  | .link chain direction name other properties =>
    match session.relations? chain direction with
    | none => return .unusable
    | some view => link view name other properties
  | .updateRelationship chain direction id update =>
    mutation ((session.relations? chain direction).map fun view _ => view.update id update)
      fun _ => .done
  | .deleteRelationship chain direction id =>
    mutation ((session.relations? chain direction).map fun view _ => view.delete id) fun _ => .done
  | .position chain shifts name =>
    match session.resolve chain with
    | none => return .unusable
    | some view => describePosition view shifts name
  | .setting chain key =>
    match session.resolve chain with
    | none => return .unusable
    | some _ =>
      let text := session.inventory.settings.property? key
      return .ok (.settings [text, text])
  | .observe observer => return .ok (.subscribed (← subscribe observer))
  | .unobserve name => return .ok (.maybeFlag (← unsubscribe name))
  | .hasObservers topic => return .ok (.flag (session.inventory.notifier.isObserved topic))
  | .failCommits on =>
    set { session with failCommits := on }
    return .ok .done
  | .failRollbacks _ => return .ok .done
  | .race steps =>
    set { session with rivals := steps }
    return .ok .done
  | .close => return .ok .done
  | .store step => runStoreStep step

structure Report where
  outcome : Outcome
  entities : Nat
  relationships : Nat
  commits : Nat
  rollbacks : Nat
  events : List Event
  raced : List Outcome

/-- Runs one step; one that was misread fails without effect. -/
def report (step : Except Error Step) : StateM Session Report := do
  modify ({ · with events := [], raced := [] })
  let outcome ←
    match step with
    | .ok step => runStep step
    | .error error => pure (.error error)
  let session ← get
  return {
    outcome
    entities := session.store.committed.entities.size
    relationships := session.store.committed.relationships.size
    commits := session.commits
    rollbacks := session.rollbacks
    events := session.events
    raced := session.raced }

def reportAll (steps : List (Except Error Step)) : StateM Session (List Report) := steps.mapM report

def ofSettings (settings : Settings) : Session := { inventory := { settings } }

end Estate.Script.Session
