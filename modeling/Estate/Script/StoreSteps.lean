import Estate.Script.Session

namespace Estate.Script.Session

def onTransaction (name : String) (run : Transaction → Except Error α) (wrap : α → Answer) :
    StateM Session Outcome := do
  match (← get).transactions.lookup name with
  | none => return .unusable
  | some tx => return .ofExcept wrap (run tx)

/-- Writes in a named transaction, which keeps whatever a failing write leaves. -/
def onDraft (name : String) (body : Drafting α) (wrap : α → Answer) : StateM Session Outcome := do
  let session ← get
  match session.transactions.lookup name with
  | none => return .unusable
  | some tx =>
    let (outcome, draft) := body.run.run { tx, ids := session.inventory.ids }
    set { session with
      inventory := { session.inventory with ids := draft.ids }
      transactions := session.transactions.map fun (other, tx) =>
        (other, if other == name then draft.tx else tx) }
    return .ofExcept wrap outcome

def release (name : String) : StateM Session (Option Transaction) :=
  modifyGet fun session =>
    (session.transactions.lookup name,
      { session with transactions := session.transactions.filter (·.1 != name) })

/-- All that is committed, entities by path and relationships by their text. -/
def dump (tx : Transaction) : Except Error (List Entity × List String) := do
  let handles := (tx.query .empty .unlimited).items
  let entities ← handles.mapM tx.convertEntity
  let texts := tx.working.relationships.values.map Relationship.text
  return (entities, texts.mergeSort fun a b => (compare a b).isLE)

def runStoreStep : StoreStep → StateM Session Outcome
  | .begin name access => do
    let tx ← onInventory (Inventory.begin access)
    modify fun session =>
      { session with transactions := (name, tx) :: session.transactions.filter (·.1 != name) }
    return .ok (.begun tx.number tx.access.isMutating)
  | .commit name => do
    match ← release name with
    | none => return .unusable
    | some tx => return .ofExcept (fun _ => .done) (← onInventory (Inventory.commit tx))
  | .rollback name => do
    match ← release name with
    | none => return .unusable
    | some _ => return .ok .done
  | .query name query pager => onTransaction name (fun tx => .ok (tx.query query pager)) .handlePage
  | .find name path => onTransaction name (·.find path) .handle
  | .findRelationship name id => onTransaction name (·.findRelationship id) .handle
  | .getRelationship name source target relationship =>
    onTransaction name (·.getRelationship source target relationship) .handle
  | .hasRelationship name source target relationship =>
    onTransaction name (·.hasRelationship source target relationship) .flag
  | .getRelationships name handle direction relationship =>
    onTransaction name (·.getRelationships handle direction relationship) .handles
  | .persist name path blueprint => onDraft name (Drafting.persist path blueprint) .handle
  | .relate name source target relationship properties =>
    onDraft name (Drafting.relate source target relationship properties) .handle
  | .delete name handle => onDraft name (Drafting.delete handle) fun _ => .done
  | .update name handle update => onDraft name (Drafting.update handle update) fun _ => .done
  | .extract handle => return .ok (.extracted handle)
  | .convert name handle category => onTransaction name (·.convert handle category) .element
  | .convertEntity name handle => onTransaction name (·.convertEntity handle) .entity
  | .convertRelationship name handle =>
    onTransaction name (·.convertRelationship handle) .relationship
  | .committed path => return .ok (.maybeEntity ((← get).store.committed.entities.find? path))
  | .dump => do
    let tx ← onInventory (Inventory.begin .readOnly)
    return .ofExcept (fun (entities, relationships) => .dump entities relationships) (dump tx)

end Estate.Script.Session
