import Estate.Ids
import Estate.Revision
import Estate.Store.Reads

/-!
What a transaction can write. A write keeps the state it fails in: ids drawn stay drawn, and
whatever was written before the failure stays written.
-/
namespace Estate

structure Draft where
  tx : Transaction
  ids : IdSource

abbrev Drafting (α : Type) := ExceptT Error (StateM Draft) α

namespace Drafting

def look (read : Transaction → Except Error α) : Drafting α := do
  match read (← get).tx with
  | .ok value => pure value
  | .error error => throw error

/-- A look-up that may find nothing, which is no failure. -/
def look? (read : Transaction → Except Error α) : Drafting (Option α) := do
  match read (← get).tx with
  | .ok value => pure (some value)
  | .error (.missing _) => pure none
  | .error error => throw error

def draw : Drafting String :=
  modifyGet fun draft => let (id, ids) := draft.ids.draw; (id, { draft with ids })

def write (change : Change) : Drafting Unit := do
  let draft ← get
  match draft.tx.write change with
  | .ok tx => set { draft with tx }
  | .error error => throw error

section

variable (writing : Change → Drafting Unit)

def writeAllBy : List Change → Drafting Unit
  | [] => pure ()
  | change :: rest => do
    writing change
    writeAllBy rest

def persistBy (path : Path) (blueprint : Blueprint) : Drafting Handle := do
  let entity ← look fun _ => Entity.ofBlueprint path blueprint
  writing (.insertEntity entity)
  pure (.entity path)

/-- Relates two entities under a new id, which is drawn before the write is tried. -/
def relateBy (source target : Handle) (name : String) (properties : Properties) :
    Drafting Handle := do
  let source ← look fun _ => source.path
  let target ← look fun _ => target.path
  let id ← draw
  writing (.insertRelationship { id, name, source, target, properties })
  pure (.relationship id)

/-- Deletes an entity without contents, together with every relationship at it. -/
def deleteEntityBy (path : Path) : Drafting Unit := do
  let graph := (← get).tx.working
  if !graph.entities.contains path then throw (.missing (.entity path))
  if graph.hasContents path then throw (.stillContains path)
  writeAllBy writing ((graph.touching path .both none).map fun rel => .removeRelationship rel.id)
  writing (.removeEntity path)

def deleteRelationshipBy (id : String) : Drafting Unit := do
  let graph := (← get).tx.working
  if !graph.relationships.contains id then throw (.missing (.relationship id))
  writing (.removeRelationship id)

def deleteBy : Handle → Drafting Unit
  | .entity path => deleteEntityBy writing path
  | .relationship id => deleteRelationshipBy writing id

def updateBy (handle : Handle) (update : Update) : Drafting Unit := do
  match ← look (·.findElement handle) with
  | .entity entity => writing (.replaceEntity (← look fun _ => entity.revise update))
  | .relationship rel => writing (.replaceRelationship (← look fun _ => rel.revise update))

end

abbrev writeAll : List Change → Drafting Unit := writeAllBy write

def persist : Path → Blueprint → Drafting Handle := persistBy write

def relate : Handle → Handle → String → Properties → Drafting Handle := relateBy write

def deleteEntity : Path → Drafting Unit := deleteEntityBy write

def deleteRelationship : String → Drafting Unit := deleteRelationshipBy write

def delete : Handle → Drafting Unit := deleteBy write

def update : Handle → Update → Drafting Unit := updateBy write

end Drafting

end Estate
