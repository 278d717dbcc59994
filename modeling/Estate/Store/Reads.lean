import Estate.Graph.Walk
import Estate.Paging
import Estate.Store

namespace Estate

def Handle.path : Handle → Except Error Path
  | .entity path => .ok path
  | .relationship id => .error (.misuse (.notAnEntityHandle id))

namespace Transaction

def query (tx : Transaction) (query : Query) (pager : Pager) : Page Handle :=
  (pager.apply (tx.working.evaluate query)).map .entity

def find (tx : Transaction) (path : Path) : Except Error Handle :=
  if tx.working.entities.contains path then .ok (.entity path) else .error (.missing (.entity path))

def findRelationship (tx : Transaction) (id : String) : Except Error Handle :=
  if tx.working.relationships.contains id then .ok (.relationship id)
  else .error (.missing (.relationship id))

/-- The first relationship of a name between two entities. -/
def getRelationship (tx : Transaction) (source target : Handle) (name : String) :
    Except Error Handle := do
  let source ← source.path
  let target ← target.path
  match tx.working.between? source target name with
  | some rel => .ok (.relationship rel.id)
  | none => .error (.missing (.between source name target))

def hasRelationship (tx : Transaction) (source target : Handle) (name : String) :
    Except Error Bool :=
  match tx.getRelationship source target name with
  | .ok _ => .ok true
  | .error (.missing _) => .ok false
  | .error error => .error error

def byId (rels : List Relationship) : List Relationship :=
  rels.mergeSort fun a b => (compare a.id b.id).isLE

/-- The relationships that touch an entity, in ascending order of their ids. -/
def getRelationships (tx : Transaction) (entity : Handle) (direction : Direction)
    (name : Option String) :
    Except Error (List Handle) := do
  let path ← entity.path
  if tx.working.entities.contains path then
    .ok ((byId (tx.working.touching path direction name)).map fun rel => .relationship rel.id)
  else .error (.missing (.entity path))

def findElement (tx : Transaction) : Handle → Except Error Element
  | .entity path =>
    match tx.working.entities.find? path with
    | some entity => .ok (.entity entity)
    | none => .error (.missing (.entity path))
  | .relationship id =>
    match tx.working.relationships.find? id with
    | some rel => .ok (.relationship rel)
    | none => .error (.missing (.relationship id))

/-- The element behind a handle, which must name one of the category. -/
def convert (tx : Transaction) (handle : Handle) (category : Category) : Except Error Element :=
  if handle.category = category then tx.findElement handle
  else .error (.misuse (.wrongCategory handle.category category))

def convertEntity (tx : Transaction) (handle : Handle) : Except Error Entity := do
  match ← tx.convert handle handle.category with
  | .entity entity => .ok entity
  | .relationship rel => .error (.misuse (.notAnEntity rel.id))

def convertRelationship (tx : Transaction) (handle : Handle) : Except Error Relationship := do
  match ← tx.convert handle .relationship with
  | .relationship rel => .ok rel
  | .entity entity => .error (.misuse (.notARelationship entity.path))

end Transaction

end Estate
