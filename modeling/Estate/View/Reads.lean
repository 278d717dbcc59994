import Estate.Store.Reads
import Estate.View

namespace Estate

abbrev Reading (α : Type) := Transaction → Except Error α

namespace Reading

/-- The first entity a query reaches; the kind only words the error. -/
def first (query : Query) (kind : Option Kind) : Reading Handle := fun tx =>
  match (tx.query query .single).items with
  | handle :: _ => .ok handle
  | [] => .error (.nothingReached kind query)

def entityAt (path : Path) : Reading Handle := fun tx =>
  match tx.find path with
  | .error (.missing _) => .error (.entityAbsent path)
  | other => other

/-- Checks that an entity has the fields of a kind. -/
def narrow (kind : Kind) (entity : Entity) : Except Error Entity :=
  if entity.details.kind = kind then .ok entity else .error (.misuse (.notOfKind kind entity.kind))

end Reading

/-- The entity itself; a hidden one is as good as absent. -/
def Single.entity (settings : Settings) (single : Single) : Reading Entity := fun tx => do
  let query := single.position.query
  let handle ← Reading.first query (some single.kind) tx
  let entity ← tx.convertEntity handle
  if settings.isVisible (.entity entity) then Reading.narrow single.kind entity
  else throw (.nothingReached (some single.kind) query)

/-- Whether loading an entity succeeded; only its absence counts as a no. -/
def Single.existsGiven : Except Error Entity → Except Error Bool
  | .ok _ => .ok true
  | .error error => if error.family = .entityNotFound then .ok false else .error error

def Multiple.load (settings : Settings) (kind : Kind) (tx : Transaction) :
    List Handle → Except Error (List Entity)
  | [] => .ok []
  | handle :: rest => do
    let entity ← tx.convertEntity handle
    if settings.isVisible (.entity entity) then
      let entity ← Reading.narrow kind entity
      return entity :: (← load settings kind tx rest)
    else load settings kind tx rest

/-- One page of the entities by path; those hidden are missing from the page and from its total. -/
def Multiple.entities (settings : Settings) (multiple : Multiple) (pager : Pager) :
    Reading (Page Entity) :=
  fun tx => do
    let page := tx.query multiple.position.query pager
    let items ← Multiple.load settings multiple.kind tx page.items
    return { items, total := page.total - (page.items.length - items.length) }

end Estate
