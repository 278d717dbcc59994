import Estate.View.Manage

namespace Estate

/-- A view whose candidates can be associated with entities of the kind `source`. -/
structure Associations where
  kind : Kind
  position : Position
  source : Kind
  name : Reserved

/-- The association side of a listing, where it has one. -/
def Listing.associations? (listing : Listing) : Option Associations :=
  match listing.scope with
  | .associate source name =>
    some { kind := listing.kind, position := listing.position, source, name }
  | _ => none

namespace Associations

def sourceQuery (view : Associations) : Query :=
  (view.position.source.extend.filter.all [.kind view.source]).build

def targetQuery (view : Associations) (id : String) : Query :=
  ((view.sourceQuery.extend.path.all [.hop view.name.name .outgoing]).filter.all
    [.kind view.kind, .id id]).build

def sourceEntity (view : Associations) : Reading Handle :=
  Reading.first view.sourceQuery (some view.source)

def target (view : Associations) (path : Path) : Reading Handle := fun tx =>
  if path.kind = view.kind then Reading.entityAt path tx
  else .error (.misuse (.notAssociable path.kind view.kind view.name))

def associate (view : Associations) (path : Path) : Drafting (Announced Relationship) := do
  let source ← Drafting.look view.sourceEntity
  let target ← Drafting.look (view.target path)
  let entity ← Drafting.look (·.convertEntity source)
  if entity.path.tenantId ≠ path.tenantId then throw (.misuse (.acrossTenants entity.path path))
  if ← Drafting.look (·.hasRelationship source target view.name.name) then
    throw (.associated entity.path view.name path)
  let handle ← Drafting.relate source target view.name.name ∅
  let rel ← Drafting.look (·.convertRelationship handle)
  return { value := rel, notices := [.relationship .created rel] }

def disassociate (view : Associations) (path : Path) : Drafting (Announced Relationship) := do
  let source ← Drafting.look view.sourceEntity
  let target ← Drafting.look (view.target path)
  match ← Drafting.look? (·.getRelationship source target view.name.name) with
  | none => throw (.notAssociated view.name view.sourceQuery path)
  | some handle =>
    let rel ← Drafting.look (·.convertRelationship handle)
    Drafting.delete handle
    return { value := rel, notices := [.relationship .deleted rel] }

/-- The association with the associated entity of an id; a hidden one is as good as absent. -/
def association (settings : Settings) (view : Associations) (id : String) : Reading Relationship :=
  fun tx => do
  let absent : Error := .notAssociatedId view.name view.sourceQuery view.kind id
  let source ← view.sourceEntity tx
  let target ← Reading.first (view.targetQuery id) (some view.kind) tx
  let handle ←
    match tx.getRelationship source target view.name.name with
    | .error (.missing _) => .error absent
    | other => other
  let rel ← tx.convertRelationship handle
  if settings.isVisible (.relationship rel) then return rel else throw absent

end Associations

end Estate
