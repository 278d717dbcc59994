import Estate.View.Manage

namespace Estate

structure Relations where
  position : Position
  direction : Direction

def Single.relations (single : Single) (direction : Direction) : Relations :=
  { position := single.position, direction }

namespace Relations

def entity (view : Relations) : Reading Handle := Reading.first view.position.query none

/-- The visible relationships on this side by id, all of them or those of one name. -/
def list (settings : Settings) (view : Relations) (name : Option String) :
    Reading (List Relationship) :=
  fun tx => do
    let entity ← view.entity tx
    let handles ← tx.getRelationships entity view.direction name
    let rels ← handles.mapM tx.convertRelationship
    return rels.filter fun rel => settings.isVisible (.relationship rel)

/-- The relationship with an id, which must be on this side of the entity. -/
def own (view : Relations) (id : String) : Reading (Handle × Relationship) := fun tx => do
  let handle ← view.entity tx
  let entity ← tx.convertEntity handle
  let found ←
    match tx.findRelationship id with
    | .error (.missing _) => .error (.relationshipAbsent id)
    | other => other
  let rel ← tx.convertRelationship found
  if rel.touches entity.path view.direction then return (found, rel)
  else throw (.relationshipElsewhere id view.direction entity.path)

def get (settings : Settings) (view : Relations) (id : String) : Reading Relationship :=
  fun tx => do
  let (_, rel) ← view.own id tx
  if settings.isVisible (.relationship rel) then return rel else throw (.relationshipAbsent id)

/-- A link needs one side; this is looked at before any transaction begins. -/
def linkable (view : Relations) : Except Error Unit :=
  if view.direction = .both then .error (.misuse .linkBothWays) else .ok ()

/-- Relates the entity to another; seen from the incoming side, the other is the source. -/
def link (view : Relations) (name : String) (path : Path) (properties : Properties) :
    Drafting (Announced Relationship) := do
  let entity ← Drafting.look view.entity
  let other ← Drafting.look (Reading.entityAt path)
  let (source, target) := if view.direction = .incoming then (other, entity) else (entity, other)
  if Reserved.isReserved name then
    if ← Drafting.look (·.hasRelationship source target name)
      then throw (.linked source.id name target.id)
  if name = Reserved.contains.name then throw (.misuse .linkContains)
  let handle ← Drafting.relate source target name properties
  let rel ← Drafting.look (·.convertRelationship handle)
  return { value := rel, notices := [.relationship .created rel] }

def update (view : Relations) (id : String) (update : Update) : Drafting (Announced Unit) := do
  let (handle, _) ← Drafting.look (view.own id)
  Drafting.update handle update
  let rel ← Drafting.look (·.convertRelationship handle)
  return { value := (), notices := [.relationship .updated rel] }

/-- Containment ends only with the contained entity. -/
def delete (view : Relations) (id : String) : Drafting (Announced Unit) := do
  let (handle, rel) ← Drafting.look (view.own id)
  if rel.name = Reserved.contains.name then throw (.misuse (.containsStays id rel.target))
  Drafting.delete handle
  return { value := (), notices := [.relationship .deleted rel] }

end Relations

end Estate
