import Estate.Notice
import Estate.Store.Writes
import Estate.View.Reads

namespace Estate

namespace Listing

/-- The entity that new ones go under; tenants go under none. -/
def parent (listing : Listing) : Drafting (Option (Handle × Path)) := do
  if listing.kind = .tenant then return none
  let handle ← Drafting.look (Reading.first listing.position.source none)
  let entity ← Drafting.look (·.convertEntity handle)
  return some (handle, entity.path)

/-- The id an entity asks for, or a generated one; feeds are named by the settings. -/
def chooseId (settings : Settings) (listing : Listing) (parent : Option (Handle × Path))
    (blueprint : Blueprint) : Drafting String :=
  let wanted :=
    match parent, listing.kind with
    | some (_, environment), .feed => settings.feedNaming environment blueprint.id
    | _, _ => blueprint.id
  match wanted with
  | some id => pure id
  | none => Drafting.draw

def place (listing : Listing) (parent : Option (Handle × Path)) (id : String) :
    Except Path.Fault Path :=
  match parent with
  | some (_, path) => path.extend listing.kind id
  | none => Path.tenant id

def relateAnnounced (result : Announced Path) (source target : Handle) (name : Reserved) :
    Drafting (Announced Path) := do
  let handle ← Drafting.relate source target name.name ∅
  let rel ← Drafting.look (·.convertRelationship handle)
  return result.announce (.relationship .created rel)

/-- Relates an entity to the type that defines it. -/
def relateType (result : Announced Path) (entity : Entity) (handle : Handle) :
    Drafting (Announced Path) :=
  match entity.type? with
  | none => pure result
  | some type => do
    match ← Drafting.look? (·.find type) with
    | none => throw (.misuse (.typeMissing type))
    | some definer => relateAnnounced result definer handle .defines

/-- Stores an entity under its parent, related to its parent and to its type. -/
def create (settings : Settings) (listing : Listing) (blueprint : Blueprint) :
    Drafting (Announced Path) := do
  let parent ← listing.parent
  let id ← listing.chooseId settings parent blueprint
  let path ← Drafting.look fun _ => (listing.place parent id).mapError .path
  if (← Drafting.look? (·.find path)).isSome then throw (.entityPresent path)
  let handle ← Drafting.persist path blueprint
  let entity ← Drafting.look (·.convertEntity handle)
  let result : Announced Path := { value := path, notices := [.entity .created entity] }
  let result ←
    match parent with
    | some (container, _) => relateAnnounced result container handle .contains
    | none => pure result
  relateType result entity handle

def created (listing : Listing) (path : Path) : Single :=
  { kind := listing.kind, position := .anchor path }

def locate (listing : Listing) (id : String) : Drafting Handle :=
  Drafting.look (Reading.first (listing.get id).position.query (some listing.kind))

def update (listing : Listing) (id : String) (update : Update) : Drafting (Announced Unit) := do
  let handle ← listing.locate id
  Drafting.update handle update
  let entity ← Drafting.look (·.convertEntity handle)
  return { value := (), notices := [.entity .updated entity] }

/-- The relationships at an entity go with it, and are announced before it. -/
def delete (listing : Listing) (id : String) : Drafting (Announced Unit) := do
  let handle ← listing.locate id
  let entity ← Drafting.look (·.convertEntity handle)
  let handles ← Drafting.look (·.getRelationships handle .both none)
  let rels ← Drafting.look fun tx => handles.mapM tx.convertRelationship
  Drafting.delete handle
  return { value := (), notices := rels.map (.relationship .deleted) ++ [.entity .deleted entity] }

end Listing

end Estate
