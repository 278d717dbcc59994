import Estate.Proofs.Graph.Lookups
import Estate.Proofs.View.Mutations

/-!
Deeds: what mutations do when they succeed. Each body is followed once, to what it has written and
what it announces; whatever else there is to say of mutations is read off here.
-/
namespace Estate

variable {draft later : Draft} {settings : Settings}

open Drafting (perform_bind_eq_ok_iff perform_look_bind_eq_ok_iff perform_look?_bind_eq_ok
  perform_unless_eq_ok_iff)

/-- The edges that tie a new entity in: from its parent, and from its type. -/
def Entity.wiring (entity : Entity) : List Edge :=
  (entity.path.up?.map fun parent => .containment parent entity.path).toList ++
    (entity.type?.map fun type => ⟨Reserved.defines.name, type, entity.path⟩).toList

/-- What a mutation writes and announces, decided on a graph. -/
inductive Deed (graph : Graph) : Mutation → List Change → List Notice → Prop where
  | create {listing : Listing} {blueprint : Blueprint} {entity : Entity} {rels : List Relationship}
      (made : Entity.ofBlueprint entity.path blueprint = .ok entity)
      (wired : rels.map (·.edge) = entity.wiring) :
      Deed graph (.create listing blueprint) (.insertEntity entity :: rels.map .insertRelationship)
        (.entity .created entity :: rels.map (.relationship .created))
  | update {listing : Listing} {id : String} {revision : Update} {path : Path}
      {entity revised : Entity}
      (stored : graph.entities.find? path = some entity)
      (revises : entity.revise revision = .ok revised) :
      Deed graph (.update listing id revision) [.replaceEntity revised] [.entity .updated revised]
  | delete {listing : Listing} {id : String} {entity : Entity} {rels : List Relationship}
      (stored : graph.entities.find? entity.path = some entity)
      (bare : graph.hasContents entity.path = false)
      (detached : rels.Perm (graph.touching entity.path .both none)) :
      Deed graph (.delete listing id) (Act.removals graph entity.path)
        (rels.map (.relationship .deleted) ++ [.entity .deleted entity])
  | associate {view : Associations} {path : Path} {rel : Relationship}
      (named : rel.name = view.name.name)
      (within : rel.source.tenantId = rel.target.tenantId) :
      Deed graph (.associate view path) [.insertRelationship rel] [.relationship .created rel]
  | disassociate {view : Associations} {path : Path} {rel : Relationship}
      (stored : graph.relationships.find? rel.id = some rel) (named : rel.name = view.name.name) :
      Deed graph (.disassociate view path) [.removeRelationship rel.id] [.relationship .deleted rel]
  | link {view : Relations} {path : Path} {properties : Properties} {rel : Relationship}
      (apart : rel.name ≠ Reserved.contains.name) :
      Deed graph (.link view rel.name path properties) [.insertRelationship rel]
        [.relationship .created rel]
  | updateRelationship {view : Relations} {id : String} {revision : Update}
      {rel revised : Relationship}
      (stored : graph.relationships.find? id = some rel)
      (revises : rel.revise revision = .ok revised) :
      Deed graph (.updateRelationship view id revision) [.replaceRelationship revised]
        [.relationship .updated revised]
  | deleteRelationship {view : Relations} {rel : Relationship}
      (stored : graph.relationships.find? rel.id = some rel)
      (apart : rel.name ≠ Reserved.contains.name) :
      Deed graph (.deleteRelationship view rel.id) [.removeRelationship rel.id]
        [.relationship .deleted rel]

namespace Transaction

variable {tx next : Transaction}

theorem Wrote.working_single {change : Change} (wrote : tx.Wrote next [change]) :
    next.working = tx.working.after change := by
  obtain ⟨-, same⟩ := Graph.replay_cons_eq_ok_iff.mp wrote.replayed
  exact (Except.ok.inj same).symm

theorem Wrote.find?_insertEntity {entity : Entity} (wrote : tx.Wrote next [.insertEntity entity]) :
    next.working.entities.find? entity.path = some entity := by
  rw [wrote.working_single]
  simp [Graph.after]

theorem Wrote.find?_replaceEntity {entity : Entity}
    (wrote : tx.Wrote next [.replaceEntity entity]) :
    next.working.entities.find? entity.path = some entity := by
  rw [wrote.working_single]
  simp [Graph.after]

theorem Wrote.find?_insertRelationship {rel : Relationship}
    (wrote : tx.Wrote next [.insertRelationship rel]) :
    next.working.relationships.find? rel.id = some rel := by
  rw [wrote.working_single]
  simp [Graph.after]

theorem Wrote.find?_replaceRelationship {rel : Relationship}
    (wrote : tx.Wrote next [.replaceRelationship rel]) :
    next.working.relationships.find? rel.id = some rel := by
  rw [wrote.working_single]
  simp [Graph.after]

theorem convertRelationship_eq_ok_iff {id : String} {rel : Relationship} :
    tx.convertRelationship (.relationship id) = .ok rel ↔
      tx.working.relationships.find? id = some rel := by
  constructor
  · intro success
    obtain ⟨_, same, found⟩ := convertRelationship_eq_ok success
    cases same
    exact found
  · intro found
    simp [convertRelationship, convert, Handle.category, findElement, found, bind, Except.bind]

theorem mapM_convertRelationship {rels : List Relationship}
    (stored : ∀ rel ∈ rels, tx.working.relationships.find? rel.id = some rel) :
    (rels.map fun rel => Handle.relationship rel.id).mapM tx.convertRelationship = .ok rels := by
  induction rels with
  | nil => rfl
  | cons rel rest ih =>
    have here := convertRelationship_eq_ok_iff.mpr (stored rel List.mem_cons_self)
    have rest := ih fun other member => stored other (List.mem_cons_of_mem _ member)
    rw [List.map_cons, List.mapM_cons, here, rest]
    rfl

theorem touching_of_getRelationships {handle : Handle} {direction : Direction}
    {name : Option String} {handles : List Handle} {rels : List Relationship}
    (wellFormed : tx.working.WellFormed)
    (listed : tx.getRelationships handle direction name = .ok handles)
    (read : handles.mapM tx.convertRelationship = .ok rels) :
    ∃ path, handle = .entity path ∧ rels.Perm (tx.working.touching path direction name) := by
  obtain ⟨path, pathed, checks⟩ := bind_eq_ok_iff.mp listed
  refine ⟨path, Handle.path_eq_ok_iff.mp pathed, ?_⟩
  have sorted := List.mergeSort_perm (tx.working.touching path direction name) fun a b =>
    (compare a.id b.id).isLE
  split at checks
  · obtain rfl := Except.ok.inj checks
    have stored : ∀ rel ∈ byId (tx.working.touching path direction name),
        tx.working.relationships.find? rel.id = some rel := by
      intro rel member
      exact (wellFormed.mem_touching_iff.mp (sorted.mem_iff.mp member)).1
    obtain rfl := Except.ok.inj ((mapM_convertRelationship stored).symm.trans read)
    exact sorted
  · cases checks

theorem getRelationship_eq_ok {source target handle : Handle} {name : String}
    (wellFormed : tx.working.WellFormed)
    (success : tx.getRelationship source target name = .ok handle) :
    ∃ rel, handle = .relationship rel.id ∧ tx.working.relationships.find? rel.id = some rel ∧
      rel.name = name := by
  unfold getRelationship at success
  obtain ⟨starts, -, ends⟩ := bind_eq_ok_iff.mp success
  obtain ⟨ends, -, got⟩ := bind_eq_ok_iff.mp ends
  split at got
  · rename_i rel between
    obtain ⟨found, edge⟩ := wellFormed.between?_eq_some between
    exact ⟨rel, (Except.ok.inj got).symm, found, congrArg Edge.name edge⟩
  · cases got

end Transaction

theorem Drafting.wrote_of_update {handle : Handle} {revision : Update}
    (success : (Drafting.update handle revision).perform draft = (.ok (), later)) :
    ∃ element revised, draft.tx.working.element? handle = some element ∧
      element.revise revision = .ok revised ∧
      draft.tx.Wrote later.tx [revised.replacement] := by
  obtain ⟨element, found, revises⟩ := perform_look_bind_eq_ok_iff.mp success
  rw [Transaction.findElement_eq_ok_iff] at found
  cases element with
  | entity entity =>
    obtain ⟨revised, revises, written⟩ := perform_look_bind_eq_ok_iff.mp revises
    exact ⟨_, .entity revised, found, Element.revise_entity_eq_ok_iff.mpr ⟨revised, revises, rfl⟩,
      wrote_of_write written⟩
  | relationship rel =>
    obtain ⟨revised, revises, written⟩ := perform_look_bind_eq_ok_iff.mp revises
    exact ⟨_, .relationship revised, found,
      Element.revise_relationship_eq_ok_iff.mpr ⟨revised, revises, rfl⟩, wrote_of_write written⟩

/-- What a body does where it succeeds on a well-formed graph. -/
def Drafting.Does {α : Type} (body : Drafting (Announced α)) (mutation : Mutation) : Prop :=
  ∀ ⦃draft value later⦄, draft.tx.working.WellFormed → body.perform draft = (.ok value, later) →
    ∃ written, draft.tx.Wrote later.tx written ∧
      Deed draft.tx.working mutation written value.notices

theorem Drafting.Does.forget {α : Type} {body : Drafting (Announced α)} {mutation : Mutation}
    (does : body.Does mutation) : (Mutation.forget body).Does mutation := by
  intro draft value later wellFormed success
  obtain ⟨result, _, first, last⟩ := perform_bind_eq_ok_iff.mp success
  cases last
  exact does wellFormed first

namespace Listing

variable {listing : Listing} {blueprint : Blueprint}

theorem parent_eq_ok {parent : Option (Handle × Path)} (keyed : draft.tx.working.Keyed)
    (success : listing.parent.perform draft = (.ok parent, later)) :
    later = draft ∧ ∀ container path, parent = some (container, path) →
      container = .entity path := by
  unfold Listing.parent at success
  rw [Drafting.perform_ite] at success
  split at success
  · cases success
    exact ⟨rfl, nofun⟩
  · obtain ⟨handle, -, converts⟩ := perform_look_bind_eq_ok_iff.mp success
    obtain ⟨entity, converted, last⟩ := perform_look_bind_eq_ok_iff.mp converts
    obtain ⟨path, rfl, found⟩ := Transaction.convertEntity_eq_ok converted
    cases last
    refine ⟨rfl, fun container above same => ?_⟩
    cases same
    rw [keyed.entity found]

theorem tx_of_chooseId {parent : Option (Handle × Path)} {id : String}
    (success : (listing.chooseId settings parent blueprint).perform draft = (.ok id, later)) :
    later.tx = draft.tx := by
  simp only [chooseId] at success
  split at success
  · cases success
    rfl
  · cases success
    rfl

theorem up?_of_place {parent : Option (Handle × Path)} {id : String} {path : Path}
    (placed : listing.place parent id = .ok path) : path.up? = parent.map (·.2) := by
  cases parent with
  | none => exact Path.up?_tenant placed
  | some parent => exact Path.up?_extend placed

theorem wrote_of_relateAnnounced {result value : Announced Path} {source target : Path}
    {name : Reserved}
    (success : (relateAnnounced result (.entity source) (.entity target) name).perform draft =
      (.ok value, later)) :
    ∃ rel : Relationship, rel.edge = ⟨name.name, source, target⟩ ∧ rel.properties = ∅ ∧
      value = result.announce (.relationship .created rel) ∧
      draft.tx.Wrote later.tx [.insertRelationship rel] := by
  obtain ⟨handle, _, relates, converts⟩ := perform_bind_eq_ok_iff.mp success
  obtain ⟨rel, rfl, named, starts, ends, plain, wrote⟩ := Drafting.wrote_of_relate relates
  obtain ⟨read, converted, last⟩ := perform_look_bind_eq_ok_iff.mp converts
  cases last
  rw [Transaction.convertRelationship_eq_ok_iff, wrote.find?_insertRelationship] at converted
  obtain rfl := Option.some.inj converted
  cases starts
  cases ends
  exact ⟨rel, by rw [← named]; rfl, plain, rfl, wrote⟩

theorem wrote_of_relateType {result value : Announced Path} {entity : Entity} {path : Path}
    (success : (relateType result entity (.entity path)).perform draft = (.ok value, later)) :
    ∃ rels : List Relationship,
      rels.map (·.edge) = (entity.type?.map
        fun type => ⟨Reserved.defines.name, type, path⟩).toList ∧
        (∀ rel ∈ rels, rel.properties = ∅) ∧ value.value = result.value ∧
        value.notices = result.notices ++ rels.map (.relationship .created) ∧
        draft.tx.Wrote later.tx (rels.map .insertRelationship) := by
  unfold relateType at success
  split at success
  · rename_i untyped
    cases success
    exact ⟨[], by simp [untyped], nofun, rfl, by simp, .refl _⟩
  · rename_i type typed
    obtain ⟨found, got, defines⟩ := perform_look?_bind_eq_ok success
    split at defines
    · cases defines
    · rename_i definer
      have located := got definer rfl
      unfold Transaction.find at located
      split at located
      · cases located
        obtain ⟨rel, edge, plain, rfl, wrote⟩ := wrote_of_relateAnnounced defines
        exact ⟨[rel], by simp [typed, edge], by simp [plain], rfl, rfl, wrote⟩
      · cases located

/-- A creation stores the entity that its blueprint makes, and what ties it in. -/
theorem wrote_of_create {value : Announced Path} (keyed : draft.tx.working.Keyed)
    (success : (listing.create settings blueprint).perform draft = (.ok value, later)) :
    ∃ (entity : Entity) (rels : List Relationship),
      Entity.ofBlueprint entity.path blueprint = .ok entity ∧
      rels.map (·.edge) = entity.wiring ∧ (∀ rel ∈ rels, rel.properties = ∅) ∧
      value.value = entity.path ∧
      value.notices = .entity .created entity :: rels.map (.relationship .created) ∧
      draft.tx.Wrote later.tx (.insertEntity entity :: rels.map .insertRelationship) := by
  obtain ⟨parent, _, reached, chooses⟩ := perform_bind_eq_ok_iff.mp success
  obtain ⟨rfl, container⟩ := parent_eq_ok keyed reached
  obtain ⟨id, _, chosen, places⟩ := perform_bind_eq_ok_iff.mp chooses
  obtain ⟨path, sited, checks⟩ := perform_look_bind_eq_ok_iff.mp places
  have up := up?_of_place (mapError_eq_ok_iff.mp sited)
  obtain ⟨_, -, checked⟩ := perform_look?_bind_eq_ok checks
  obtain ⟨-, persists⟩ := perform_unless_eq_ok_iff.mp checked
  obtain ⟨_, _, persisted, converts⟩ := perform_bind_eq_ok_iff.mp persists
  obtain ⟨rfl, entity, made, stored⟩ := Drafting.wrote_of_persist persisted
  obtain ⟨created, converted, relates⟩ := perform_look_bind_eq_ok_iff.mp converts
  obtain rfl := Entity.path_ofBlueprint made
  -- what is read back is what was stored
  obtain ⟨_, same, found⟩ := Transaction.convertEntity_eq_ok converted
  cases same
  obtain rfl := Option.some.inj (stored.find?_insertEntity.symm.trans found)
  rw [tx_of_chooseId chosen] at stored
  cases parent with
  | none =>
    obtain ⟨_, _, kept, defines⟩ := perform_bind_eq_ok_iff.mp relates
    cases kept
    obtain ⟨rels, wired, plain, same, announced, wrote⟩ := wrote_of_relateType defines
    refine ⟨_, rels, made, ?_, plain, same, announced, stored.trans wrote⟩
    rw [wired, Entity.wiring, up]
    rfl
  | some parent =>
    obtain ⟨_, _, contained, defines⟩ := perform_bind_eq_ok_iff.mp relates
    rw [container _ _ rfl] at contained
    obtain ⟨rel, edge, bare, rfl, contains⟩ := wrote_of_relateAnnounced contained
    obtain ⟨rels, wired, plain, same, announced, wrote⟩ := wrote_of_relateType defines
    refine ⟨_, rel :: rels, made, ?_, List.forall_mem_cons.mpr ⟨bare, plain⟩, same, announced,
      stored.trans (contains.trans wrote)⟩
    rw [List.map_cons, wired, edge, Entity.wiring, up]
    rfl

theorem create_does (listing : Listing) (settings : Settings) (blueprint : Blueprint) :
    (listing.create settings blueprint).Does (.create listing blueprint) := by
  intro draft value later wellFormed success
  obtain ⟨entity, rels, made, wired, -, -, announced, wrote⟩ :=
    wrote_of_create wellFormed.toKeyed success
  refine ⟨_, wrote, ?_⟩
  rw [announced]
  exact .create made wired

theorem update_does (listing : Listing) (id : String) (revision : Update) :
    (listing.update id revision).Does (.update listing id revision) := by
  intro draft value later wellFormed success
  obtain ⟨handle, -, updates⟩ := perform_look_bind_eq_ok_iff.mp success
  obtain ⟨_, _, updated, converts⟩ := perform_bind_eq_ok_iff.mp updates
  obtain ⟨read, converted, last⟩ := perform_look_bind_eq_ok_iff.mp converts
  cases last
  obtain ⟨path, rfl, found⟩ := Transaction.convertEntity_eq_ok converted
  obtain ⟨element, revised, held, became, wrote⟩ := Drafting.wrote_of_update updated
  obtain ⟨entity, stored, rfl⟩ := Option.map_eq_some_iff.mp held
  obtain ⟨next, revises, rfl⟩ := Element.revise_entity_eq_ok_iff.mp became
  have here : next.path = path := (Entity.path_revise revises).trans (wellFormed.entity stored)
  have written := wrote.find?_replaceEntity
  rw [here] at written
  obtain rfl := Option.some.inj (written.symm.trans found)
  exact ⟨_, wrote, .update stored revises⟩

theorem delete_does (listing : Listing) (id : String) :
    (listing.delete id).Does (.delete listing id) := by
  intro draft value later wellFormed success
  obtain ⟨handle, -, converts⟩ := perform_look_bind_eq_ok_iff.mp success
  obtain ⟨entity, converted, lists⟩ := perform_look_bind_eq_ok_iff.mp converts
  obtain ⟨handles, listed, loads⟩ := perform_look_bind_eq_ok_iff.mp lists
  obtain ⟨rels, read, deletes⟩ := perform_look_bind_eq_ok_iff.mp loads
  obtain ⟨_, _, deleted, last⟩ := perform_bind_eq_ok_iff.mp deletes
  cases last
  obtain ⟨path, rfl, stored⟩ := Transaction.convertEntity_eq_ok converted
  obtain rfl := wellFormed.entity stored
  obtain ⟨_, same, detached⟩ := Transaction.touching_of_getRelationships wellFormed listed read
  cases same
  obtain ⟨bare, wrote⟩ := Drafting.wrote_of_deleteEntity deleted
  exact ⟨_, wrote, .delete stored bare detached⟩

end Listing

/-- A relationship just written is the one read back. -/
theorem Drafting.wrote_of_relate_read {source target : Handle} {name : String}
    {properties : Properties} {value : Announced Relationship} (success : (do
      let handle ← Drafting.relate source target name properties
      let rel ← Drafting.look (·.convertRelationship handle)
      return { value := rel, notices := [.relationship .created rel] } : Drafting _).perform draft =
        (.ok value, later)) :
    ∃ rel : Relationship, rel.name = name ∧ source = .entity rel.source ∧
      target = .entity rel.target ∧
      value.notices = [.relationship .created rel] ∧
      draft.tx.Wrote later.tx [.insertRelationship rel] := by
  obtain ⟨handle, _, relates, converts⟩ := perform_bind_eq_ok_iff.mp success
  obtain ⟨rel, rfl, named, starts, ends, -, wrote⟩ := Drafting.wrote_of_relate relates
  obtain ⟨read, converted, last⟩ := perform_look_bind_eq_ok_iff.mp converts
  cases last
  rw [Transaction.convertRelationship_eq_ok_iff, wrote.find?_insertRelationship] at converted
  obtain rfl := Option.some.inj converted
  exact ⟨rel, named, starts, ends, rfl, wrote⟩

namespace Associations

theorem target_eq_ok {view : Associations} {path : Path} {tx : Transaction} {target : Handle}
    (success : view.target path tx = .ok target) : target = .entity path := by
  unfold Associations.target Reading.entityAt Transaction.find at success
  by_cases fits : path.kind = view.kind
  · by_cases stored : tx.working.entities.contains path
    · simpa [fits, stored, eq_comm] using success
    · simp [fits, stored] at success
  · simp [fits] at success

theorem associate_does (view : Associations) (path : Path) :
    (view.associate path).Does (.associate view path) := by
  intro draft value later wellFormed success
  obtain ⟨source, -, aims⟩ := perform_look_bind_eq_ok_iff.mp success
  obtain ⟨target, aimed, converts⟩ := perform_look_bind_eq_ok_iff.mp aims
  obtain ⟨entity, converted, compares⟩ := perform_look_bind_eq_ok_iff.mp converts
  obtain ⟨within, checks⟩ := perform_unless_eq_ok_iff.mp compares
  obtain ⟨held, -, checked⟩ := perform_look_bind_eq_ok_iff.mp checks
  obtain ⟨-, relates⟩ := perform_unless_eq_ok_iff.mp checked
  obtain ⟨rel, named, starts, ends, announced, wrote⟩ := Drafting.wrote_of_relate_read relates
  refine ⟨_, wrote, ?_⟩
  rw [announced]
  apply Deed.associate named
  obtain ⟨place, rfl, found⟩ := Transaction.convertEntity_eq_ok converted
  obtain rfl := target_eq_ok aimed
  rw [wellFormed.entity found, ne_eq, Decidable.not_not] at within
  rw [← Handle.entity.inj starts, ← Handle.entity.inj ends]
  exact within

theorem disassociate_does (view : Associations) (path : Path) :
    (view.disassociate path).Does (.disassociate view path) := by
  intro draft value later wellFormed success
  obtain ⟨source, -, aims⟩ := perform_look_bind_eq_ok_iff.mp success
  obtain ⟨target, -, looks⟩ := perform_look_bind_eq_ok_iff.mp aims
  obtain ⟨found, got, decides⟩ := perform_look?_bind_eq_ok looks
  cases found with
  | none => cases decides
  | some handle =>
    obtain ⟨read, converted, deletes⟩ := perform_look_bind_eq_ok_iff.mp decides
    obtain ⟨_, _, deleted, last⟩ := perform_bind_eq_ok_iff.mp deletes
    cases last
    obtain ⟨rel, rfl, stored, named⟩ :=
      Transaction.getRelationship_eq_ok wellFormed (got handle rfl)
    rw [Transaction.convertRelationship_eq_ok_iff] at converted
    obtain rfl := Option.some.inj (stored.symm.trans converted)
    exact ⟨_, Drafting.wrote_of_deleteRelationship deleted, .disassociate stored named⟩

end Associations

namespace Relations

theorem own_eq_ok {view : Relations} {id : String} {tx : Transaction} {handle : Handle}
    {rel : Relationship} (success : view.own id tx = .ok (handle, rel)) :
    handle = .relationship id ∧ tx.working.relationships.find? id = some rel := by
  unfold own at success
  obtain ⟨entity, -, converts⟩ := bind_eq_ok_iff.mp success
  obtain ⟨stored, -, finds⟩ := bind_eq_ok_iff.mp converts
  unfold Transaction.findRelationship at finds
  by_cases present : tx.working.relationships.contains id
  · rw [if_pos present] at finds
    obtain ⟨found, same, loads⟩ := bind_eq_ok_iff.mp finds
    cases same
    obtain ⟨loaded, converted, last⟩ := bind_eq_ok_iff.mp loads
    rw [Transaction.convertRelationship_eq_ok_iff] at converted
    split at last
    · cases last
      exact ⟨rfl, converted⟩
    · cases last
  · rw [if_neg present] at finds
    cases finds

theorem wrote_of_link {name : String} {source target : Handle} {properties : Properties}
    {value : Announced Relationship} (success : (do
      if name = Reserved.contains.name then throw (.misuse .linkContains)
      let handle ← Drafting.relate source target name properties
      let rel ← Drafting.look (·.convertRelationship handle)
      return { value := rel, notices := [.relationship .created rel] } : Drafting _).perform draft =
        (.ok value, later)) :
    ∃ rel : Relationship, rel.name = name ∧ rel.name ≠ Reserved.contains.name ∧
      value.notices = [.relationship .created rel] ∧
      draft.tx.Wrote later.tx [.insertRelationship rel] := by
  obtain ⟨apart, relates⟩ := perform_unless_eq_ok_iff.mp success
  obtain ⟨rel, rfl, -, -, announced, wrote⟩ := Drafting.wrote_of_relate_read relates
  exact ⟨rel, rfl, apart, announced, wrote⟩

theorem link_does (view : Relations) (name : String) (path : Path) (properties : Properties) :
    (view.link name path properties).Does (.link view name path properties) := by
  intro draft value later wellFormed success
  obtain ⟨entity, -, aims⟩ := perform_look_bind_eq_ok_iff.mp success
  obtain ⟨other, -, orients⟩ := perform_look_bind_eq_ok_iff.mp aims
  have linked : ∃ rel : Relationship, rel.name = name ∧ rel.name ≠ Reserved.contains.name ∧
      value.notices = [.relationship .created rel] ∧
      draft.tx.Wrote later.tx [.insertRelationship rel] := by
    rcases (if view.direction = .incoming then (other, entity) else (entity, other))
      with ⟨source, target⟩
    rcases Drafting.perform_ite_eq_ok_iff.mp orients with ⟨-, checks⟩ | ⟨-, links⟩
    · obtain ⟨held, -, checked⟩ := perform_look_bind_eq_ok_iff.mp checks
      obtain ⟨-, links⟩ := perform_unless_eq_ok_iff.mp checked
      exact wrote_of_link links
    · exact wrote_of_link links
  obtain ⟨rel, rfl, apart, announced, wrote⟩ := linked
  refine ⟨_, wrote, ?_⟩
  rw [announced]
  exact .link apart

theorem update_does (view : Relations) (id : String) (revision : Update) :
    (view.update id revision).Does (.updateRelationship view id revision) := by
  intro draft value later wellFormed success
  obtain ⟨⟨handle, _⟩, owned, updates⟩ := perform_look_bind_eq_ok_iff.mp success
  obtain ⟨_, _, updated, converts⟩ := perform_bind_eq_ok_iff.mp updates
  obtain ⟨read, converted, last⟩ := perform_look_bind_eq_ok_iff.mp converts
  cases last
  obtain ⟨rfl, -⟩ := own_eq_ok owned
  obtain ⟨element, revised, held, became, wrote⟩ := Drafting.wrote_of_update updated
  obtain ⟨rel, stored, rfl⟩ := Option.map_eq_some_iff.mp held
  obtain ⟨next, revises, rfl⟩ := Element.revise_relationship_eq_ok_iff.mp became
  have keyed : next.id = id :=
    (Relationship.id_revise revises).trans (wellFormed.relationship stored)
  have written := wrote.find?_replaceRelationship
  rw [keyed] at written
  rw [Transaction.convertRelationship_eq_ok_iff] at converted
  obtain rfl := Option.some.inj (written.symm.trans converted)
  exact ⟨_, wrote, .updateRelationship stored revises⟩

theorem delete_does (view : Relations) (id : String) :
    (view.delete id).Does (.deleteRelationship view id) := by
  intro draft value later wellFormed success
  obtain ⟨⟨handle, rel⟩, owned, checks⟩ := perform_look_bind_eq_ok_iff.mp success
  obtain ⟨apart, deletes⟩ := perform_unless_eq_ok_iff.mp checks
  obtain ⟨_, _, deleted, last⟩ := perform_bind_eq_ok_iff.mp deletes
  cases last
  obtain ⟨rfl, stored⟩ := own_eq_ok owned
  obtain rfl := wellFormed.relationship stored
  exact ⟨_, Drafting.wrote_of_deleteRelationship deleted, .deleteRelationship stored apart⟩

end Relations

/-- What a mutation does when it succeeds. -/
theorem Mutation.does (settings : Settings) (mutation : Mutation) :
    (mutation.body settings).Does mutation := by
  cases mutation with
  | create listing blueprint => exact .forget (listing.create_does settings blueprint)
  | update listing id revision => exact .forget (listing.update_does id revision)
  | delete listing id => exact .forget (listing.delete_does id)
  | associate view path => exact .forget (view.associate_does path)
  | disassociate view path => exact .forget (view.disassociate_does path)
  | link view name path properties => exact .forget (view.link_does name path properties)
  | updateRelationship view id revision => exact .forget (view.update_does id revision)
  | deleteRelationship view id => exact .forget (view.delete_does id)

end Estate
