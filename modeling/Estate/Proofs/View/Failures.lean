import Estate.Proofs.Store.InPlace
import Estate.Proofs.View.Hindrances
import Estate.Proofs.View.Operations

/-!
Why operations fail. Mutations only fail for what was asked of them, never for want of an element
and never in conflict with their own snapshot; and inquiries hardly fail at all.
-/
namespace Estate

/-- Families of errors that tell of the store rather than of what it was asked for. -/
def Error.Family.isInternal : Error.Family → Bool
  | .elementNotFound | .transaction | .storage => true
  | _ => false

/-- An error that answers a request by itself, whatever else is committed. -/
def Error.Regular (error : Error) : Prop :=
  error.family.isInternal = false ∧ error.family ≠ .conflict

theorem Error.Regular.of_family {error : Error}
    (regular : (error.family.isInternal || error.family == .conflict) = false) : error.Regular := by
  rw [Bool.or_eq_false_iff, beq_eq_false_iff_ne] at regular
  exact regular

variable {draft : Draft}

theorem bind_eq_error_iff {α β ε : Type} {first : Except ε α} {next : α → Except ε β} {error : ε} :
    first >>= next = .error error ↔
      first = .error error ∨ ∃ middle, first = .ok middle ∧ next middle = .error error := by
  cases first <;> simp [bind, Except.bind]

theorem Entity.regular_of_ofBlueprint {path : Path} {blueprint : Blueprint} {error : Error}
    (failed : ofBlueprint path blueprint = .error error) : error.Regular := by
  unfold ofBlueprint at failed
  split at failed
  · cases described : blueprint.details with
    | tenant | environment | feed | resourceType version | metricType unit =>
      rw [described] at failed
      cases failed
    | resource typeId | metric typeId =>
      rw [described] at failed
      simp only [Details.ofBlueprint] at failed
      rcases extended : path.root.extend _ typeId with fault | type
      · rw [extended] at failed
        cases failed
        exact .of_family rfl
      · rw [extended] at failed
        cases failed
  · cases failed
    exact .of_family rfl

theorem map_eq_error_iff {α β ε : Type} {outcome : Except ε α} {f : α → β} {error : ε} :
    outcome.map f = .error error ↔ outcome = .error error := by
  cases outcome <;> simp [Except.map]

theorem Entity.revise_eq (entity : Entity) (update : Update) :
    entity.revise update = (do
      let entity ← update.version.elim (.ok entity) entity.withVersion
      let entity ← update.unit.elim (.ok entity) entity.withUnit
      return update.properties.elim entity entity.withProperties) := by
  rcases update with ⟨_ | properties, _ | version, _ | unit⟩ <;> rfl

/-- What an entity refuses to be revised for was wrong to ask of it. -/
theorem Entity.family_of_revise {entity : Entity} {update : Update} {error : Error}
    (failed : entity.revise update = .error error) : error.family = .invalidArgument := by
  rw [revise_eq] at failed
  rcases bind_eq_error_iff.mp failed with refused | ⟨entity, -, failed⟩
  · cases wanted : update.version with
    | none =>
      rw [wanted] at refused
      cases refused
    | some version =>
      rw [wanted, Option.elim_some, withVersion] at refused
      split at refused
      · cases refused
      · cases refused
        rfl
  rcases bind_eq_error_iff.mp failed with refused | ⟨entity, -, failed⟩
  · cases wanted : update.unit with
    | none =>
      rw [wanted] at refused
      cases refused
    | some unit =>
      rw [wanted, Option.elim_some, withUnit] at refused
      split at refused
      · cases refused
      · cases refused
        rfl
  · cases failed

theorem Entity.regular_of_revise {entity : Entity} {update : Update} {error : Error}
    (failed : entity.revise update = .error error) : error.Regular := by
  have family := family_of_revise failed
  exact .of_family (by rw [family]; rfl)

theorem Element.regular_of_revise {element : Element} {update : Update} {error : Error}
    (failed : element.revise update = .error error) : error.Regular := by
  cases element with
  | entity entity => exact Entity.regular_of_revise (map_eq_error_iff.mp failed)
  | relationship rel =>
    have failed := map_eq_error_iff.mp failed
    unfold Relationship.revise at failed
    split at failed
    · cases failed
    · cases failed
      exact .of_family rfl

theorem Listing.Hinders.regular {settings : Settings} {listing : Listing} {blueprint : Blueprint}
    {graph : Graph} {error : Error} (hinders : listing.Hinders settings blueprint graph error) :
    error.Regular := by
  cases hinders with
  | unmade sited unmade => exact Entity.regular_of_ofBlueprint unmade
  | unreached | misplaced | present | untyped => exact .of_family rfl

theorem Associations.Strays.regular {view : Associations} {path : Path} {graph : Graph}
    {error : Error} (strays : view.Strays path graph error) : error.Regular := by
  cases strays <;> exact .of_family rfl

theorem Associations.Hinders.regular {view : Associations} {path : Path} {graph : Graph}
    {error : Error} (hinders : view.Hinders path graph error) : error.Regular := by
  cases hinders with
  | strays strays => exact strays.regular
  | across | held => exact .of_family rfl

theorem Associations.Keeps.regular {view : Associations} {path : Path} {graph : Graph}
    {error : Error} (keeps : view.Keeps path graph error) : error.Regular := by
  cases keeps with
  | strays strays => exact strays.regular
  | apart => exact .of_family rfl

theorem Relations.Hinders.regular {view : Relations} {name : String} {path : Path} {graph : Graph}
    {error : Error} (hinders : view.Hinders name path graph error) : error.Regular := by
  cases hinders <;> exact .of_family rfl

/-- What begins with a look for the first that a query reaches fails for want of it, or later. -/
theorem Reading.first_bind_eq_error_iff {α : Type} {query : Query} {kind : Option Kind}
    {tx : Transaction} {next : Handle → Except Error α} {error : Error} :
    Reading.first query kind tx >>= next = .error error ↔
      tx.working.evaluate query = [] ∧ error = .nothingReached kind query ∨
        ∃ path, (tx.working.evaluate query).head? = some path ∧
          next (.entity path) = .error error := by
  rw [bind_eq_error_iff, first_eq_error_iff]
  refine or_congr_right ⟨?_, ?_⟩
  · rintro ⟨handle, reached, failed⟩
    obtain ⟨path, first, rfl⟩ := first_eq_ok_iff.mp reached
    exact ⟨path, first, failed⟩
  · rintro ⟨path, first, failed⟩
    exact ⟨.entity path, first_eq_ok_iff.mpr ⟨path, first, rfl⟩, failed⟩

namespace Drafting

theorem meets_update {fails : Error → Prop} {handle : Handle} {element : Element}
    {revision : Update} (access : draft.tx.access = .readWrite) (keyed : draft.tx.working.Keyed)
    (found : draft.tx.working.element? handle = some element)
    (refused : ∀ error, element.revise revision = .error error → fails error) :
    (update handle revision).Meets draft fails fun _ later => ∃ revised : Element,
      element.revise revision = .ok revised ∧ revised.handle = handle ∧
        draft.tx.Wrote later.tx [revised.replacement] := by
  refine meets_look_ok (Transaction.findElement_eq_ok_iff.mpr found) ?_
  cases handle with
  | entity path =>
    obtain ⟨entity, stored, rfl⟩ := Option.map_eq_some_iff.mp found
    refine meets_look (fun error failed => refused error (map_eq_error_iff.mpr failed))
      fun revised revises => ?_
    have same : revised.path = path := (Entity.path_revise revises).trans (keyed.entity stored)
    have admitted : draft.tx.working.Admits (.replaceEntity revised) := by
      rw [← same] at stored
      exact (Table.contains_iff _ _).mpr ⟨entity, stored⟩
    exact (meets_write access admitted).mono fun _ later wrote =>
      ⟨.entity revised, Element.revise_entity_eq_ok_iff.mpr ⟨revised, revises, rfl⟩,
        congrArg Handle.entity same, wrote⟩
  | relationship id =>
    obtain ⟨rel, stored, rfl⟩ := Option.map_eq_some_iff.mp found
    refine meets_look (fun error failed => refused error (map_eq_error_iff.mpr failed))
      fun revised revises => ?_
    have same : revised.id = id :=
      (Relationship.id_revise revises).trans (keyed.relationship stored)
    have admitted : draft.tx.working.Admits (.replaceRelationship revised) := by
      rw [← same] at stored
      exact (Table.contains_iff _ _).mpr ⟨rel, stored⟩
    exact (meets_write access admitted).mono fun _ later wrote =>
      ⟨.relationship revised, Element.revise_relationship_eq_ok_iff.mpr ⟨revised, revises, rfl⟩,
        congrArg Handle.relationship same, wrote⟩

theorem meets_delete {handle : Handle} {element : Element} (access : draft.tx.access = .readWrite)
    (wellFormed : draft.tx.working.WellFormed)
    (found : draft.tx.working.element? handle = some element) :
    (delete handle).Meets draft Error.Regular fun _ _ => True := by
  by_cases allowed : (Act.delete handle).changes draft = []
  · cases handle with
    | entity path =>
      obtain ⟨entity, stored, -⟩ := Option.map_eq_some_iff.mp found
      have present : draft.tx.working.entities.contains path :=
        (Table.contains_iff _ _).mpr ⟨entity, stored⟩
      have full : draft.tx.working.hasContents path := by
        simpa [Act.changes, present, Act.removals] using allowed
      have failed : (delete (.entity path)).perform draft =
          (.error (.stillContains path), draft) := by
        simp [delete, deleteBy, deleteEntityBy, perform_bind, present, full]
      exact meets_of_error failed (.of_family rfl)
    | relationship id =>
      obtain ⟨rel, stored, -⟩ := Option.map_eq_some_iff.mp found
      have present : draft.tx.working.relationships.contains id :=
        (Table.contains_iff _ _).mpr ⟨rel, stored⟩
      simp [Act.changes, present] at allowed
  · obtain ⟨later, deleted, -⟩ := Act.perform_delete wellFormed access allowed
    have deleted : (delete handle).perform draft = (.ok (), later) := deleted
    exact meets_of_ok deleted trivial

end Drafting

namespace Listing

variable {listing : Listing}

/-- What an update comes to: the first entity that the id reaches, revised, or what is in the way.
-/
def updated (listing : Listing) (id : String) (revision : Update) (graph : Graph) :
    Except Error Entity :=
  match (graph.evaluate (listing.get id).position.query).head?.bind graph.entities.find? with
  | some entity => entity.revise revision
  | none => .error (.nothingReached (some listing.kind) (listing.get id).position.query)

theorem updated_of_first {graph : Graph} {id : String} {revision : Update} {path : Path}
    {entity : Entity} (first : (graph.evaluate (listing.get id).position.query).head? = some path)
    (stored : graph.entities.find? path = some entity) :
    listing.updated id revision graph = entity.revise revision := by
  simp [updated, first, stored]

theorem regular_of_updated {graph : Graph} {id : String} {revision : Update} {error : Error}
    (failed : listing.updated id revision graph = .error error) : error.Regular := by
  unfold updated at failed
  split at failed
  · exact Entity.regular_of_revise failed
  · cases failed
    exact .of_family rfl

/-- An update writes what it comes to, and tells of that. -/
theorem update_meets (access : draft.tx.access = .readWrite)
    (wellFormed : draft.tx.working.WellFormed) (id : String) (revision : Update) :
    (listing.update id revision).Meets draft
      (fun error => listing.updated id revision draft.tx.working = .error error)
      fun result later => ∃ revised, listing.updated id revision draft.tx.working = .ok revised ∧
        draft.tx.Wrote later.tx [.replaceEntity revised] ∧
        result.notices = [.entity .updated revised] := by
  refine Drafting.meets_first (fun nowhere => by simp [updated, nowhere]) fun path first => ?_
  obtain ⟨entity, stored, -, -⟩ := wellFormed.load_first first
  have comes : listing.updated id revision draft.tx.working = entity.revise revision :=
    updated_of_first first stored
  have found := Graph.element?_entity_iff.mpr stored
  refine Drafting.meets_bind
    ((Drafting.meets_update access wellFormed.toKeyed found fun error refused => ?_).mono
    fun _ later updated => ?_)
  · exact comes.trans (map_eq_error_iff.mp refused)
  · obtain ⟨element, made, same, wrote⟩ := updated
    obtain ⟨revised, revises, rfl⟩ := Element.revise_entity_eq_ok_iff.mp made
    cases same
    exact Drafting.meets_look_ok (Transaction.convertEntity_eq_ok_iff.mpr wrote.find?_replaceEntity)
      (Drafting.meets_pure ⟨revised, comes.trans revises, wrote, rfl⟩)

theorem delete_meets (access : draft.tx.access = .readWrite)
    (wellFormed : draft.tx.working.WellFormed) (id : String) :
    (listing.delete id).Meets draft Error.Regular fun _ _ => True := by
  refine Drafting.meets_first (fun _ => .of_family rfl) fun path first => ?_
  obtain ⟨entity, stored, -, loaded⟩ := wellFormed.load_first first
  have found := Graph.element?_entity_iff.mpr stored
  obtain ⟨rels, listed, read⟩ := wellFormed.load_related (Graph.contains_of_head? first) .both none
  refine Drafting.meets_look_ok loaded
    (Drafting.meets_look_ok listed (Drafting.meets_look_ok read ?_))
  refine Drafting.meets_bind ?_
  exact (Drafting.meets_delete access wellFormed found).mono fun _ _ _ =>
    Drafting.meets_pure trivial

end Listing

namespace Relations

variable {view : Relations}

theorem regular_of_own {tx : Transaction} {id : String} {error : Error}
    (wellFormed : tx.working.WellFormed) (failed : view.own id tx = .error error) :
    error.Regular := by
  obtain ⟨-, rfl⟩ | ⟨path, first, failed⟩ := Reading.first_bind_eq_error_iff.mp failed
  · exact .of_family rfl
  obtain ⟨entity, -, rfl, loaded⟩ := wellFormed.load_first first
  cases found : tx.working.relationships.find? id with
  | none =>
    have absent := (Table.contains_eq_false_iff _ _).mpr found
    simp [loaded, Transaction.findRelationship, absent, bind, Except.bind] at failed
    subst failed
    exact .of_family rfl
  | some rel =>
    have present : tx.working.relationships.contains id := (Table.contains_iff _ _).mpr ⟨rel, found⟩
    have read := Transaction.convertRelationship_eq_ok_iff.mpr found
    simp only [loaded, Transaction.findRelationship, present, if_true, read, bind, Except.bind]
      at failed
    split at failed
    · cases failed
    · cases failed
      exact .of_family rfl

theorem meets_own {α : Type} {wanted : α → Draft → Prop} {id : String}
    {next : Handle × Relationship → Drafting α} (wellFormed : draft.tx.working.WellFormed)
    (rest : ∀ rel, draft.tx.working.relationships.find? id = some rel →
      (next (.relationship id, rel)).Meets draft Error.Regular wanted) :
    (Drafting.look (view.own id) >>= next).Meets draft Error.Regular wanted := by
  refine Drafting.meets_look (fun error => regular_of_own wellFormed) fun found own => ?_
  obtain ⟨same, stored⟩ := @own_eq_ok view id draft.tx found.1 found.2 own
  rw [show found = (.relationship id, found.2) from Prod.ext same rfl]
  exact rest found.2 stored

theorem update_meets (access : draft.tx.access = .readWrite)
    (wellFormed : draft.tx.working.WellFormed) (id : String) (revision : Update) :
    (view.update id revision).Meets draft Error.Regular fun _ _ => True := by
  refine meets_own wellFormed fun rel stored => ?_
  have found := Graph.element?_relationship_iff.mpr stored
  refine Drafting.meets_bind ((Drafting.meets_update access wellFormed.toKeyed found
    fun error => Element.regular_of_revise).mono fun _ later updated => ?_)
  obtain ⟨revised, -, same, wrote⟩ := updated
  cases revised with
  | entity entity => cases same
  | relationship rel =>
    cases same
    exact Drafting.meets_look_ok
      (Transaction.convertRelationship_eq_ok_iff.mpr wrote.find?_replaceRelationship)
      (Drafting.meets_pure trivial)

theorem delete_meets (access : draft.tx.access = .readWrite)
    (wellFormed : draft.tx.working.WellFormed) (id : String) :
    (view.delete id).Meets draft Error.Regular fun _ _ => True := by
  refine meets_own wellFormed fun rel stored => ?_
  have found := Graph.element?_relationship_iff.mpr stored
  refine Drafting.meets_unless (fun _ => .of_family rfl) fun _ => Drafting.meets_bind ?_
  exact (Drafting.meets_delete access wellFormed found).mono fun _ _ _ =>
    Drafting.meets_pure trivial

end Relations

/-- A mutation only fails for what was asked of it. -/
theorem Mutation.body_meets (settings : Settings) (mutation : Mutation)
    (access : draft.tx.access = .readWrite) (wellFormed : draft.tx.working.WellFormed) :
    (mutation.body settings).Meets draft Error.Regular fun _ _ => True := by
  have forgotten {α : Type} {body : Drafting (Announced α)} (meets : body.Meets draft Error.Regular
      fun _ _ => True) :
      (forget body).Meets draft Error.Regular fun _ _ => True :=
    Drafting.meets_bind (meets.mono fun _ _ _ => Drafting.meets_pure trivial)
  cases mutation with
  | create listing blueprint =>
    exact forgotten ((Listing.create_meets access wellFormed).imp fun _ hinders => hinders.regular)
  | update listing id revision =>
    exact forgotten ((Listing.update_meets access wellFormed id revision).imp
      fun _ => Listing.regular_of_updated)
  | delete listing id => exact forgotten (Listing.delete_meets access wellFormed id)
  | associate view path =>
    exact forgotten ((Associations.associate_meets access wellFormed).imp
      fun _ hinders => hinders.regular)
  | disassociate view path =>
    exact forgotten ((Associations.disassociate_meets access wellFormed).imp
      fun _ keeps => keeps.regular)
  | link view name path properties =>
    exact forgotten ((Relations.link_meets access).imp fun _ hinders => hinders.regular)
  | updateRelationship view id revision =>
    exact forgotten (Relations.update_meets access wellFormed id revision)
  | deleteRelationship view id => exact forgotten (Relations.delete_meets access wellFormed id)

open Script (AnyView)

variable {settings : Settings} {tx : Transaction} {error : Error}

/-- Whether some view offers the inquiry. -/
def Inquiry.Offered : Inquiry → Prop
  | .entity single | .isThere single => AnyView.Obtained (.single single)
  | .entities multiple _ => AnyView.Obtained (.multiple multiple)
  | .relationships view _ | .relationship view _ =>
    ∃ single, AnyView.Obtained (.single single) ∧ view = single.relations view.direction
  | .association view _ =>
    ∃ listing, AnyView.Obtained (.listing listing) ∧ listing.associations? = some view

theorem Script.AnyView.Obtained.load {view : AnyView} (obtained : view.Obtained)
    (wellFormed : tx.working.WellFormed) {path : Path}
    (reached : path ∈ tx.working.evaluate view.position.query) :
    ∃ entity, tx.convertEntity (.entity path) = .ok entity ∧
      Reading.narrow view.kind entity = .ok entity := by
  obtain ⟨entity, found⟩ := (Table.contains_iff _ _).mp (Graph.contains_of_mem_evaluate reached)
  obtain ⟨start, -, leads⟩ := Graph.mem_evaluate_iff.mp reached
  have kind : entity.details.kind = view.kind :=
    (wellFormed.kinds found).trans (obtained.kind_of_leads leads)
  exact ⟨entity, Transaction.convertEntity_eq_ok_iff.mpr found, if_pos kind⟩

/-- A view of one entity fails only where that is absent or hidden. -/
theorem Single.error_of_entity {single : Single} (obtained : AnyView.Obtained (.single single))
    (wellFormed : tx.working.WellFormed) (failed : single.entity settings tx = .error error) :
    error = .nothingReached (some single.kind) single.position.query := by
  obtain ⟨-, rfl⟩ | ⟨path, first, failed⟩ := Reading.first_bind_eq_error_iff.mp failed
  · rfl
  obtain ⟨entity, loaded, narrowed⟩ := obtained.load wellFormed (List.mem_of_head? first)
  rcases bind_eq_error_iff.mp failed with unloaded | ⟨other, same, failed⟩
  · simp [loaded] at unloaded
  obtain rfl := Except.ok.inj (loaded.symm.trans same)
  split at failed
  · cases narrowed.symm.trans failed
  · exact (Except.error.inj failed).symm

theorem Multiple.load_isOk {multiple : Multiple} (obtained : AnyView.Obtained (.multiple multiple))
    (wellFormed : tx.working.WellFormed) {paths : List Path}
    (reached : ∀ path ∈ paths, path ∈ tx.working.evaluate multiple.position.query) :
    ∃ entities, Multiple.load settings multiple.kind tx (paths.map .entity) = .ok entities := by
  induction paths with
  | nil => exact ⟨[], rfl⟩
  | cons path rest ih =>
    obtain ⟨others, loads⟩ := ih fun other member => reached other (List.mem_cons_of_mem _ member)
    obtain ⟨entity, loaded, narrowed⟩ := obtained.load wellFormed (reached path List.mem_cons_self)
    change Reading.narrow multiple.kind entity = .ok entity at narrowed
    by_cases visible : settings.isVisible (.entity entity)
    · exact ⟨entity :: others, by simp [load, loaded, visible, narrowed, loads, bind, Except.bind,
        pure, Except.pure]⟩
    · exact ⟨others, by simp [load, loaded, visible, loads, bind, Except.bind]⟩

/-- A view of several entities never fails. -/
theorem Multiple.entities_isOk {multiple : Multiple}
    (obtained : AnyView.Obtained (.multiple multiple)) (wellFormed : tx.working.WellFormed)
    (pager : Pager) :
    ∃ page, multiple.entities settings pager tx = .ok page := by
  have page : ∃ paths : List Path, (tx.query multiple.position.query pager).items =
      paths.map .entity ∧
      ∀ path ∈ paths, path ∈ tx.working.evaluate multiple.position.query := by
    refine ⟨(pager.apply (tx.working.evaluate multiple.position.query)).items, rfl,
      fun path member => ?_⟩
    unfold Pager.apply at member
    split at member
    · exact List.mem_of_mem_drop (List.mem_of_mem_take member)
    · exact member
  obtain ⟨paths, same, reached⟩ := page
  obtain ⟨entities, loaded⟩ := load_isOk obtained wellFormed reached
  rw [← same] at loaded
  exact ⟨_, bind_eq_ok_iff.mpr ⟨entities, loaded, rfl⟩⟩

theorem Relations.regular_of_list {view : Relations} {name : Option String}
    (wellFormed : tx.working.WellFormed) (failed : view.list settings name tx = .error error) :
    error.Regular := by
  obtain ⟨-, rfl⟩ | ⟨path, first, failed⟩ := Reading.first_bind_eq_error_iff.mp failed
  · exact .of_family rfl
  obtain ⟨rels, listed, read⟩ :=
    wellFormed.load_related (Graph.contains_of_head? first) view.direction name
  simp [listed, read, bind, Except.bind, pure, Except.pure] at failed

theorem Relations.regular_of_get {view : Relations} {id : String}
    (wellFormed : tx.working.WellFormed) (failed : view.get settings id tx = .error error) :
    error.Regular := by
  rcases bind_eq_error_iff.mp failed with unowned | ⟨⟨handle, rel⟩, -, failed⟩
  · exact regular_of_own wellFormed unowned
  dsimp only at failed
  split at failed
  · cases failed
  · cases failed
    exact .of_family rfl

theorem Associations.regular_of_association {view : Associations} {id : String}
    (wellFormed : tx.working.WellFormed) (failed : view.association settings id tx = .error error) :
    error.Regular := by
  obtain ⟨-, rfl⟩ | ⟨source, -, failed⟩ := Reading.first_bind_eq_error_iff.mp failed
  · exact .of_family rfl
  obtain ⟨-, rfl⟩ | ⟨target, -, failed⟩ := Reading.first_bind_eq_error_iff.mp failed
  · exact .of_family rfl
  rw [Transaction.getRelationship_entities] at failed
  cases found : tx.working.between? source target view.name.name with
  | none =>
    rw [found] at failed
    cases failed
    exact .of_family rfl
  | some rel =>
    obtain ⟨stored, -⟩ := wellFormed.between?_eq_some found
    have read := Transaction.convertRelationship_eq_ok_iff.mpr stored
    simp only [found, read, bind, Except.bind] at failed
    split at failed
    · cases failed
    · cases failed
      exact .of_family rfl

/-- What an inquiry may fail with: nothing where it is about several entities or about whether there
is one, and only for want of the entity where it is about one. -/
def Inquiry.MayFail : Inquiry → Error → Prop
  | .entities .., _ | .isThere _, _ => False
  | .entity _, error => error.family = .entityNotFound
  | _, error => error.Regular

theorem Inquiry.MayFail.regular {inquiry : Inquiry} (fails : inquiry.MayFail error) :
    error.Regular := by
  cases inquiry with
  | entities multiple pager | isThere single => exact fails.elim
  | entity single =>
    have family : error.family = .entityNotFound := fails
    simp [Error.Regular, family, Error.Family.isInternal]
  | relationships view name | relationship view id | association view id => exact fails

theorem Inquiry.mayFail_of_answer {inquiry : Inquiry} (offered : inquiry.Offered)
    (wellFormed : tx.working.WellFormed) (failed : inquiry.answer settings tx = .error error) :
    inquiry.MayFail error := by
  cases inquiry with
  | entity single =>
    obtain rfl := single.error_of_entity offered wellFormed (map_eq_error_iff.mp failed)
    rfl
  | isThere single =>
    have failed := map_eq_error_iff.mp failed
    cases shown : single.entity settings tx with
    | ok entity =>
      rw [shown] at failed
      cases failed
    | error other =>
      obtain rfl := single.error_of_entity offered wellFormed shown
      rw [shown] at failed
      cases failed
  | entities multiple pager =>
    obtain ⟨page, shown⟩ := @Multiple.entities_isOk settings tx multiple offered wellFormed pager
    simp [answer, shown, Except.map] at failed
  | relationships view name => exact view.regular_of_list wellFormed (map_eq_error_iff.mp failed)
  | relationship view id => exact view.regular_of_get wellFormed (map_eq_error_iff.mp failed)
  | association view id => exact view.regular_of_association wellFormed (map_eq_error_iff.mp failed)

end Estate
