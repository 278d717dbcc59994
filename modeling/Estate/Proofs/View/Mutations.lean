import Estate.Inventory
import Estate.Proofs.Path
import Estate.Proofs.Store.Acts
import Estate.Proofs.Store.Tidy
import Estate.Script

namespace Estate

/-- What a move comes to, by what it moves on from. -/
inductive Script.AnyView.Moves : Script.AnyView → Script.AnyView → Prop where
  | get (view : Listing) (id : String) : Moves (.listing view) (.single (view.get id))
  | getAll (view : Listing) (groups : List (List Filter)) :
      Moves (.listing view) (.multiple (view.getAll groups))
  | all (view : Listing) : Moves (.listing view) (.multiple view.all)
  | along {view : Single} {facet : Facet} {name : Reserved} {kind : Kind}
      (way : facet.from? view.kind = some (name, kind)) :
      Moves (.single view)
        (.listing { kind, position := view.position.proceedTo name kind
                    scope := .along view.kind name })
  | across {view : Multiple} {facet : Facet} {name : Reserved} {kind : Kind}
      (way : facet.from? view.kind = some (name, kind)) :
      Moves (.multiple view)
        (.listing { kind, position := view.position.proceedTo name kind, scope := .browse })

theorem Script.AnyView.moves_of_move? {view next : Script.AnyView} {move : Script.Move}
    (moved : view.move? move = some next) : view.Moves next := by
  cases view with
  | listing view =>
    cases move with
    | get id =>
      obtain rfl := Option.some.inj moved
      exact .get view id
    | getAll groups =>
      obtain rfl := Option.some.inj moved
      exact .getAll view groups
    | all =>
      obtain rfl := Option.some.inj moved
      exact .all view
    | follow facet => cases moved
  | single view =>
    cases move with
    | follow facet =>
      obtain ⟨listing, followed, rfl⟩ := Option.map_eq_some_iff.mp moved
      obtain ⟨⟨name, kind⟩, way, rfl⟩ := Option.map_eq_some_iff.mp followed
      exact .along way
    | get id | getAll groups | all => cases moved
  | multiple view =>
    cases move with
    | follow facet =>
      obtain ⟨listing, followed, rfl⟩ := Option.map_eq_some_iff.mp moved
      obtain ⟨⟨name, kind⟩, way, rfl⟩ := Option.map_eq_some_iff.mp followed
      exact .across way
    | get id | getAll groups | all => cases moved

/-- The views that moves lead to, from the tenants or from an entity just created. -/
inductive Script.AnyView.Reached : Script.AnyView → Prop where
  | tenants : Reached (.listing Estate.tenants)
  | created {listing : Listing} (path : Path) (reached : Reached (.listing listing)) :
      Reached (.single (listing.created path))
  | move {view next : Script.AnyView} {move : Script.Move} (reached : Reached view)
      (moved : view.move? move = some next) : Reached next

open Script (AnyView)

theorem Script.AnyView.Reached.along {view next : AnyView} {moves : List Script.Move}
    (reached : Reached view) (moved : moves.foldlM AnyView.move? view = some next) :
    Reached next := by
  induction moves generalizing view with
  | nil =>
    obtain rfl := Option.some.inj moved
    exact reached
  | cons move rest ih =>
    obtain ⟨middle, first, later⟩ := Option.bind_eq_some_iff.mp moved
    exact ih (.move reached first) later

/-- Only ownership is associated. -/
theorem Script.AnyView.Reached.name_eq_owns {listing : Listing}
    (reached : Reached (.listing listing)) {source : Kind} {name : Reserved}
    (scope : listing.scope = .associate source name) : name = .owns := by
  cases reached with
  | tenants => cases scope
  | move reached moved =>
    cases AnyView.moves_of_move? moved with
    | @along view facet name kind way =>
      cases name <;> cases scope
      rfl
    | across way => cases scope

inductive Mutation where
  | create (listing : Listing) (blueprint : Blueprint)
  | update (listing : Listing) (id : String) (update : Update)
  | delete (listing : Listing) (id : String)
  | associate (view : Associations) (path : Path)
  | disassociate (view : Associations) (path : Path)
  | link (view : Relations) (name : String) (path : Path) (properties : Properties)
  | updateRelationship (view : Relations) (id : String) (update : Update)
  | deleteRelationship (view : Relations) (id : String)

namespace Mutation

/-- Whether some view offers the mutation. -/
def Offered : Mutation → Prop
  | .create listing blueprint =>
    AnyView.Reached (.listing listing) ∧ listing.scope = .manage ∧ blueprint.kind = listing.kind
  | .update listing _ _ | .delete listing _ =>
    AnyView.Reached (.listing listing) ∧ listing.scope = .manage
  | .associate view _ | .disassociate view _ =>
    ∃ listing, AnyView.Reached (.listing listing) ∧ listing.associations? = some view
  | .link view _ _ _ =>
    view.linkable = .ok () ∧ ∃ single, AnyView.Reached (.single single) ∧
      view = single.relations view.direction
  | .updateRelationship view _ _ | .deleteRelationship view _ =>
    ∃ single, AnyView.Reached (.single single) ∧ view = single.relations view.direction

def forget {α : Type} (body : Drafting (Announced α)) : Drafting (Announced Unit) := do
  return (← body).map fun _ => ()

def body (settings : Settings) : Mutation → Drafting (Announced Unit)
  | .create listing blueprint => forget (listing.create settings blueprint)
  | .update listing id revision => forget (listing.update id revision)
  | .delete listing id => forget (listing.delete id)
  | .associate view path => forget (view.associate path)
  | .disassociate view path => forget (view.disassociate path)
  | .link view name path properties => forget (view.link name path properties)
  | .updateRelationship view id revision => forget (view.update id revision)
  | .deleteRelationship view id => forget (view.delete id)

end Mutation

abbrev Offer := { mutation : Mutation // mutation.Offered }

namespace Drafting.Composed

variable {α : Type}

theorem guarded {condition : Prop} [Decidable condition] {error : Error} {next : Unit → Drafting α}
    (rest : (next ()).Composed) :
    (if condition then MonadExcept.throw error >>= next else next ()).Composed :=
  .ite (.bind (.throw error) fun _ => rest) rest

theorem forget {body : Drafting (Announced α)} (composed : body.Composed) :
    (Mutation.forget body).Composed :=
  .bind composed fun _ => .pure _

theorem relateAnnounced (result : Announced Path) (source target : Handle) (name : Reserved) :
    (Listing.relateAnnounced result source target name).Composed :=
  .bind (.relate source target name.name ∅) fun _ => .bind (.look _) fun _ => .pure _

theorem relateType (result : Announced Path) (entity : Entity) (handle : Handle) :
    (Listing.relateType result entity handle).Composed := by
  unfold Listing.relateType
  split
  · exact .pure result
  · refine .bind (.look? _) fun found => ?_
    split
    · exact .throw _
    · exact .relateAnnounced result _ handle .defines

theorem parent (listing : Listing) : listing.parent.Composed := by
  unfold Listing.parent
  exact .ite (.pure none) (.bind (.look _) fun _ => .bind (.look _) fun _ => .pure _)

theorem chooseId (settings : Settings) (listing : Listing) (parent : Option (Handle × Path))
    (blueprint : Blueprint) :
    (listing.chooseId settings parent blueprint).Composed := by
  simp only [Listing.chooseId]
  split
  · exact .pure _
  · exact .draw

theorem create (settings : Settings) (listing : Listing) (blueprint : Blueprint) :
    (listing.create settings blueprint).Composed := by
  refine .bind (.parent listing) fun parent =>
    .bind (.chooseId settings listing parent blueprint) fun id =>
    .bind (.look _) fun path => .bind (.look? _) fun found => .guarded <|
    .bind (.persist path blueprint) fun handle => .bind (.look _) fun entity => ?_
  cases parent with
  | none => exact .bind (.pure _) fun result => .relateType result entity handle
  | some parent =>
    exact .bind (.relateAnnounced _ parent.1 handle .contains) fun result =>
      .relateType result entity handle

theorem locate (listing : Listing) (id : String) : (listing.locate id).Composed := .look _

theorem updateEntity (listing : Listing) (id : String) (revision : Update) :
    (listing.update id revision).Composed :=
  .bind (.locate listing id) fun handle => .bind (.update handle revision) fun _ =>
    .bind (.look _) fun _ => .pure _

theorem deleteEntity (listing : Listing) (id : String) : (listing.delete id).Composed :=
  .bind (.locate listing id) fun handle => .bind (.look _) fun _ => .bind (.look _) fun _ =>
    .bind (.look _) fun _ => .bind (.delete handle) fun _ => .pure _

theorem associate (view : Associations) (path : Path) : (view.associate path).Composed :=
  .bind (.look _) fun source => .bind (.look _) fun target => .bind (.look _) fun _ => .guarded
    (.bind (.look _) fun _ => .guarded (.bind (.relate source target view.name.name ∅) fun _ =>
      .bind (.look _) fun _ => .pure _))

theorem disassociate (view : Associations) (path : Path) : (view.disassociate path).Composed := by
  refine .bind (.look _) fun source => .bind (.look _) fun target => .bind (.look? _)
    fun found => ?_
  cases found with
  | none => exact .throw _
  | some handle => exact .bind (.look _) fun _ => .bind (.delete handle) fun _ => .pure _

theorem link (view : Relations) (name : String) (path : Path) (properties : Properties) :
    (view.link name path properties).Composed := by
  refine .bind (.look _) fun entity => .bind (.look _) fun other => ?_
  rcases (if view.direction = .incoming then (other, entity) else (entity, other))
    with ⟨source, target⟩
  refine .ite (.bind (.look _) fun _ => .guarded ?_) ?_
  all_goals exact .guarded (.bind (.relate source target name properties) fun _ => .bind (.look _)
    fun _ => .pure _)

theorem updateRelationship (view : Relations) (id : String) (revision : Update) :
    (view.update id revision).Composed :=
  .bind (.look _) fun found => .bind (.update found.1 revision) fun _ => .bind (.look _)
    fun _ => .pure _

theorem deleteRelationship (view : Relations) (id : String) : (view.delete id).Composed :=
  .bind (.look _) fun found => .guarded (.bind (.delete found.1) fun _ => .pure _)

end Drafting.Composed

namespace Mutation

theorem composed (settings : Settings) (mutation : Mutation) :
    (mutation.body settings).Composed := by
  cases mutation with
  | create listing blueprint => exact .forget (.create settings listing blueprint)
  | update listing id revision => exact .forget (.updateEntity listing id revision)
  | delete listing id => exact .forget (.deleteEntity listing id)
  | associate view path => exact .forget (.associate view path)
  | disassociate view path => exact .forget (.disassociate view path)
  | link view name path properties => exact .forget (.link view name path properties)
  | updateRelationship view id revision => exact .forget (.updateRelationship view id revision)
  | deleteRelationship view id => exact .forget (.deleteRelationship view id)

end Mutation

end Estate
