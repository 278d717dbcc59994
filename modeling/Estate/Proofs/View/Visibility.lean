import Estate.Proofs.View.Operations

/-!
The result filter. What inquiries show passes it, and nothing else looks at it: whatever filter is
in force, mutations end the same way, commit the same and publish the same.
-/
namespace Estate

variable {α : Type} {settings : Settings} {tx : Transaction}

theorem Single.visible_of_entity {single : Single} {entity : Entity}
    (shown : single.entity settings tx = .ok entity) :
    settings.isVisible (.entity entity) := by
  obtain ⟨handle, -, converts⟩ := bind_eq_ok_iff.mp shown
  obtain ⟨found, -, decides⟩ := bind_eq_ok_iff.mp converts
  split at decides
  · rename_i visible
    unfold Reading.narrow at decides
    split at decides
    · obtain rfl := Except.ok.inj decides
      exact visible
    · cases decides
  · cases decides

theorem Multiple.visible_of_load {kind : Kind} {handles : List Handle} {entities : List Entity}
    (shown : Multiple.load settings kind tx handles = .ok entities) :
    ∀ entity ∈ entities, settings.isVisible (.entity entity) := by
  induction handles generalizing entities with
  | nil =>
    obtain rfl := Except.ok.inj shown
    exact List.forall_mem_nil _
  | cons handle rest ih =>
    obtain ⟨found, -, decides⟩ := bind_eq_ok_iff.mp shown
    split at decides
    · rename_i visible
      obtain ⟨narrowed, narrows, loads⟩ := bind_eq_ok_iff.mp decides
      obtain ⟨others, loaded, last⟩ := bind_eq_ok_iff.mp loads
      obtain rfl := Except.ok.inj last
      unfold Reading.narrow at narrows
      split at narrows
      · obtain rfl := Except.ok.inj narrows
        exact List.forall_mem_cons.mpr ⟨visible, ih loaded⟩
      · cases narrows
    · exact ih decides

theorem Multiple.visible_of_entities {multiple : Multiple} {pager : Pager} {page : Page Entity}
    (shown : multiple.entities settings pager tx = .ok page) :
    ∀ entity ∈ page.items, settings.isVisible (.entity entity) := by
  obtain ⟨items, loaded, last⟩ := bind_eq_ok_iff.mp shown
  obtain rfl := Except.ok.inj last
  exact visible_of_load loaded

theorem Relations.visible_of_list {view : Relations} {name : Option String}
    {rels : List Relationship} (shown : view.list settings name tx = .ok rels) :
    ∀ rel ∈ rels, settings.isVisible (.relationship rel) := by
  obtain ⟨entity, -, lists⟩ := bind_eq_ok_iff.mp shown
  obtain ⟨handles, -, loads⟩ := bind_eq_ok_iff.mp lists
  obtain ⟨all, -, last⟩ := bind_eq_ok_iff.mp loads
  obtain rfl := Except.ok.inj last
  exact fun rel member => (List.mem_filter.mp member).2

theorem Relations.visible_of_get {view : Relations} {id : String} {rel : Relationship}
    (shown : view.get settings id tx = .ok rel) : settings.isVisible (.relationship rel) := by
  obtain ⟨⟨handle, found⟩, -, decides⟩ := bind_eq_ok_iff.mp shown
  dsimp only at decides
  split at decides
  · rename_i visible
    obtain rfl := Except.ok.inj decides
    exact visible
  · cases decides

theorem Associations.visible_of_association {view : Associations} {id : String} {rel : Relationship}
    (shown : view.association settings id tx = .ok rel) :
    settings.isVisible (.relationship rel) := by
  obtain ⟨source, -, aims⟩ := bind_eq_ok_iff.mp shown
  obtain ⟨target, -, finds⟩ := bind_eq_ok_iff.mp aims
  dsimp only at finds
  split at finds
  · cases finds
  · obtain ⟨handle, -, converts⟩ := bind_eq_ok_iff.mp finds
    obtain ⟨found, -, decides⟩ := bind_eq_ok_iff.mp converts
    split at decides
    · rename_i visible
      obtain rfl := Except.ok.inj decides
      exact visible
    · cases decides

theorem Inquiry.visible_of_answer {inquiry : Inquiry} {reply : Reply}
    (answered : inquiry.answer settings tx = .ok reply) :
    ∀ element ∈ reply.elements, settings.isVisible element := by
  cases inquiry with
  | entity single =>
    obtain ⟨entity, shown, rfl⟩ := map_eq_ok_iff.mp answered
    simpa [Reply.elements] using single.visible_of_entity shown
  | isThere single =>
    obtain ⟨found, -, rfl⟩ := map_eq_ok_iff.mp answered
    exact List.forall_mem_nil _
  | entities multiple pager =>
    obtain ⟨page, shown, rfl⟩ := map_eq_ok_iff.mp answered
    simpa [Reply.elements] using multiple.visible_of_entities shown
  | relationships view name =>
    obtain ⟨rels, shown, rfl⟩ := map_eq_ok_iff.mp answered
    simpa [Reply.elements] using view.visible_of_list shown
  | relationship view id =>
    obtain ⟨rel, shown, rfl⟩ := map_eq_ok_iff.mp answered
    simpa [Reply.elements] using view.visible_of_get shown
  | association view id =>
    obtain ⟨rel, shown, rfl⟩ := map_eq_ok_iff.mp answered
    simpa [Reply.elements] using view.visible_of_association shown

def Settings.refilter (settings : Settings) (filter : Option (Element → Bool)) : Settings :=
  { settings with resultFilter := filter }

/-- Of the settings, mutations only look at the naming of feeds. -/
theorem Mutation.yielding_refilter (settings : Settings) (filter : Option (Element → Bool))
    (mutation : Mutation) :
    mutation.yielding (settings.refilter filter) = mutation.yielding settings := by
  cases mutation <;> rfl

namespace Inventory

def refilter (inventory : Inventory Empty) (filter : Option (Element → Bool)) : Inventory Empty :=
  { inventory with settings := inventory.settings.refilter filter }

variable (filter : Option (Element → Bool)) (inventory : Inventory Empty)

/-- An operation leaves the settings alone, and under another filter it does the same; only replies
differ. -/
theorem carryOut_refilter (operation : Operation) :
    (inventory.carryOut operation).2.1.settings = inventory.settings ∧
      ((inventory.refilter filter).carryOut operation).1.mutated? =
        (inventory.carryOut operation).1.mutated? ∧
      ((inventory.refilter filter).carryOut operation).2 =
        ((inventory.carryOut operation).2.1.refilter filter,
        (inventory.carryOut operation).2.2) := by
  cases operation with
  | inquiry inquiry =>
    rw [carryOut_inquiry, carryOut_inquiry]
    exact ⟨rfl, rfl, rfl⟩
  | mutation mutation =>
    cases allowed : mutation.check with
    | error error =>
      rw [carryOut_refused allowed, carryOut_refused allowed]
      exact ⟨rfl, rfl, rfl⟩
    | ok _ =>
      have same : mutation.yielding (inventory.refilter filter).settings =
          mutation.yielding inventory.settings :=
        mutation.yielding_refilter inventory.settings filter
      rw [carryOut_mutation allowed, carryOut_mutation allowed, same]
      exact ⟨rfl, rfl, rfl⟩

theorem carryOutAll_refilter (operations : List Operation) :
    ((inventory.refilter filter).carryOutAll operations).1.map Conclusion.mutated? =
        (inventory.carryOutAll operations).1.map Conclusion.mutated? ∧
      ((inventory.refilter filter).carryOutAll operations).2 =
        ((inventory.carryOutAll operations).2.1.refilter filter,
        (inventory.carryOutAll operations).2.2) := by
  induction operations generalizing inventory with
  | nil => exact ⟨rfl, rfl⟩
  | cons operation rest ih =>
    obtain ⟨-, same, left⟩ := inventory.carryOut_refilter filter operation
    obtain ⟨later, last⟩ := ih (inventory.carryOut operation).2.1
    simp only [carryOutAll, left, List.map_cons, same, later, last, and_self]

theorem visible_of_carryOut {operation : Operation} {reply : Reply}
    (replied : (inventory.carryOut operation).1 = .replied (.ok reply)) :
    ∀ element ∈ reply.elements, inventory.settings.isVisible element := by
  cases operation with
  | inquiry inquiry =>
    rw [carryOut_inquiry] at replied
    exact Inquiry.visible_of_answer (Conclusion.replied.inj replied)
  | mutation mutation => cases replied

theorem visible_of_carryOutAll {operations : List Operation} {reply : Reply}
    (replied : .replied (.ok reply) ∈ (inventory.carryOutAll operations).1) :
    ∀ element ∈ reply.elements, inventory.settings.isVisible element := by
  induction operations generalizing inventory with
  | nil => cases replied
  | cons operation rest ih =>
    rcases List.mem_cons.mp replied with here | later
    · exact inventory.visible_of_carryOut here.symm
    · have kept := (inventory.carryOut_refilter none operation).1
      rw [← kept]
      exact ih _ later

/--
Two inventories that differ in the result filter alone: whatever operations they carry out, each
mutation ends the same way on both, with the same result or the same error, both have the same
committed, and they publish the same notices in the same order; and all that either shows passes its
own filter.
-/
theorem filter_affects_replies_only (operations : List Operation) :
    let (conclusions, later, published) := inventory.carryOutAll operations
    let (others, otherwise, otherPublished) := (inventory.refilter filter).carryOutAll operations
    others.map Conclusion.mutated? = conclusions.map Conclusion.mutated? ∧
      otherwise.store.committed = later.store.committed ∧ otherPublished = published ∧
      (∀ reply, .replied (.ok reply) ∈ conclusions →
        ∀ element ∈ reply.elements, inventory.settings.isVisible element) ∧
      ∀ reply, .replied (.ok reply) ∈ others →
        ∀ element ∈ reply.elements, (inventory.settings.refilter filter).isVisible element := by
  obtain ⟨same, left⟩ := inventory.carryOutAll_refilter filter operations
  refine ⟨same, ?_, ?_, fun reply => inventory.visible_of_carryOutAll, fun reply => ?_⟩
  · exact congrArg (fun after => after.1.store.committed) left
  · exact congrArg (fun after => after.2) left
  · exact (inventory.refilter filter).visible_of_carryOutAll

end Inventory

end Estate
