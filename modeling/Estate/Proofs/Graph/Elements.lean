import Estate.Proofs.Graph.WellFormed

namespace Estate

def Change.handle : Change → Handle
  | .insertEntity entity | .replaceEntity entity => .entity entity.path
  | .removeEntity path => .entity path
  | .insertRelationship rel | .replaceRelationship rel => .relationship rel.id
  | .removeRelationship id => .relationship id

/-- The change that puts an element in the place of the one stored. -/
def Element.replacement : Element → Change
  | .entity e => .replaceEntity e
  | .relationship rel => .replaceRelationship rel

namespace Graph

variable {graph next : Graph} {change : Change} {log : List Change} {handle : Handle}
  {element : Element}

def element? (graph : Graph) : Handle → Option Element
  | .entity path => (graph.entities.find? path).map .entity
  | .relationship id => (graph.relationships.find? id).map .relationship

theorem element?_entity_iff {path : Path} {entity : Entity} :
    graph.element? (.entity path) = some (.entity entity) ↔
      graph.entities.find? path = some entity := by
  simp [element?]

theorem element?_relationship_iff {id : String} {rel : Relationship} :
    graph.element? (.relationship id) = some (.relationship rel) ↔
      graph.relationships.find? id = some rel := by
  simp [element?]

theorem Keyed.handle_eq (keyed : graph.Keyed) (found : graph.element? handle = some element) :
    element.handle = handle := by
  cases handle with
  | entity path =>
    obtain ⟨entity, stored, rfl⟩ := Option.map_eq_some_iff.mp found
    exact congrArg Handle.entity (keyed.entity stored)
  | relationship id =>
    obtain ⟨rel, stored, rfl⟩ := Option.map_eq_some_iff.mp found
    exact congrArg Handle.relationship (keyed.relationship stored)

theorem Keyed.replay (keyed : graph.Keyed) (replayed : graph.replay log = .ok next) :
    next.Keyed := by
  induction log generalizing graph with
  | nil =>
    obtain rfl := Except.ok.inj replayed
    exact keyed
  | cons change log ih =>
    obtain ⟨-, rest⟩ := replay_cons_eq_ok_iff.mp replayed
    exact ih (keyed.after change) rest

/-- A change leaves every element alone that it is not about. -/
theorem element?_after (other : change.handle ≠ handle) :
    (graph.after change).element? handle = graph.element? handle := by
  cases handle with
  | entity path =>
    cases change with
    | insertEntity entity | replaceEntity entity | removeEntity gone =>
      have apart : path ≠ _ := fun same => other (congrArg Handle.entity same.symm)
      simp [element?, after, apart]
    | insertRelationship rel | removeRelationship id => simp [element?]
    | replaceRelationship rel => rfl
  | relationship id =>
    cases change with
    | insertEntity entity | replaceEntity entity | removeEntity path => rfl
    | insertRelationship rel =>
      have apart : id ≠ rel.id := fun same => other (congrArg Handle.relationship same.symm)
      simp [element?, find?_insertRelationship, apart]
    | replaceRelationship rel =>
      have apart : id ≠ rel.id := fun same => other (congrArg Handle.relationship same.symm)
      simp [element?, after, apart]
    | removeRelationship gone =>
      have apart : id ≠ gone := fun same => other (congrArg Handle.relationship same.symm)
      cases present : graph.relationships.find? gone with
      | none => simp [after, present]
      | some rel => simp [element?, find?_removeRelationship present, apart]

theorem element?_replaced (graph : Graph) (element : Element) :
    (graph.after element.replacement).element? element.handle = some element := by
  cases element <;> simp [element?, after, Element.replacement, Element.handle]

theorem admits_replacement (graph : Graph) (element : Element) :
    graph.Admits element.replacement ↔ (graph.element? element.handle).isSome := by
  cases element <;> simp [Admits, Element.replacement, Element.handle, element?, Table.contains]

theorem element?_replay (apart : ∀ change ∈ log, change.handle ≠ handle)
    (replayed : graph.replay log = .ok next) :
    next.element? handle = graph.element? handle := by
  induction log generalizing graph with
  | nil =>
    obtain rfl := Except.ok.inj replayed
    rfl
  | cons change log ih =>
    obtain ⟨-, rest⟩ := replay_cons_eq_ok_iff.mp replayed
    rw [ih (fun later member => apart later (List.mem_cons_of_mem _ member)) rest]
    exact element?_after (apart change List.mem_cons_self)

/-- A log whose last change about a handle is a replacement leaves what was put there. -/
theorem element?_replay_replacement {earlier later : List Change}
    (apart : ∀ change ∈ later, change.handle ≠ element.handle)
    (replayed : graph.replay (earlier ++ element.replacement :: later) = .ok next) :
    next.element? element.handle = some element := by
  obtain ⟨middle, -, rest⟩ := replay_append_eq_ok_iff.mp replayed
  obtain ⟨-, rest⟩ := replay_cons_eq_ok_iff.mp rest
  rw [element?_replay apart rest]
  exact middle.element?_replaced element

end Graph

end Estate
