import Estate.Proofs.Graph.Lookups
import Estate.Proofs.Path

/-!
Containment in step with the paths: whatever is below another is contained in it, and containment
leads nowhere else. Nothing in the graph sees to this. While an entity comes or goes it may stand
there uncontained for a while, so the invariant exempts one path at most.
-/
namespace Estate

/-- The edge by which one entity contains another. -/
def Edge.containment (parent path : Path) : Edge := ⟨Reserved.contains.name, parent, path⟩

namespace Graph

variable {graph : Graph} {change : Change} {rel : Relationship} {entity : Entity}
  {path parent : Path} {id : String} {exempt : Option Path}

structure Mirrored (graph : Graph) (exempt : Option Path) : Prop where
  edges : ∀ {id rel}, graph.relationships.find? id = some rel → rel.name = Reserved.contains.name →
    rel.target.up? = some rel.source
  nested : ∀ {path parent}, graph.entities.contains path → path.up? = some parent →
    exempt ≠ some path →
    ∃ id rel, graph.relationships.find? id = some rel ∧ rel.edge = .containment parent path

/-- Changes that have nothing to do with containment. -/
def Unrelated (graph : Graph) : Change → Prop
  | .insertEntity entity => entity.path.up? = none
  | .replaceEntity _ | .replaceRelationship _ => True
  | .removeEntity _ => False
  | .insertRelationship rel => rel.name ≠ Reserved.contains.name
  | .removeRelationship id =>
    ∀ rel, graph.relationships.find? id = some rel → rel.name ≠ Reserved.contains.name

theorem stored_after (admitted : graph.Admits change)
    (stored : (graph.after change).entities.contains path) :
    graph.entities.contains path ∨ ∃ entity, change = .insertEntity entity ∧
      entity.path = path := by
  obtain ⟨entity, found⟩ := (Table.contains_iff _ _).mp stored
  rcases entity_after found with old | ⟨rfl, rfl | rfl⟩
  · exact .inl ((Table.contains_iff _ _).mpr ⟨entity, old⟩)
  · exact .inr ⟨entity, rfl, rfl⟩
  · exact .inl admitted

namespace Mirrored

theorem empty : empty.Mirrored none where
  edges found := nomatch found
  nested stored := nomatch stored

theorem weaken (mirrored : graph.Mirrored none) (exempt : Option Path) : graph.Mirrored exempt where
  edges := mirrored.edges
  nested stored up _ := mirrored.nested stored up nofun

variable (mirrored : graph.Mirrored exempt)
include mirrored

/-- Containment that a change does not bring leads up the paths as before. -/
theorem edges_after (suits : graph.Suits change) (admitted : graph.Admits change)
    (brought : ∀ rel, change = .insertRelationship rel → rel.name = Reserved.contains.name →
      rel.target.up? = some rel.source)
    (found : (graph.after change).relationships.find? id = some rel)
    (named : rel.name = Reserved.contains.name) :
    rel.target.up? = some rel.source := by
  rcases edge_before suits admitted found with ⟨old, present, same⟩ | ⟨-, new⟩
  · simp only [Relationship.edge, Edge.mk.injEq] at same
    obtain ⟨names, sources, targets⟩ := same
    rw [targets, sources]
    exact mirrored.edges present (names ▸ named)
  · exact brought rel new named

/-- What was contained before stays so, unless the relationship by which it is contained is removed.
-/
theorem nested_after (suits : graph.Suits change) (stored : graph.entities.contains path)
    (up : path.up? = some parent) (other : exempt ≠ some path)
    (stays : ∀ id rel, change = .removeRelationship id → graph.relationships.find? id = some rel →
      rel.edge ≠ .containment parent path) :
    ∃ id rel, (graph.after change).relationships.find? id = some rel ∧
      rel.edge = .containment parent path := by
  obtain ⟨id, rel, found, edge⟩ := mirrored.nested stored up other
  obtain ⟨next, found', same⟩ :=
    edge_after suits found fun removed => stays id rel removed found edge
  exact ⟨id, next, found', same.trans edge⟩

theorem after_unrelated (suits : graph.Suits change) (admitted : graph.Admits change)
    (unrelated : graph.Unrelated change) : (graph.after change).Mirrored exempt where
  edges := mirrored.edges_after suits admitted fun rel new named => by
    subst new
    exact absurd named unrelated
  nested {path parent} stored up other := by
    rcases stored_after admitted stored with old | ⟨entity, rfl, rfl⟩
    · refine mirrored.nested_after suits old up other fun id rel removed found edge => ?_
      subst removed
      exact unrelated rel found (congrArg Edge.name edge)
    · rw [show entity.path.up? = none from unrelated] at up
      cases up

omit mirrored in
/-- A new entity is exempt until it is contained. -/
theorem after_insertEntity (mirrored : graph.Mirrored (some entity.path))
    (admitted : graph.Admits (.insertEntity entity)) :
    (graph.after (.insertEntity entity)).Mirrored (some entity.path) where
  edges := mirrored.edges
  nested stored up other := by
    rcases stored_after admitted stored with old | ⟨same, new, rfl⟩
    · exact mirrored.nested old up other
    · cases new
      exact absurd rfl other

omit mirrored in
theorem after_contain (mirrored : graph.Mirrored (some path))
    (suits : graph.Suits (.insertRelationship rel))
    (admitted : graph.Admits (.insertRelationship rel)) (up : path.up? = some parent)
    (edge : rel.edge = .containment parent path) :
    (graph.after (.insertRelationship rel)).Mirrored none where
  edges := mirrored.edges_after suits admitted fun new same named => by
    cases same
    simp only [Relationship.edge, Edge.containment, Edge.mk.injEq] at edge
    rw [edge.2.1, edge.2.2]
    exact up
  nested {other above} stored upward _ := by
    by_cases here : other = path
    · subst here
      obtain rfl := Option.some.inj (up.symm.trans upward)
      exact ⟨rel.id, rel, by simp [find?_insertRelationship], edge⟩
    · have old : graph.entities.contains other := by simpa using stored
      exact mirrored.nested_after suits old upward (fun same => here (Option.some.inj same).symm)
        fun _ _ removed => by cases removed

omit mirrored in
/-- What keeps an exempt entity contained may go. -/
theorem after_release (mirrored : graph.Mirrored (some path))
    (admitted : graph.Admits (.removeRelationship id))
    (into : ∀ rel, graph.relationships.find? id = some rel → rel.name = Reserved.contains.name →
      rel.target = path) :
    (graph.after (.removeRelationship id)).Mirrored (some path) where
  edges := mirrored.edges_after trivial admitted nofun
  nested {other above} stored up exempted := by
    have old : graph.entities.contains other := by simpa using stored
    refine mirrored.nested_after trivial old up exempted fun gone rel removed found edge => ?_
    cases removed
    simp only [Relationship.edge, Edge.containment, Edge.mk.injEq] at edge
    exact exempted (congrArg some ((into rel found edge.1).symm.trans edge.2.2))

omit mirrored in
theorem after_leave (mirrored : graph.Mirrored (some path)) :
    (graph.after (.removeEntity path)).Mirrored none where
  edges := mirrored.edges
  nested {other above} stored up _ := by
    have stays : other ≠ path ∧ graph.entities.contains other := by simpa [after] using stored
    exact mirrored.nested stays.2 up fun same => stays.1 (Option.some.inj same).symm

end Mirrored

/-- Every entity that is no tenant lies in its parent, and containment leads from parents to what is
below them only. -/
structure Hierarchical (graph : Graph) : Prop where
  /-- there is exactly one containment into the entity, and it comes from the parent -/
  contained : ∀ path, graph.entities.contains path → path.kind ≠ .tenant →
    ∃ parent id rel, path.up? = some parent ∧ graph.entities.contains parent ∧
      graph.relationships.find? id = some rel ∧ rel.name = Reserved.contains.name ∧
      rel.target = path ∧
      rel.source = parent ∧
      ∀ other twin, graph.relationships.find? other = some twin →
        twin.name = Reserved.contains.name →
        twin.target = path → other = id
  upward : ∀ id rel, graph.relationships.find? id = some rel → rel.name = Reserved.contains.name →
    rel.target.up? = some rel.source

theorem Mirrored.hierarchical (mirrored : graph.Mirrored none) (wellFormed : graph.WellFormed)
    (exclusive : graph.Exclusive) : graph.Hierarchical where
  upward _ _ := mirrored.edges
  contained path stored below := by
    obtain ⟨parent, up⟩ := Path.up?_eq_some below
    obtain ⟨id, rel, found, edge⟩ := mirrored.nested stored up nofun
    have fields : rel.name = Reserved.contains.name ∧ rel.source = parent ∧ rel.target = path := by
      simpa [Relationship.edge, Edge.containment] using edge
    obtain ⟨named, source, target⟩ := fields
    have container : graph.entities.contains parent := by
      rw [← source]
      exact (wellFormed.ends found).1
    refine ⟨parent, id, rel, up, container, found, named, target, source, ?_⟩
    intro other twin found' named' target'
    have source' : twin.source = parent := by
      have upward := mirrored.edges found' named'
      rw [target', up] at upward
      exact (Option.some.inj upward).symm
    have same : twin.edge = rel.edge := by
      rw [edge, Relationship.edge, named', source', target']
      rfl
    have reserved : Reserved.isReserved twin.name := by
      rw [named']
      decide
    exact exclusive found' found same reserved

end Graph

end Estate
