import Estate.Proofs.Graph.Alike
import Estate.Proofs.Graph.Elements

/-!
Independent logs: those that write no element in common and do not take away what the other builds
on. Logs that a graph admits one by one it admits one after the other, and in either order it
becomes the same graph but for the order in which ids are noted. Replacements are taken to keep the
edge of what they replace; nothing else is asked of the graph.
-/
namespace Estate

namespace Change

def related? : Change → Option Relationship
  | .insertRelationship rel => some rel
  | _ => none

def vacated? : Change → Option Path
  | .removeEntity path => some path
  | _ => none

/-- The element a change puts in, if it does not take one out. -/
def element? : Change → Option Element
  | .insertEntity entity | .replaceEntity entity => some (.entity entity)
  | .insertRelationship rel | .replaceRelationship rel => some (.relationship rel)
  | .removeEntity _ | .removeRelationship _ => none

end Change

/-- When two logs have nothing to do with each other. They may relate entities to one and the same
entity. -/
structure Independent (log others : List Change) : Prop where
  /-- no entity and no relationship is written by both -/
  handles : ∀ change ∈ log, ∀ other ∈ others, change.handle ≠ other.handle
  /-- no relationship inserted by one ends where the other removes an entity -/
  ends : ∀ rel ∈ log.filterMap Change.related?, ∀ path ∈ others.filterMap Change.vacated?,
    rel.touches path .both = false
  otherEnds : ∀ rel ∈ others.filterMap Change.related?, ∀ path ∈ log.filterMap Change.vacated?,
    rel.touches path .both = false
  /-- no edge with a reserved name is inserted by both -/
  edges : ∀ rel ∈ log.filterMap Change.related?, ∀ twin ∈ others.filterMap Change.related?,
    Reserved.isReserved rel.name → rel.edge ≠ twin.edge

namespace Independent

variable {log others : List Change} {change other : Change}

instance : Decidable (Independent log others) :=
  decidable_of_iff
    ((∀ change ∈ log, ∀ other ∈ others, change.handle ≠ other.handle) ∧
      (∀ rel ∈ log.filterMap Change.related?, ∀ path ∈ others.filterMap Change.vacated?,
        rel.touches path .both = false) ∧
      (∀ rel ∈ others.filterMap Change.related?, ∀ path ∈ log.filterMap Change.vacated?,
        rel.touches path .both = false) ∧
      ∀ rel ∈ log.filterMap Change.related?, ∀ twin ∈ others.filterMap Change.related?,
        Reserved.isReserved rel.name → rel.edge ≠ twin.edge)
    ⟨fun ⟨handles, ends, otherEnds, edges⟩ => ⟨handles, ends, otherEnds, edges⟩,
      fun ⟨handles, ends, otherEnds, edges⟩ => ⟨handles, ends, otherEnds, edges⟩⟩

theorem symm (apart : Independent log others) : Independent others log where
  handles other member change member' := (apart.handles change member' other member).symm
  ends := apart.otherEnds
  otherEnds := apart.ends
  edges twin member rel member' reserved same := by
    have names : twin.name = rel.name := congrArg Edge.name same
    exact apart.edges rel member' twin member (names ▸ reserved) same.symm

theorem subset {fewer : List Change} (apart : Independent log others) (sub : fewer ⊆ log) :
    Independent fewer others where
  handles change member := apart.handles change (sub member)
  ends rel member := apart.ends rel (List.filterMap_subset _ sub member)
  otherEnds rel member path member' :=
    apart.otherEnds rel member path (List.filterMap_subset _ sub member')
  edges rel member := apart.edges rel (List.filterMap_subset _ sub member)

theorem head (apart : Independent (change :: log) others) : Independent [change] others :=
  apart.subset (List.cons_subset_cons _ (List.nil_subset _))

theorem tail (apart : Independent (change :: log) others) : Independent log others :=
  apart.subset (List.subset_cons_self _ _)

theorem handle (apart : Independent [change] [other]) : change.handle ≠ other.handle :=
  apart.handles change List.mem_cons_self other List.mem_cons_self

theorem touches_of_removeEntity {path : Path} {rel : Relationship}
    (apart : Independent [change] [other]) (removes : change = .removeEntity path)
    (inserts : other = .insertRelationship rel) :
    rel.touches path .both = false := by
  subst removes inserts
  exact apart.otherEnds rel (by simp [Change.related?]) path (by simp [Change.vacated?])

theorem edge_ne {rel twin : Relationship} (apart : Independent [change] [other])
    (inserts : change = .insertRelationship rel) (inserts' : other = .insertRelationship twin)
    (reserved : Reserved.isReserved rel.name) : rel.edge ≠ twin.edge := by
  subst inserts inserts'
  exact apart.edges rel (by simp [Change.related?]) twin (by simp [Change.related?]) reserved

end Independent

namespace Graph

variable {graph next : Graph} {change other : Change} {log others : List Change}

theorem element?_after_self (graph : Graph) (change : Change) :
    (graph.after change).element? change.handle = change.element? := by
  cases change with
  | insertEntity entity | replaceEntity entity | removeEntity path =>
    simp [element?, after, Change.handle, Change.element?]
  | insertRelationship rel | replaceRelationship rel =>
    simp [element?, after, Change.handle, Change.element?]
  | removeRelationship id =>
    cases found : graph.relationships.find? id with
    | none => simp [element?, after, Change.handle, Change.element?, found]
    | some rel => simp [element?, find?_removeRelationship found, Change.handle, Change.element?]

/-- The order of changes to different elements makes no difference to any element. -/
theorem element?_after_comm (graph : Graph) (apart : change.handle ≠ other.handle)
    (handle : Handle) :
    ((graph.after change).after other).element? handle =
      ((graph.after other).after change).element? handle := by
  by_cases here : change.handle = handle
  · subst here
    rw [element?_after_self, element?_after apart.symm, element?_after_self]
  · rw [element?_after here]
    by_cases there : other.handle = handle
    · subst there
      rw [element?_after_self, element?_after_self]
    · rw [element?_after there, element?_after there, element?_after here]

theorem tables_eq {left right : Graph}
    (same : ∀ handle, left.element? handle = right.element? handle) :
    left.entities = right.entities ∧ left.relationships = right.relationships := by
  constructor
  · apply Table.ext
    intro path
    exact Option.map_injective (fun _ _ => Element.entity.inj) (same (.entity path))
  · apply Table.ext
    intro id
    exact Option.map_injective (fun _ _ => Element.relationship.inj) (same (.relationship id))

theorem entity_after_other {path : Path} (apart : other.handle ≠ .entity path) :
    (graph.after other).entities.find? path = graph.entities.find? path :=
  Option.map_injective (fun _ _ => Element.entity.inj) (element?_after apart)

theorem relationship_after_other {id : String} (apart : other.handle ≠ .relationship id) :
    (graph.after other).relationships.find? id = graph.relationships.find? id :=
  Option.map_injective (fun _ _ => Element.relationship.inj) (element?_after apart)

/-- Only its removal takes an entity away. -/
theorem contains_after {path : Path} (stored : graph.entities.contains path)
    (stays : other ≠ .removeEntity path) :
    (graph.after other).entities.contains path := by
  cases other with
  | insertEntity entity | replaceEntity entity => simp [after, stored]
  | removeEntity gone =>
    have apart : path ≠ gone := fun same => stays (congrArg Change.removeEntity same.symm)
    simp [after, stored, apart]
  | insertRelationship rel | removeRelationship id => simpa using stored
  | replaceRelationship rel => exact stored

/-- A replacement keeps the edge of what it replaces. -/
def KeepsEdge (graph : Graph) (change : Change) : Prop :=
  ∀ rel, change = .replaceRelationship rel →
    ∀ old, graph.relationships.find? rel.id = some old → rel.edge = old.edge

theorem mem_idsAt_after {path : Path} {id : String} (noted : id ∈ (graph.after other).idsAt path) :
    id ∈ graph.idsAt path ∨ ∃ rel, other = .insertRelationship rel ∧ rel.touches path .both ∧
      id = rel.id := by
  simp only [idsAt, find?_adjacency_after] at noted ⊢
  cases done : graph.noting other path with
  | enter | leave => simp [done, Noting.on] at noted
  | keep =>
    rw [done] at noted
    exact .inl noted
  | add new =>
    obtain ⟨rel, inserts, touching, rfl⟩ := noting_eq_add_iff.mp done
    rw [done] at noted
    rcases List.mem_append.mp noted with earlier | here
    · exact .inl earlier
    · exact .inr ⟨rel, inserts, touching, List.mem_singleton.mp here⟩
  | drop gone =>
    left
    cases listed : graph.adjacency.find? path with
    | none => simp [done, Noting.on, listed] at noted
    | some ids =>
      rw [done, listed] at noted
      exact (List.mem_filter.mp noted).1

/-- Whatever is noted at an entity after a change has an edge that was noted there before, or is
new. -/
theorem edge_noted {path : Path} {rel : Relationship} (kept : graph.KeepsEdge other)
    (admitted : graph.Admits other) (member : rel ∈ (graph.after other).relationshipsAt path) :
    (∃ old ∈ graph.relationshipsAt path, rel.edge = old.edge) ∨
      other = .insertRelationship rel := by
  obtain ⟨id, noted, found⟩ := List.mem_filterMap.mp member
  rcases relationship_after found with old | ⟨rfl, new | rfl⟩
  · rcases mem_idsAt_after noted with listed | ⟨new, rfl, -, rfl⟩
    · exact .inl ⟨rel, List.mem_filterMap.mpr ⟨id, listed, old⟩, rfl⟩
    · rw [find?_insertRelationship, if_pos rfl] at found
      exact .inr (congrArg Change.insertRelationship (Option.some.inj found))
  · exact .inr new
  · obtain ⟨old, present⟩ := (Table.contains_iff _ _).mp admitted
    exact .inl ⟨old, List.mem_filterMap.mpr ⟨rel.id, noted, present⟩, kept rel rfl old present⟩

theorem admits_after (apart : Independent [change] [other]) (kept : graph.KeepsEdge other)
    (admitted : graph.Admits change) (admitted' : graph.Admits other) :
    (graph.after other).Admits change := by
  have handles := apart.handle.symm
  cases change with
  | insertEntity entity =>
    simp only [Admits] at admitted ⊢
    rwa [entity_after_other handles]
  | replaceEntity entity =>
    simp only [Admits, Table.contains] at admitted ⊢
    rwa [entity_after_other handles]
  | replaceRelationship rel | removeRelationship id =>
    simp only [Admits, Table.contains] at admitted ⊢
    rwa [relationship_after_other handles]
  | removeEntity path =>
    refine ⟨contains_after admitted.1 fun same => handles (congrArg Change.handle same), ?_⟩
    rw [List.eq_nil_iff_forall_not_mem]
    intro id noted
    rcases mem_idsAt_after noted with listed | ⟨rel, new, touching, -⟩
    · simp [admitted.2] at listed
    · simp [apart.touches_of_removeEntity rfl new] at touching
  | insertRelationship rel =>
    have stays {path : Path} (touching : rel.touches path .both) : other ≠ .removeEntity path :=
      fun removes => by
      simp [apart.symm.touches_of_removeEntity removes rfl] at touching
    refine ⟨contains_after admitted.1 (stays (touches_both_iff.mpr (.inl rfl))),
      contains_after admitted.2.1 (stays (touches_both_iff.mpr (.inr rfl))), fun reserved => ?_⟩
    have free := between?_eq_none_iff_noted.mp (admitted.2.2 reserved)
    refine between?_eq_none_iff_noted.mpr fun twin member same => ?_
    rcases edge_noted kept admitted' member with ⟨old, listed, edge⟩ | new
    · exact free old listed (edge.symm.trans same)
    · exact apart.edge_ne rfl new reserved same.symm

/-- What must not be noted besides at the same entity, for one order to come to the same as the
other. -/
def Noting.Clear : Noting → Noting → Prop
  | enter, leave | enter, add _ | leave, add _ => False
  | add id, drop other => id ≠ other
  | _, _ => True

theorem Noting.on_add_drop {id other : String} (apart : id ≠ other) (noted : Option (List String)) :
    (drop other).on ((add id).on noted) = (add id).on ((drop other).on noted) := by
  have stays (ids : List String) : (ids ++ [id]).filter (· != other) = ids.filter (· != other) ++
      [id] := by
    simp [List.filter_append, apart]
  cases noted <;> simp [on, stays, apart]

theorem Noting.on_comm {first second : Noting} (clear : first.Clear second)
    (clear' : second.Clear first) (noted : Option (List String)) :
    SameNoted (second.on (first.on noted)) (first.on (second.on noted)) := by
  cases first with
  | keep => exact .refl _
  | enter =>
    cases second with
    | enter | drop id | keep => exact .refl _
    | leave | add id => exact clear.elim
  | leave =>
    cases second with
    | enter => exact clear'.elim
    | add id => exact clear.elim
    | leave | drop id | keep => exact .refl _
  | add id =>
    cases second with
    | enter | leave => exact clear'.elim
    | keep => exact .refl _
    | drop other =>
      rw [on_add_drop clear]
      exact .refl _
    | add other =>
      refine ⟨rfl, ?_⟩
      simp only [on, Option.getD_some, List.append_assoc]
      exact (List.Perm.swap other id []).append_left _
  | drop id =>
    cases second with
    | enter | leave | keep => exact .refl _
    | add other =>
      rw [on_add_drop clear']
      exact .refl _
    | drop other =>
      have swapped : (drop other).on ((drop id).on noted) =
          (drop id).on ((drop other).on noted) := by
        cases noted <;> simp [on, List.filter_filter, Bool.and_comm]
      rw [swapped]
      exact .refl _

theorem noting_clear (apart : Independent [change] [other]) (admitted : graph.Admits change)
    (admitted' : graph.Admits other) (path : Path) :
    (graph.noting change path).Clear (graph.noting other path) := by
  cases here : graph.noting change path with
  | enter =>
    obtain ⟨entity, rfl, rfl⟩ := noting_eq_enter_iff.mp here
    cases there : graph.noting other entity.path with
    | enter | drop id | keep => trivial
    | leave => exact apart.handle (congrArg Change.handle (noting_eq_leave_iff.mp there)).symm
    | add id =>
      -- the entity is not stored yet, so a relationship that is admitted cannot end there
      obtain ⟨rel, rfl, touching, -⟩ := noting_eq_add_iff.mp there
      have absent : graph.entities.contains entity.path = false :=
        (Table.contains_eq_false_iff _ _).mpr admitted
      rcases touches_both_iff.mp touching with ends | ends
      · simp [← ends, admitted'.1] at absent
      · simp [← ends, admitted'.2.1] at absent
  | leave =>
    cases there : graph.noting other path with
    | enter | leave | drop id | keep => trivial
    | add id =>
      obtain ⟨rel, inserts, touching, -⟩ := noting_eq_add_iff.mp there
      simp [apart.touches_of_removeEntity (noting_eq_leave_iff.mp here) inserts] at touching
  | add id =>
    obtain ⟨rel, rfl, -, rfl⟩ := noting_eq_add_iff.mp here
    cases there : graph.noting other path with
    | enter | leave | add _ | keep => trivial
    | drop gone =>
      intro same
      obtain rfl := eq_removeRelationship_of_noting there
      exact apart.handle (congrArg Handle.relationship same)
  | drop id | keep => cases graph.noting other path <;> trivial

theorem noting_after (apart : change.handle ≠ other.handle) (path : Path) :
    (graph.after other).noting change path = graph.noting change path := by
  cases change with
  | removeRelationship id => simp only [noting, relationship_after_other apart.symm]
  | insertEntity entity | replaceEntity entity | removeEntity gone | insertRelationship rel
  | replaceRelationship rel => rfl

/-- Independent changes that a graph admits come to the same in either order. -/
theorem after_comm (apart : Independent [change] [other]) (admitted : graph.Admits change)
    (admitted' : graph.Admits other) :
    ((graph.after change).after other).Alike ((graph.after other).after change) := by
  obtain ⟨entities, relationships⟩ := tables_eq (graph.element?_after_comm apart.handle)
  apply Alike.of_adjacency entities relationships
  intro path
  simp only [find?_adjacency_after, noting_after apart.handle, noting_after apart.handle.symm]
  exact Noting.on_comm (noting_clear apart admitted admitted' path)
    (noting_clear apart.symm admitted' admitted path) _

/-- Each replacement keeps the edge of what it replaces, as the log is replayed. -/
def KeepsEdges (graph : Graph) : List Change → Prop
  | [] => True
  | change :: rest => graph.KeepsEdge change ∧ (graph.after change).KeepsEdges rest

theorem KeepsEdges.congr {left right : Graph} (same : left.relationships = right.relationships)
    (kept : left.KeepsEdges log) : right.KeepsEdges log := by
  induction log generalizing left right with
  | nil => trivial
  | cons change rest ih =>
    refine ⟨fun rel replaces old found => kept.1 rel replaces old ?_,
      ih (relationships_after_congr same change) kept.2⟩
    rwa [same]

theorem KeepsEdge.after (kept : graph.KeepsEdge change) (apart : Independent [change] [other]) :
    (graph.after other).KeepsEdge change := by
  rintro rel rfl old found
  rw [relationship_after_other apart.handle.symm] at found
  exact kept rel rfl old found

theorem KeepsEdges.after (kept : graph.KeepsEdges log) (apart : Independent [change] log) :
    (graph.after change).KeepsEdges log := by
  induction log generalizing graph with
  | nil => trivial
  | cons other rest ih =>
    have first := apart.symm.head.symm
    refine ⟨kept.1.after first.symm, ?_⟩
    exact (ih kept.2 apart.symm.tail.symm).congr
      (tables_eq (graph.element?_after_comm first.handle.symm)).2

theorem keepsEdges_append_iff (replayed : graph.replay log = .ok next) :
    graph.KeepsEdges (log ++ others) ↔ graph.KeepsEdges log ∧ next.KeepsEdges others := by
  induction log generalizing graph with
  | nil =>
    obtain rfl := Except.ok.inj replayed
    simp [KeepsEdges]
  | cons change rest ih =>
    obtain ⟨-, replayed⟩ := replay_cons_eq_ok_iff.mp replayed
    simp only [List.cons_append, KeepsEdges, ih replayed, and_assoc]

/-- A change can be put off until after an independent log. -/
theorem replay_past (apart : Independent [change] log) (keeps : graph.KeepsEdge change)
    (kept : graph.KeepsEdges log) (admitted : graph.Admits change)
    (replayed : graph.replay log = .ok next) :
    next.Admits change ∧ ∃ later, (graph.after change).replay log = .ok later ∧
      later.Alike (next.after change) := by
  induction log generalizing graph with
  | nil =>
    obtain rfl := Except.ok.inj replayed
    exact ⟨admitted, graph.after change, rfl, .refl _⟩
  | cons other rest ih =>
    obtain ⟨admitted', replayed⟩ := replay_cons_eq_ok_iff.mp replayed
    have first : Independent [change] [other] := apart.symm.head.symm
    obtain ⟨still, later, went, alike⟩ := ih apart.symm.tail.symm (keeps.after first) kept.2
      (admits_after first kept.1 admitted admitted') replayed
    obtain ⟨last, went', alike'⟩ := (after_comm first admitted admitted').replay went
    refine ⟨still, last, ?_, alike'.trans alike⟩
    exact replay_cons_eq_ok_iff.mpr ⟨admits_after first.symm keeps admitted' admitted, went'⟩

/-- Independent logs that a graph takes can be replayed one after the other, and come to the same in
either order. -/
theorem replay_interchange {left right : Graph} (apart : Independent log others)
    (kept : graph.KeepsEdges log) (kept' : graph.KeepsEdges others)
    (replayed : graph.replay log = .ok left) (replayed' : graph.replay others = .ok right) :
    ∃ last last', left.replay others = .ok last ∧ right.replay log = .ok last' ∧
      last.Alike last' := by
  induction log generalizing graph right with
  | nil =>
    obtain rfl := Except.ok.inj replayed
    exact ⟨right, right, replayed', rfl, .refl right⟩
  | cons change rest ih =>
    obtain ⟨admitted, replayed⟩ := replay_cons_eq_ok_iff.mp replayed
    obtain ⟨still, later, went, alike⟩ := replay_past apart.head kept.1 kept' admitted replayed'
    obtain ⟨last, last', first, second, same⟩ :=
      ih apart.tail kept.2 (kept'.after apart.head) replayed went
    obtain ⟨final, third, same'⟩ := alike.symm.replay second
    exact ⟨last, final, first, replay_cons_eq_ok_iff.mpr ⟨still, third⟩, same.trans same'.symm⟩

end Graph

end Estate
