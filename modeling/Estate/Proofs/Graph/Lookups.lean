import Estate.Proofs.Graph.WellFormed

namespace Estate.Graph

variable {graph : Graph} {change : Change} {rel : Relationship} {path source target : Path}
  {id name : String}

def HasEdge (graph : Graph) (edge : Edge) : Prop :=
  ∃ id rel, graph.relationships.find? id = some rel ∧ rel.edge = edge

theorem touches_both_of_touches {direction : Direction} (touching : rel.touches path direction) :
    rel.touches path .both := by
  cases direction <;> simp_all [Relationship.touches]

theorem between?_eq_none_iff_noted :
    graph.between? source target name = none ↔
      ∀ rel ∈ graph.relationshipsAt source, rel.edge ≠ ⟨name, source, target⟩ := by
  simp only [between?, List.find?_eq_none]
  refine forall₂_congr fun rel _ => not_congr ?_
  simp only [Relationship.edge, Edge.mk.injEq, Bool.and_eq_true, decide_eq_true_eq, beq_iff_eq]
  constructor
  · rintro ⟨⟨starts, ends⟩, named⟩
    exact ⟨named, starts, ends⟩
  · rintro ⟨named, starts, ends⟩
    exact ⟨⟨starts, ends⟩, named⟩

namespace WellFormed

variable (wellFormed : graph.WellFormed)
include wellFormed

theorem mem_relationshipsAt_iff :
    rel ∈ graph.relationshipsAt path ↔
      graph.relationships.find? rel.id = some rel ∧ rel.touches path .both := by
  simp only [relationshipsAt, List.mem_filterMap]
  constructor
  · rintro ⟨id, member, found⟩
    obtain ⟨noted, present, touching⟩ := (wellFormed.listed path id).mp member
    have same := Option.some.inj (present.symm.trans found)
    subst same
    rw [wellFormed.relationship found]
    exact ⟨found, touching⟩
  · rintro ⟨found, touching⟩
    exact ⟨rel.id, (wellFormed.listed path rel.id).mpr ⟨rel, found, touching⟩, found⟩

theorem mem_touching_iff {direction : Direction} {wanted : Option String} :
    rel ∈ graph.touching path direction wanted ↔
      graph.relationships.find? rel.id = some rel ∧ rel.touches path direction ∧
        ∀ name, wanted = some name → rel.name = name := by
  simp only [touching, List.mem_filter, wellFormed.mem_relationshipsAt_iff, Bool.and_eq_true]
  constructor
  · rintro ⟨⟨found, -⟩, touching, named⟩
    refine ⟨found, touching, ?_⟩
    rintro name rfl
    simpa using named
  · rintro ⟨found, touching, named⟩
    refine ⟨⟨found, touches_both_of_touches touching⟩, touching, ?_⟩
    cases wanted with
    | none => rfl
    | some name => simpa using named name rfl

theorem hasContents_eq_false_iff :
    graph.hasContents path = false ↔
      ∀ id rel, graph.relationships.find? id = some rel → rel.name = Reserved.contains.name →
        rel.source ≠ path := by
  simp only [hasContents, Bool.not_eq_eq_eq_not, Bool.not_false, List.isEmpty_iff,
    List.eq_nil_iff_forall_not_mem, wellFormed.mem_touching_iff]
  constructor
  · intro bare id rel found named source
    have keyed := wellFormed.relationship found
    subst keyed
    exact bare rel ⟨found, by simpa [Relationship.touches] using source, by simp [named]⟩
  · rintro bare rel ⟨found, touching, named⟩
    exact bare rel.id rel found (named _ rfl) (by simpa [Relationship.touches] using touching)

theorem between?_eq_none_iff :
    graph.between? source target name = none ↔
      ∀ id rel, graph.relationships.find? id = some rel → rel.edge ≠ ⟨name, source, target⟩ := by
  simp only [between?_eq_none_iff_noted, wellFormed.mem_relationshipsAt_iff]
  constructor
  · intro absent id rel found edge
    have keyed := wellFormed.relationship found
    subst keyed
    exact absent rel ⟨found, touches_both_iff.mpr (.inl (congrArg Edge.source edge))⟩ edge
  · rintro absent rel ⟨found, -⟩
    exact absent rel.id rel found

theorem between?_eq_some (found : graph.between? source target name = some rel) :
    graph.relationships.find? rel.id = some rel ∧ rel.edge = ⟨name, source, target⟩ := by
  have member := List.mem_of_find?_eq_some found
  have edge := List.find?_some found
  simp only [Bool.and_eq_true, decide_eq_true_eq, beq_iff_eq] at edge
  exact ⟨(wellFormed.mem_relationshipsAt_iff.mp member).1, by simp [Relationship.edge, edge]⟩

theorem between?_eq_none_iff_not_hasEdge :
    graph.between? source target name = none ↔ ¬graph.HasEdge ⟨name, source, target⟩ := by
  simp [wellFormed.between?_eq_none_iff, HasEdge]

theorem isSome_between?_iff : (graph.between? source target name).isSome ↔
    graph.HasEdge ⟨name, source, target⟩ := by
  rw [Option.isSome_iff_ne_none, Ne, wellFormed.between?_eq_none_iff_not_hasEdge, Classical.not_not]

end WellFormed

theorem edge_before (suits : graph.Suits change) (admitted : graph.Admits change)
    (found : (graph.after change).relationships.find? id = some rel) :
    (∃ old, graph.relationships.find? id = some old ∧ rel.edge = old.edge) ∨
      rel.id = id ∧ change = .insertRelationship rel := by
  rcases relationship_after found with old | ⟨rfl, new | rfl⟩
  · exact .inl ⟨rel, old, rfl⟩
  · exact .inr ⟨rfl, new⟩
  · obtain ⟨old, present⟩ := (Table.contains_iff _ _).mp admitted
    exact .inl ⟨old, present, suits old present⟩

/-- Only its removal takes a relationship's edge away. -/
theorem edge_after (suits : graph.Suits change) (found : graph.relationships.find? id = some rel)
    (stays : change ≠ .removeRelationship id) :
    ∃ next, (graph.after change).relationships.find? id = some next ∧ next.edge = rel.edge := by
  cases change with
  | insertEntity entity | replaceEntity entity | removeEntity path => exact ⟨rel, found, rfl⟩
  | insertRelationship new =>
    have fresh : graph.relationships.find? new.id = none := suits
    have apart : id ≠ new.id := by
      rintro rfl
      simp [fresh] at found
    exact ⟨rel, by simp [find?_insertRelationship, apart, found], rfl⟩
  | replaceRelationship new =>
    by_cases same : id = new.id
    · subst same
      exact ⟨new, by simp [after], suits rel found⟩
    · exact ⟨rel, by simp [after, same, found], rfl⟩
  | removeRelationship gone =>
    have apart : id ≠ gone := fun same => stays (congrArg Change.removeRelationship same.symm)
    cases present : graph.relationships.find? gone with
    | none => exact ⟨rel, by simp [after, present, found], rfl⟩
    | some old => exact ⟨rel, by simp [find?_removeRelationship present, apart, found], rfl⟩

/-- A reserved name holds at most once per ordered pair. -/
def Exclusive (graph : Graph) : Prop :=
  ∀ ⦃id other rel twin⦄, graph.relationships.find? id = some rel →
    graph.relationships.find? other = some twin →
    rel.edge = twin.edge → Reserved.isReserved rel.name → id = other

theorem Exclusive.empty : empty.Exclusive := fun _ _ _ _ found => nomatch found

theorem WellFormed.between?_eq_some_iff (wellFormed : graph.WellFormed)
    (exclusive : graph.Exclusive) (reserved : Reserved.isReserved name) :
    graph.between? source target name = some rel ↔
      graph.relationships.find? rel.id = some rel ∧ rel.edge = ⟨name, source, target⟩ := by
  refine ⟨wellFormed.between?_eq_some, fun ⟨found, edge⟩ => ?_⟩
  cases between : graph.between? source target name with
  | none =>
    exact absurd ⟨rel.id, rel, found, edge⟩ (wellFormed.between?_eq_none_iff_not_hasEdge.mp between)
  | some other =>
    obtain ⟨found', edge'⟩ := wellFormed.between?_eq_some between
    have named : other.name = name := congrArg Edge.name edge'
    have same := exclusive found' found (edge'.trans edge.symm) (named ▸ reserved)
    rw [same] at found'
    exact found'.symm.trans found

/-- An insertion is checked for a twin, and a replacement keeps the edge of what it replaces. -/
theorem Exclusive.after (exclusive : graph.Exclusive) (wellFormed : graph.WellFormed)
    (suits : graph.Suits change) (admitted : graph.Admits change) :
    (graph.after change).Exclusive := by
  have twinless {incoming old : Relationship} {id : String} (new : change =
      .insertRelationship incoming)
      (found : graph.relationships.find? id = some old) (same : incoming.edge = old.edge) :
      ¬Reserved.isReserved incoming.name := by
    subst new
    intro reserved
    have free := wellFormed.between?_eq_none_iff.mp (admitted.2.2 reserved) id old found
    exact free same.symm
  intro id other rel twin found found' same reserved
  rcases edge_before suits admitted found with ⟨old, present, kept⟩ | ⟨rfl, new⟩
  · have reservedOld : Reserved.isReserved old.name := by
      have names : rel.name = old.name := congrArg Edge.name kept
      exact names ▸ reserved
    rcases edge_before suits admitted found' with ⟨old', present', kept'⟩ | ⟨rfl, new'⟩
    · exact exclusive present present' (kept.symm.trans (same.trans kept')) reservedOld
    · have names : rel.name = twin.name := congrArg Edge.name same
      exact absurd (names ▸ reserved) (twinless new' present (same.symm.trans kept))
  · rcases edge_before suits admitted found' with ⟨old', present', kept'⟩ | ⟨rfl, new'⟩
    · exact absurd reserved (twinless new present' (same.trans kept'))
    · have both : rel = twin := by simpa using new.symm.trans new'
      rw [both]

end Estate.Graph
