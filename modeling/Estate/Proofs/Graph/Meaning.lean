import Estate.Proofs.Graph.Reach
import Mathlib.Data.Set.Basic

/-!
What queries mean: sets of entities, defined by recursion on the query from what is stored alone. A
hop speaks of the relationships of the graph, not of what is noted at an entity, and branches are
joined. On a well-formed graph a walk leads exactly where its query means to, wherever it starts and
in whatever order.
-/
namespace Estate

variable {graph : Graph} {start target : Path} {hop : Hop} {here : Set Path}

/-- Whether a relationship, taken in a direction, goes from one entity to another. -/
def Relationship.Joins (rel : Relationship) : Direction → Path → Path → Prop
  | .outgoing, start, other => rel.source = start ∧ rel.target = other
  | .incoming, start, other => rel.target = start ∧ rel.source = other
  | .both, start, other =>
    rel.source = start ∧ rel.target = other ∨ rel.target = start ∧ rel.source = other

theorem Relationship.joins_iff {rel : Relationship} {direction : Direction} :
    rel.Joins direction start target ↔ rel.touches start direction ∧
      rel.otherEnd? start = some target := by
  by_cases source : rel.source = start
  · subst source
    by_cases loop : rel.target = rel.source
    · cases direction <;> simp [Joins, touches, otherEnd?, loop]
    · cases direction <;> simp [Joins, touches, otherEnd?, loop]
  · cases direction <;> simp [Joins, touches, otherEnd?, source, Ne.symm source, eq_comm]

namespace Graph

/-- Whether a stored relationship is one that a hop speaks of, and goes from one entity to another.
-/
def Spans (graph : Graph) (hop : Hop) (start other : Path) : Prop :=
  ∃ id rel, graph.relationships.find? id = some rel ∧ rel.name = hop.name ∧
    rel.Joins hop.direction start other ∧
    ∀ wanted, hop.otherEnd = some wanted → other = wanted

/-- When an entity has a property. -/
def Has (graph : Graph) (path : Path) : Test → Prop
  | .kinds kinds => path.kind ∈ kinds
  | .ids ids => path.id ∈ ids
  | .paths paths => path ∈ paths
  | .property name values =>
    ∃ entity value, graph.entities.find? path = some entity ∧
      entity.properties.find? name = some value ∧
      ∃ wanted ∈ values, value.same wanted

/-- What a step makes of a set of entities: a hop in path mode moves across all its relationships at
once, and everything else keeps those for which it holds. -/
def stepImage (graph : Graph) (here : Set Path) (step : Step) : Set Path :=
  match step.filter, step.mode with
  | .related hop, .path => {target | ∃ start ∈ here, graph.Spans hop start target}
  | .related hop, .filter => {path ∈ here | ∃ other, graph.Spans hop path other}
  | .passes test, _ => {path ∈ here | graph.Has path test}

mutual

/-- What a query makes of a set of entities: its steps in turn, and then the union of what its
branches make of that, if it has any. -/
def image (graph : Graph) (here : Set Path) : Query → Set Path
  | .mk steps [] => steps.foldl graph.stepImage here
  | .mk steps (branch :: rest) =>
    image graph (steps.foldl graph.stepImage here) branch ∪ imageEach graph
      (steps.foldl graph.stepImage here) rest

def imageEach (graph : Graph) (here : Set Path) : List Query → Set Path
  | [] => ∅
  | branch :: rest => image graph here branch ∪ imageEach graph here rest

end

def stored (graph : Graph) : Set Path := {path | graph.entities.contains path}

namespace WellFormed

variable (wellFormed : graph.WellFormed)
include wellFormed

theorem mem_matching_iff {rel : Relationship} :
    rel ∈ graph.matching start hop ↔
      graph.relationships.find? rel.id = some rel ∧ rel.name = hop.name ∧
      rel.touches start hop.direction ∧
        ∀ wanted, hop.otherEnd = some wanted → rel.otherEnd? start = some wanted := by
  rw [matching, List.mem_filter, wellFormed.mem_touching_iff]
  cases hop.otherEnd with
  | none => simp [and_comm]
  | some wanted => simp [and_assoc, and_left_comm, and_comm]

theorem spans_iff :
    graph.Spans hop start target ↔
      ∃ rel ∈ graph.matching start hop, rel.otherEnd? start = some target := by
  simp only [Spans, wellFormed.mem_matching_iff, Relationship.joins_iff]
  constructor
  · rintro ⟨id, rel, found, named, ⟨touching, other⟩, wanted⟩
    rw [← wellFormed.relationship found] at found
    refine ⟨rel, ⟨found, named, touching, fun given same => ?_⟩, other⟩
    rw [other, wanted given same]
  · rintro ⟨rel, ⟨found, named, touching, wanted⟩, other⟩
    refine ⟨rel.id, rel, found, named, ⟨touching, other⟩, fun given same => ?_⟩
    exact Option.some.inj (other.symm.trans (wanted given same))

theorem mem_landings_iff : target ∈ graph.landings start hop ↔ graph.Spans hop start target := by
  simp only [landings, List.mem_filterMap, Option.filter_eq_some_iff, wellFormed.spans_iff]
  refine exists_congr fun rel => and_congr_right fun member => and_iff_left_of_imp fun other => ?_
  -- the other end of a stored relationship is stored
  obtain ⟨found, -⟩ := wellFormed.mem_matching_iff.mp member
  obtain ⟨source, target⟩ := wellFormed.ends found
  simp only [Relationship.otherEnd?] at other
  split at other
  · exact Option.some.inj other ▸ target
  · split at other
    · exact Option.some.inj other ▸ source
    · cases other

theorem matching_ne_nil_iff :
    graph.matching start hop ≠ [] ↔ ∃ other, graph.Spans hop start other := by
  simp only [wellFormed.spans_iff]
  constructor
  · intro something
    obtain ⟨rel, member⟩ := List.exists_mem_of_ne_nil _ something
    have touching := (wellFormed.mem_matching_iff.mp member).2.2.1
    have end? : ∃ other, rel.otherEnd? start = some other := by
      rcases touches_both_iff.mp (touches_both_of_touches touching) with rfl | rfl
      · exact ⟨rel.target, if_pos rfl⟩
      · by_cases loop : rel.target = rel.source <;> simp [Relationship.otherEnd?, loop]
    obtain ⟨other, found⟩ := end?
    exact ⟨other, rel, member, found⟩
  · rintro ⟨other, rel, member, -⟩
    exact List.ne_nil_of_mem member

end WellFormed

theorem passes_iff {test : Test} : graph.passes start test ↔ graph.Has start test := by
  cases test with
  | kinds kinds | ids ids | paths paths => simp [passes, Has]
  | property name values =>
    simp only [passes, Has]
    cases found : graph.entities.find? start with
    | none => simp
    | some entity => cases present : entity.properties.find? name <;> simp [present]

theorem mem_stepImage_iff (wellFormed : graph.WellFormed) {step : Step} :
    target ∈ graph.stepImage here step ↔ ∃ start ∈ here, graph.StepLeads step start target := by
  have stays {holds : Path → Prop} :
      target ∈ {path ∈ here | holds path} ↔ ∃ start ∈ here, target = start ∧ holds start := by
    constructor
    · rintro ⟨member, held⟩
      exact ⟨target, member, rfl, held⟩
    · rintro ⟨start, member, rfl, held⟩
      exact ⟨member, held⟩
  rcases step with ⟨mode, hop | test⟩
  · cases mode with
    | path => simp [stepImage, StepLeads, wellFormed.mem_landings_iff]
    | filter => simp only [stepImage, StepLeads, stays, wellFormed.matching_ne_nil_iff]
  · cases mode <;> simp only [stepImage, StepLeads, stays, passes_iff]

theorem mem_stepsImage_iff (wellFormed : graph.WellFormed) {steps : List Step} :
    target ∈ steps.foldl graph.stepImage here ↔
      ∃ start ∈ here, graph.StepsLead steps start target := by
  induction steps generalizing here with
  | nil => simp [stepsLead_nil_iff]
  | cons step rest ih =>
    simp only [List.foldl_cons, ih, mem_stepImage_iff wellFormed, stepsLead_cons_iff]
    constructor
    · rintro ⟨middle, ⟨start, member, first⟩, later⟩
      exact ⟨start, member, middle, first, later⟩
    · rintro ⟨start, member, middle, first, later⟩
      exact ⟨middle, ⟨start, member, first⟩, later⟩

mutual

/-- What a query makes of a set is where it leads from there. -/
theorem mem_image_iff (wellFormed : graph.WellFormed) : (query : Query) → (here : Set Path) →
    (target ∈ graph.image here query ↔ ∃ start ∈ here, graph.Leads query start target)
  | .mk steps [], here => by simp only [image, mem_stepsImage_iff wellFormed, leads_line_iff]
  | .mk steps (branch :: rest), here => by
    rw [image, Set.mem_union, mem_image_iff wellFormed branch, mem_imageEach_iff wellFormed rest]
    simp only [mem_stepsImage_iff wellFormed, leads_branches_iff (List.cons_ne_nil branch rest),
      List.mem_cons]
    constructor
    · rintro (⟨middle, ⟨start, started, along⟩, further⟩ | ⟨middle, ⟨start, started, along⟩, other,
        member, further⟩)
      · exact ⟨start, started, middle, along, branch, .inl rfl, further⟩
      · exact ⟨start, started, middle, along, other, .inr member, further⟩
    · rintro ⟨start, started, middle, along, other, rfl | member, further⟩
      · exact .inl ⟨middle, ⟨start, started, along⟩, further⟩
      · exact .inr ⟨middle, ⟨start, started, along⟩, other, member, further⟩

theorem mem_imageEach_iff (wellFormed : graph.WellFormed) :
    (branches : List Query) → (here : Set Path) →
    (target ∈ graph.imageEach here branches ↔
      ∃ start ∈ here, ∃ branch ∈ branches, graph.Leads branch start target)
  | [], here => by simp [imageEach]
  | branch :: rest, here => by
    rw [imageEach, Set.mem_union, mem_image_iff wellFormed branch,
      mem_imageEach_iff wellFormed rest]
    simp only [List.mem_cons, exists_eq_or_imp, and_or_left, exists_or]

end

theorem ascending_pairwise (paths : List Path) :
    (ascending paths).Pairwise fun a b => compare a b = .lt := by
  rw [ascending, Table.keys, List.pairwise_map]
  exact (Table.ofList _).ascending

theorem evaluate_pairwise (graph : Graph) (query : Query) :
    (graph.evaluate query).Pairwise fun a b => compare a b = .lt := ascending_pairwise _

theorem eq_singleton_of_pairwise {paths : List Path} {path : Path}
    (sorted : paths.Pairwise fun a b => compare a b = .lt) (member : path ∈ paths)
    (same : ∀ other ∈ paths, other = path) : paths = [path] := by
  obtain ⟨first, rest, rfl⟩ := List.exists_cons_of_ne_nil (List.ne_nil_of_mem member)
  obtain rfl := same first List.mem_cons_self
  cases rest with
  | nil => rfl
  | cons second rest =>
    have later := (List.pairwise_cons.mp sorted).1 second List.mem_cons_self
    rw [same second (by simp)] at later
    simp at later

/-- Paths come out in one order, in whatever order and however often they went in. -/
theorem ascending_congr {paths others : List Path} (same : ∀ path, path ∈ paths ↔ path ∈ others) :
    ascending paths = ascending others := by
  -- an entry of the table behind them is its path and nothing else
  have listed (paths : List Path) (entry : Path × Unit) :
      entry ∈ (Table.ofList (paths.map fun path => (path, ()))).entries ↔ entry.1 ∈ paths := by
    rw [← mem_ascending, ascending, Table.keys, List.mem_map]
    constructor
    · exact fun member => ⟨entry, member, rfl⟩
    · rintro ⟨other, member, same⟩
      exact (Prod.ext same rfl : other = entry) ▸ member
  unfold ascending Table.keys
  congr 1
  refine Table.entries_eq_of_mem_iff (Table.ascending _) (Table.ascending _) fun entry => ?_
  rw [listed, listed, same]

theorem evaluate_congr {query other : Query}
    (same : ∀ path, path ∈ graph.evaluate query ↔ path ∈ graph.evaluate other) :
    graph.evaluate query = graph.evaluate other := by
  refine ascending_congr fun path => ?_
  have same := same path
  rwa [evaluate, evaluate, mem_ascending, mem_ascending] at same

/-- Where a walk starts counts, and not in which order its starts are taken. -/
theorem ascending_walk_of_perm {starts others : List Path} (query : Query)
    (reordered : starts.Perm others) :
    ascending (graph.walk starts query) = ascending (graph.walk others query) := by
  refine ascending_congr fun path => ?_
  simp only [mem_walk_iff, reordered.mem_iff]

/-- On a well-formed graph a query reaches what it makes of all that is stored. -/
theorem mem_evaluate_iff_mem_image (wellFormed : graph.WellFormed) {query : Query} :
    target ∈ graph.evaluate query ↔ target ∈ graph.image graph.stored query := by
  rw [mem_evaluate_iff, mem_image_iff wellFormed]
  rfl

end Graph

end Estate
