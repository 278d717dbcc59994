import Estate.Proofs.View.Composition
import Mathlib.Algebra.BigOperators.Group.List.Basic
import Mathlib.Algebra.GroupWithZero.Nat

namespace Estate.Query

variable {steps : List Step} {branches : List Query} {next : Query}

/-- What holds of lines, and of what branches if it holds of the branches, holds of all queries. -/
theorem shape_induction {holds : Query → Prop} (line : ∀ steps, holds (mk steps []))
    (branching : ∀ steps branches, branches ≠ [] → (∀ branch ∈ branches, holds branch) →
      holds (mk steps branches))
    (query : Query) : holds query := by
  refine @Query.rec holds (fun branches => ∀ branch ∈ branches, holds branch) ?_ ?_ ?_ query
  · intro steps branches each
    by_cases none : branches = []
    · subst none
      exact line steps
    · exact branching steps branches none each
  · exact fun _ => nofun
  · exact fun branch rest first others => List.forall_mem_cons.mpr ⟨first, others⟩

/-- At the end of a line the next query takes over. -/
theorem followedBy_line :
    (mk steps []).followedBy next = mk (steps ++ next.steps) next.branches := by
  rw [followedBy]

theorem followedBy_branches (some : branches ≠ []) :
    (mk steps branches).followedBy next = mk steps (branches.map (followedBy · next)) := by
  have each (branches : List Query) : eachFollowedBy branches next =
      branches.map (followedBy · next) := by
    induction branches with
    | nil => rfl
    | cons branch rest ih => rw [eachFollowedBy, ih, List.map_cons]
  obtain ⟨branch, rest, rfl⟩ := List.exists_cons_of_ne_nil some
  rw [followedBy, each, List.map_cons]

theorem empty_followedBy (query : Query) : empty.followedBy query = query := by
  cases query
  exact followedBy_line

theorem followedBy_empty (query : Query) : query.followedBy empty = query := by
  induction query using shape_induction with
  | line steps => rw [followedBy_line, empty, Query.steps, Query.branches, List.append_nil]
  | branching steps branches some ih =>
    rw [followedBy_branches some, List.map_congr_left ih, List.map_id']

theorem followedBy_assoc (first second third : Query) :
    (first.followedBy second).followedBy third = first.followedBy (second.followedBy third) := by
  induction first using shape_induction with
  | line steps =>
    rw [followedBy_line, followedBy_line]
    obtain ⟨others, branches⟩ := second
    by_cases none : branches = []
    · subst none
      simp only [Query.steps, Query.branches, followedBy_line, List.append_assoc]
    · simp only [Query.steps, Query.branches, followedBy_branches none]
  | branching steps branches some ih =>
    have grafted : branches.map (followedBy · second) ≠ [] := by simpa using some
    rw [followedBy_branches some, followedBy_branches grafted, followedBy_branches some,
      List.map_map]
    exact congrArg (mk steps) (List.map_congr_left ih)

instance : Monoid Query where
  mul := followedBy
  one := empty
  mul_assoc := followedBy_assoc
  one_mul := empty_followedBy
  mul_one := followedBy_empty

mutual

/-- The walks from the start of a query to its ends, each by all steps on its way. -/
def walks : Query → List (List Step)
  | mk steps [] => [steps]
  | mk steps (branch :: rest) => (walks branch ++ walksEach rest).map (steps ++ ·)

def walksEach : List Query → List (List Step)
  | [] => []
  | branch :: rest => walks branch ++ walksEach rest

end

def crossed (before after : List (List Step)) : List (List Step) :=
  before.flatMap fun walk => after.map (walk ++ ·)

theorem walks_line : (mk steps []).walks = [steps] := by rw [walks]

theorem walks_branches (some : branches ≠ []) :
    (mk steps branches).walks = (branches.flatMap walks).map (steps ++ ·) := by
  have each (branches : List Query) : walksEach branches = branches.flatMap walks := by
    induction branches with
    | nil => rfl
    | cons branch rest ih => rw [walksEach, ih, List.flatMap_cons]
  obtain ⟨branch, rest, rfl⟩ := List.exists_cons_of_ne_nil some
  rw [walks, each, List.flatMap_cons]

theorem walks_mk (steps : List Step) (branches : List Query) :
    (mk steps branches).walks = (mk [] branches).walks.map (steps ++ ·) := by
  by_cases none : branches = []
  · subst none
    simp only [walks_line, List.map_singleton, List.append_nil]
  · simp only [walks_branches none, List.nil_append, List.map_id']

/-- Grafting multiplies walks. -/
theorem walks_followedBy (first next : Query) :
    (first.followedBy next).walks = crossed first.walks next.walks := by
  induction first using shape_induction with
  | line steps =>
    obtain ⟨others, branches⟩ := next
    rw [followedBy_line, walks_line, walks_mk, Query.steps, Query.branches, walks_mk others]
    simp [crossed]
  | branching steps branches some ih =>
    have grafted : branches.map (followedBy · next) ≠ [] := by simpa using some
    rw [followedBy_branches some, walks_branches grafted, walks_branches some, List.flatMap_map,
      List.flatMap_congr ih]
    simp [crossed, List.map_flatMap, List.flatMap_map, List.flatMap_assoc, Function.comp_def]

theorem branchCount_branches (some : branches ≠ []) :
    (mk steps branches).branchCount = (branches.map branchCount).sum := by
  have each (branches : List Query) : branchCounts branches = (branches.map branchCount).sum := by
    induction branches with
    | nil => rfl
    | cons branch rest ih => rw [branchCounts, ih, List.map_cons, List.sum_cons]
  obtain ⟨branch, rest, rfl⟩ := List.exists_cons_of_ne_nil some
  rw [branchCount, each, List.map_cons, List.sum_cons]

theorem branchCount_eq (query : Query) : query.branchCount = query.walks.length := by
  induction query using shape_induction with
  | line steps => rw [walks_line, branchCount, List.length_singleton]
  | branching steps branches some ih =>
    rw [branchCount_branches some, walks_branches some, List.length_map, List.length_flatMap,
      List.map_congr_left ih]

theorem length_crossed (before after : List (List Step)) :
    (crossed before after).length = before.length * after.length := by
  simp [crossed, List.length_flatMap]

theorem branchCount_followedBy (first next : Query) :
    (first.followedBy next).branchCount = first.branchCount * next.branchCount := by
  rw [branchCount_eq, walks_followedBy, length_crossed, ← branchCount_eq, ← branchCount_eq]

/-- The number of walks, from products of queries to products of numbers. -/
def branchCounting : Query →* Nat where
  toFun := branchCount
  map_one' := by
    show (mk [] []).branchCount = 1
    rw [branchCount]
  map_mul' := branchCount_followedBy

namespace Builder

theorem build_append (builder : Builder) (query : Query) :
    (builder.append query).build = builder.build * query :=
  (followedBy_assoc builder.seed builder.tail query).symm

/-- What a builder builds by instructions is what it would build without them, times what they ask
for. -/
theorem build_instructions (instructions : List Instruction) (builder : Builder) :
    (instructions.foldl Instruction.on builder).build =
      builder.build * (Instruction.queries builder.mode instructions).prod := by
  induction instructions generalizing builder with
  | nil => exact (mul_one builder.build).symm
  | cons instruction rest ih =>
    rw [List.foldl_cons, ih]
    cases instruction with
    | path | filter => rfl
    | all filters | anyOf groups | append query =>
      simp only [Instruction.on, Instruction.queries, List.prod_cons, ← mul_assoc]
      exact congrArg (· * _) (build_append _ _)

theorem foldl_followedBy (seed : Query) (queries : List Query) :
    queries.foldl followedBy seed = seed * queries.prod := by
  induction queries generalizing seed with
  | nil => exact (mul_one seed).symm
  | cons query rest ih =>
    rw [List.foldl_cons, ih, List.prod_cons, ← mul_assoc]
    rfl

theorem walks_foldl (seed : Query) (queries : List Query) :
    (queries.foldl followedBy seed).walks = (queries.map walks).foldl crossed seed.walks := by
  rw [List.foldl_map]
  exact (List.foldl_hom walks fun first next => (walks_followedBy first next).symm).symm

end Builder

end Estate.Query
