import Estate.Proofs.Graph.Meaning
import Estate.View

namespace Estate

namespace Graph

variable {graph : Graph} {starts others : List Path} {query next : Query} {target : Path}

def reached (graph : Graph) (starts : List Path) (query : Query) : List Path :=
  ascending (graph.walk starts query)

theorem mem_reached_iff :
    target ∈ graph.reached starts query ↔ ∃ start ∈ starts, graph.Leads query start target := by
  rw [reached, mem_ascending, mem_walk_iff]

/-- Only which entities a walk starts from counts, not how they are listed. -/
theorem reached_congr (same : ∀ path, path ∈ starts ↔ path ∈ others) :
    graph.reached starts query = graph.reached others query := by
  refine ascending_congr fun path => ?_
  simp only [mem_walk_iff, same]

theorem reached_ascending : graph.reached (ascending starts) query = graph.reached starts query :=
  reached_congr fun _ => mem_ascending

theorem reached_followedBy :
    graph.reached starts (query.followedBy next) =
      graph.reached (graph.reached starts query) next := by
  refine ascending_congr fun path => ?_
  simp only [mem_walk_iff, mem_reached_iff, leads_followedBy_iff]
  constructor
  · rintro ⟨start, started, middle, before, after⟩
    exact ⟨middle, ⟨start, started, before⟩, after⟩
  · rintro ⟨middle, ⟨start, started, before⟩, after⟩
    exact ⟨start, started, middle, before, after⟩

end Graph

namespace Query.Builder

inductive Instruction where
  | path
  | filter
  | all (filters : List Filter)
  | anyOf (groups : List (List Filter))
  | append (query : Query)

namespace Instruction

def on (builder : Builder) : Instruction → Builder
  | .path => builder.path
  | .filter => builder.filter
  | .all filters => builder.all filters
  | .anyOf groups => builder.anyOf groups
  | .append query => builder.append query

/-- The queries that instructions ask for, each in the mode in force by then. -/
def queries : Mode → List Instruction → List Query
  | _, [] => []
  | _, .path :: rest => queries .path rest
  | _, .filter :: rest => queries .filter rest
  | mode, .all filters :: rest => line mode filters :: queries mode rest
  | mode, .anyOf groups :: rest => alternatives mode groups :: queries mode rest
  | mode, .append query :: rest => query :: queries mode rest

end Instruction

variable {graph : Graph} {starts : List Path}

theorem reached_extend {query : Query} :
    graph.reached starts query.extend.build = graph.reached starts query := by
  refine Graph.ascending_congr fun path => ?_
  simp only [Query.extend, build, Graph.mem_walk_iff, Graph.leads_followedBy_iff,
    Graph.leads_empty_iff, exists_eq_right']

theorem reached_append {builder : Builder} {query : Query} :
    graph.reached starts (builder.append query).build =
      graph.reached (graph.reached starts builder.build) query := by
  simp only [append, build, Graph.reached_followedBy]

/-- What is built by instructions reaches what they ask for, one after another. -/
theorem reached_instructions (instructions : List Instruction) (builder : Builder) :
    graph.reached starts (instructions.foldl Instruction.on builder).build =
      (Instruction.queries builder.mode instructions).foldl graph.reached
        (graph.reached starts builder.build) := by
  induction instructions generalizing builder with
  | nil => rfl
  | cons instruction rest ih =>
    rw [List.foldl_cons, ih]
    cases instruction with
    | path | filter => rfl
    | all filters =>
      exact congrArg ((Instruction.queries builder.mode rest).foldl graph.reached) reached_append
    | anyOf groups =>
      exact congrArg ((Instruction.queries builder.mode rest).foldl graph.reached) reached_append
    | append query =>
      exact congrArg ((Instruction.queries builder.mode rest).foldl graph.reached) reached_append

end Query.Builder

namespace Position

open Query.Builder

def Refinement.instructions : Refinement → List Instruction
  | .whereAll filters => [.filter, .all filters]
  | .whereAny groups => [.filter, .anyOf groups]
  | .hop filters => [.path, .all filters]

def Refinement.query : Refinement → Query
  | .whereAll filters => .line .filter filters
  | .whereAny groups => alternatives .filter groups
  | .hop filters => .line .path filters

theorem Refinement.on_eq (builder : Query.Builder) (refinement : Refinement) :
    refinement.on builder = refinement.instructions.foldl Instruction.on builder := by
  cases refinement <;> rfl

/-- Whatever mode a builder is in, a refinement asks for its own query. -/
theorem Refinement.queries_instructions (mode : Mode) (refinements : List Refinement) :
    Instruction.queries mode (refinements.flatMap Refinement.instructions) =
      refinements.map Refinement.query := by
  induction refinements generalizing mode with
  | nil => rfl
  | cons refinement rest ih =>
    rw [List.flatMap_cons, List.map_cons]
    cases refinement <;> exact congrArg _ (ih _)

variable {graph : Graph} {starts : List Path}

theorem reached_refine (position : Position) (refinements : List Refinement) :
    graph.reached starts (position.refine refinements).query =
      (refinements.map Refinement.query).foldl graph.reached
        (graph.reached starts position.query) := by
  have instructions : refinements.foldl Refinement.on position.select.extend =
      (refinements.flatMap Refinement.instructions).foldl Instruction.on
        position.select.extend := by
    rw [List.foldl_flatMap,
      show Refinement.on = fun builder refinement =>
        refinement.instructions.foldl Instruction.on builder from
        funext₂ Refinement.on_eq]
  calc graph.reached starts (position.refine refinements).query
    _ = graph.reached (graph.reached starts position.source)
          ((refinements.flatMap Refinement.instructions).foldl Instruction.on
            position.select.extend).build := by
      rw [query, Graph.reached_followedBy, ← instructions]
      rfl
    _ = (refinements.map Refinement.query).foldl graph.reached
          (graph.reached (graph.reached starts position.source) position.select) := by
      rw [reached_instructions, Refinement.queries_instructions, reached_extend]
    _ = (refinements.map Refinement.query).foldl graph.reached
      (graph.reached starts position.query) := by
      rw [query, Graph.reached_followedBy]

theorem reached_proceedTo (position : Position) (name : Reserved) (kind : Kind) :
    graph.reached starts (position.proceedTo name kind).query =
      graph.reached (graph.reached starts position.query)
        (.line .path [.hop name.name .outgoing, .kind kind]) := by
  have select : (position.proceedTo name kind).select =
      .line .path [.hop name.name .outgoing, .kind kind] := rfl
  rw [query, Graph.reached_followedBy, select]
  rfl

end Position

/-- Composition is evaluation in sequence: a query that follows another reaches from any set of
entities just what it reaches from all that the other has reached from them, and builders,
refinements and ways on reach what their parts reach one after another. -/
theorem composition_evaluates_in_sequence (graph : Graph) (starts : List Path) :
    (∀ first next : Query,
      graph.reached starts (first.followedBy next) =
        graph.reached (graph.reached starts first) next ∧
        graph.evaluate (first.followedBy next) = graph.reached (graph.evaluate first) next) ∧
      (∀ query : Query, graph.reached (Graph.ascending starts) query = graph.reached starts query) ∧
      (∀ (builder : Query.Builder) (instructions : List Query.Builder.Instruction),
        graph.reached starts (instructions.foldl Query.Builder.Instruction.on builder).build =
          (Query.Builder.Instruction.queries builder.mode instructions).foldl graph.reached
            (graph.reached starts builder.build)) ∧
      (∀ (position : Position) (refinements : List Position.Refinement),
        graph.evaluate (position.refine refinements).query =
          (refinements.map Position.Refinement.query).foldl graph.reached
            (graph.evaluate position.query)) ∧
      ∀ (position : Position) (name : Reserved) (kind : Kind),
        graph.evaluate (position.proceedTo name kind).query =
          graph.reached (graph.evaluate position.query)
            (.line .path [.hop name.name .outgoing, .kind kind]) :=
  ⟨fun _ _ => ⟨Graph.reached_followedBy, Graph.reached_followedBy⟩,
    fun _ => Graph.reached_ascending,
    fun builder instructions => Query.Builder.reached_instructions instructions builder,
    fun position refinements => Position.reached_refine position refinements,
    fun position name kind => Position.reached_proceedTo position name kind⟩

end Estate
