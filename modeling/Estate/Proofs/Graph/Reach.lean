import Estate.Graph.Walk
import Estate.Proofs.Graph.Lookups
import Estate.Query.Builder

namespace Estate

namespace Table

variable {κ : Type} {α : Type} [Ord κ] [Std.TransOrd κ] [Std.LawfulEqOrd κ]

omit [Std.TransOrd κ] in
theorem mem_keys_iff (table : Table κ α) (key : κ) : key ∈ table.keys ↔ table.contains key := by
  rw [keys, List.mem_map, contains_iff]
  constructor
  · rintro ⟨entry, member, rfl⟩
    exact ⟨entry.2, (table.mem_entries_iff _ _).mp member⟩
  · rintro ⟨value, found⟩
    exact ⟨(key, value), (table.mem_entries_iff _ _).mpr found, rfl⟩

theorem contains_insertAll (table : Table κ α) (entries : List (κ × α)) (key : κ) :
    (table.insertAll entries).contains key ↔ table.contains key ∨ key ∈ entries.map (·.1) := by
  induction entries generalizing table with
  | nil => simp [insertAll]
  | cons entry rest ih =>
    have rest := ih (table.insert entry.1 entry.2)
    simp only [insertAll, List.foldl_cons] at rest ⊢
    rw [rest, contains_insert, List.map_cons, List.mem_cons, Bool.or_eq_true, beq_iff_eq,
      Std.LawfulEqCmp.compare_eq_iff_eq, or_assoc, or_left_comm]

end Table

namespace Graph

variable {graph : Graph} {start middle target : Path} {steps rest : List Step} {query next : Query}

theorem mem_ascending {paths : List Path} {path : Path} :
    path ∈ ascending paths ↔ path ∈ paths := by
  rw [ascending, Table.mem_keys_iff, Table.ofList, Table.contains_insertAll]
  simp [Table.contains, Table.empty, Table.find?, Table.lookup]

/-- Where one step leads. As a condition it leads nowhere else. -/
def StepLeads (graph : Graph) (step : Step) (start target : Path) : Prop :=
  match step.filter, step.mode with
  | .related hop, .path => target ∈ graph.landings start hop
  | .related hop, .filter => target = start ∧ graph.matching start hop ≠ []
  | .passes test, _ => target = start ∧ graph.passes start test

inductive StepsLead (graph : Graph) : List Step → Path → Path → Prop where
  | here (path : Path) : StepsLead graph [] path path
  | next {step : Step} {rest : List Step} {start middle target : Path}
      (first : graph.StepLeads step start middle)
      (later : StepsLead graph rest middle target) : StepsLead graph (step :: rest) start target

/-- Where a query leads: to the end of its steps, and from there on along one of its branches if it
has any. -/
inductive Leads (graph : Graph) : Query → Path → Path → Prop where
  | line {steps : List Step} {start target : Path} (along : graph.StepsLead steps start target) :
      Leads graph (.mk steps []) start target
  | branch {steps : List Step} {branches : List Query} {branch : Query} {start middle target : Path}
      (along : graph.StepsLead steps start middle) (member : branch ∈ branches)
      (further : Leads graph branch middle target) : Leads graph (.mk steps branches) start target

theorem stepsLead_nil_iff : graph.StepsLead [] start target ↔ target = start := by
  constructor
  · rintro ⟨⟩
    rfl
  · rintro rfl
    exact .here _

theorem stepsLead_cons_iff {step : Step} :
    graph.StepsLead (step :: rest) start target ↔
      ∃ middle, graph.StepLeads step start middle ∧ graph.StepsLead rest middle target := by
  constructor
  · rintro ⟨⟩
    rename_i middle first later
    exact ⟨middle, first, later⟩
  · rintro ⟨middle, first, later⟩
    exact .next first later

theorem mem_step_iff {here : List Path} {step : Step} :
    target ∈ graph.step here step ↔ ∃ start ∈ here, graph.StepLeads step start target := by
  have stays {holds : Path → Prop} :
      (∃ start ∈ here, target = start ∧ holds start) ↔ target ∈ here ∧ holds target := by
    constructor
    · rintro ⟨start, member, rfl, held⟩
      exact ⟨member, held⟩
    · rintro ⟨member, held⟩
      exact ⟨target, member, rfl, held⟩
  rcases step with ⟨mode, hop | test⟩
  · cases mode with
    | path => simp [Graph.step, StepLeads]
    | filter => simp [Graph.step, StepLeads, stays]
  · cases mode <;> simp [Graph.step, StepLeads, stays]

theorem mem_stepAll?_iff {here : List Path} :
    target ∈ (graph.stepAll? here steps).getD [] ↔
      ∃ start ∈ here, graph.StepsLead steps start target := by
  induction steps generalizing here with
  | nil => simp [stepAll?, stepsLead_nil_iff]
  | cons step rest ih =>
    cases here with
    | nil => simp [stepAll?]
    | cons first others =>
      simp only [stepAll?, ih, mem_step_iff, stepsLead_cons_iff]
      constructor
      · rintro ⟨middle, ⟨start, member, leads⟩, later⟩
        exact ⟨start, member, middle, leads, later⟩
      · rintro ⟨start, member, middle, leads, later⟩
        exact ⟨middle, ⟨start, member, leads⟩, later⟩

theorem stepsLead_append_iff :
    graph.StepsLead (steps ++ rest) start target ↔
      ∃ middle, graph.StepsLead steps start middle ∧ graph.StepsLead rest middle target := by
  induction steps generalizing start with
  | nil => simp [stepsLead_nil_iff]
  | cons step steps ih =>
    simp only [List.cons_append, stepsLead_cons_iff, ih]
    constructor
    · rintro ⟨passed, first, middle, along, later⟩
      exact ⟨middle, ⟨passed, first, along⟩, later⟩
    · rintro ⟨middle, ⟨passed, first, along⟩, later⟩
      exact ⟨passed, first, middle, along, later⟩

theorem leads_line_iff : graph.Leads (.mk steps []) start target ↔
    graph.StepsLead steps start target := by
  constructor
  · rintro (along | ⟨-, ⟨⟩, -⟩)
    exact along
  · exact .line

theorem leads_branches_iff {branches : List Query} (some : branches ≠ []) :
    graph.Leads (.mk steps branches) start target ↔
      ∃ middle, graph.StepsLead steps start middle ∧
        ∃ branch ∈ branches, graph.Leads branch middle target := by
  constructor
  · rintro (along | ⟨along, member, further⟩)
    · exact absurd rfl some
    · exact ⟨_, along, _, member, further⟩
  · rintro ⟨middle, along, branch, member, further⟩
    exact .branch along member further

mutual

/-- A query reaches just where it leads from where it starts. -/
theorem mem_walk_iff : (query : Query) → (here : List Path) →
    (target ∈ graph.walk here query ↔ ∃ start ∈ here, graph.Leads query start target)
  | .mk steps [], here => by simp only [walk, mem_stepAll?_iff, leads_line_iff]
  | .mk steps (branch :: rest), here => by
    have reached (middle : Path) := @mem_stepAll?_iff graph middle steps here
    rw [walk]
    cases led : graph.stepAll? here steps with
    | none =>
      simp only [led, Option.getD_none, List.not_mem_nil, false_iff] at reached ⊢
      rintro ⟨start, started, leads⟩
      obtain ⟨middle, along, -⟩ := (leads_branches_iff (List.cons_ne_nil _ _)).mp leads
      exact reached middle ⟨start, started, along⟩
    | some there =>
      simp only [led, Option.getD_some] at reached
      rw [List.mem_append, mem_walk_iff branch, mem_walkEach_iff rest]
      constructor
      · rintro (⟨middle, here, further⟩ | ⟨middle, here, other, member, further⟩)
        · obtain ⟨start, started, along⟩ := (reached middle).mp here
          exact ⟨start, started, .branch along List.mem_cons_self further⟩
        · obtain ⟨start, started, along⟩ := (reached middle).mp here
          exact ⟨start, started, .branch along (List.mem_cons_of_mem _ member) further⟩
      · rintro ⟨start, started, leads⟩
        obtain ⟨middle, along, other, member, further⟩ :=
          (leads_branches_iff (List.cons_ne_nil _ _)).mp leads
        have here := (reached middle).mpr ⟨start, started, along⟩
        rcases List.mem_cons.mp member with rfl | later
        · exact .inl ⟨middle, here, further⟩
        · exact .inr ⟨middle, here, other, later, further⟩

theorem mem_walkEach_iff : (branches : List Query) → (here : List Path) →
    (target ∈ graph.walkEach here branches ↔
      ∃ start ∈ here, ∃ branch ∈ branches, graph.Leads branch start target)
  | [], here => by simp [walkEach]
  | branch :: rest, here => by
    rw [walkEach, List.mem_append, mem_walk_iff branch, mem_walkEach_iff rest]
    constructor
    · rintro (⟨start, started, leads⟩ | ⟨start, started, other, member, leads⟩)
      · exact ⟨start, started, branch, List.mem_cons_self, leads⟩
      · exact ⟨start, started, other, List.mem_cons_of_mem _ member, leads⟩
    · rintro ⟨start, started, other, member, leads⟩
      rcases List.mem_cons.mp member with rfl | later
      · exact .inl ⟨start, started, leads⟩
      · exact .inr ⟨start, started, other, later, leads⟩

end

theorem mem_evaluate_iff {path : Path} :
    path ∈ graph.evaluate query ↔ ∃ start, graph.entities.contains start ∧
      graph.Leads query start path := by
  simp only [evaluate, mem_ascending, mem_walk_iff, Table.mem_keys_iff]

theorem leads_append_iff {branches : List Query} :
    graph.Leads (.mk (steps ++ rest) branches) start target ↔
      ∃ middle, graph.StepsLead steps start middle ∧
        graph.Leads (.mk rest branches) middle target := by
  constructor
  · rintro (along | ⟨along, member, further⟩)
    · obtain ⟨middle, first, later⟩ := stepsLead_append_iff.mp along
      exact ⟨middle, first, .line later⟩
    · obtain ⟨middle, first, later⟩ := stepsLead_append_iff.mp along
      exact ⟨middle, first, .branch later member further⟩
  · rintro ⟨middle, first, later | ⟨later, member, further⟩⟩
    · exact .line (stepsLead_append_iff.mpr ⟨middle, first, later⟩)
    · exact .branch (stepsLead_append_iff.mpr ⟨middle, first, later⟩) member further

mutual

/-- A query that follows another leads on from wherever the first has led. -/
theorem leads_followedBy_iff : (query : Query) → (start : Path) →
    (graph.Leads (query.followedBy next) start target ↔
      ∃ middle, graph.Leads query start middle ∧ graph.Leads next middle target)
  | .mk steps [], start => by
    cases next with
    | mk more branches =>
      simp only [Query.followedBy, Query.steps, Query.branches, leads_append_iff, leads_line_iff]
  | .mk steps (branch :: rest), start => by
    have each (middle : Path) := leads_eachFollowedBy_iff (branch :: rest) middle
    simp only [Query.eachFollowedBy] at each
    rw [Query.followedBy, leads_branches_iff (List.cons_ne_nil _ _)]
    simp only [each, leads_branches_iff (List.cons_ne_nil branch rest)]
    constructor
    · rintro ⟨middle, along, other, member, last, further, leads⟩
      exact ⟨last, ⟨middle, along, other, member, further⟩, leads⟩
    · rintro ⟨last, ⟨middle, along, other, member, further⟩, leads⟩
      exact ⟨middle, along, other, member, last, further, leads⟩

theorem leads_eachFollowedBy_iff : (branches : List Query) → (start : Path) →
    ((∃ branch ∈ Query.eachFollowedBy branches next, graph.Leads branch start target) ↔
      ∃ branch ∈ branches, ∃ middle, graph.Leads branch start middle ∧
        graph.Leads next middle target)
  | [], start => by simp [Query.eachFollowedBy]
  | branch :: rest, start => by
    have first := leads_followedBy_iff branch start
    have later := leads_eachFollowedBy_iff rest start
    simp only [Query.eachFollowedBy, List.mem_cons, exists_eq_or_imp, first, later]

end

/-- When a filter holds where one stands. -/
def Holds (graph : Graph) (path : Path) : Filter → Prop
  | .related hop => graph.matching path hop ≠ []
  | .passes test => graph.passes path test

theorem stepLeads_filter_iff {filter : Filter} :
    graph.StepLeads ⟨.filter, filter⟩ start target ↔ target = start ∧ graph.Holds start filter := by
  cases filter <;> rfl

theorem stepsLead_filter_iff {filters : List Filter} :
    graph.StepsLead (filters.map (⟨.filter, ·⟩)) start target ↔
      target = start ∧ ∀ filter ∈ filters, graph.Holds start filter := by
  induction filters generalizing start with
  | nil => simp [stepsLead_nil_iff]
  | cons filter rest ih =>
    simp only [List.map_cons, List.forall_mem_cons, stepsLead_cons_iff, stepLeads_filter_iff, ih]
    constructor
    · rintro ⟨_, ⟨rfl, holds⟩, rfl, others⟩
      exact ⟨rfl, holds, others⟩
    · rintro ⟨rfl, holds, others⟩
      exact ⟨target, ⟨rfl, holds⟩, rfl, others⟩

theorem leads_filters_iff {filters : List Filter} :
    graph.Leads (.line .filter filters) start target ↔
      target = start ∧ ∀ filter ∈ filters, graph.Holds start filter := by
  rw [Query.line, leads_line_iff, stepsLead_filter_iff]

@[simp]
theorem leads_empty_iff : graph.Leads .empty start target ↔ target = start := by
  rw [Query.empty, leads_line_iff, stepsLead_nil_iff]

/-- Of several groups of conditions one must hold; without any there is nothing to hold. -/
theorem leads_alternatives_iff {groups : List (List Filter)} :
    graph.Leads (Query.Builder.alternatives .filter groups) start target ↔
      target = start ∧ (groups ≠ [] →
        ∃ group ∈ groups, ∀ filter ∈ group, graph.Holds start filter) := by
  match groups with
  | [] => simp [Query.Builder.alternatives]
  | [only] => simp [Query.Builder.alternatives, leads_filters_iff]
  | first :: second :: rest =>
    show graph.Leads (.mk [] ((first :: second :: rest).map (.line .filter))) start target ↔ _
    rw [leads_branches_iff (by simp)]
    constructor
    · rintro ⟨middle, along, branch, member, leads⟩
      obtain rfl := stepsLead_nil_iff.mp along
      obtain ⟨group, chosen, rfl⟩ := List.mem_map.mp member
      obtain ⟨rfl, holds⟩ := leads_filters_iff.mp leads
      exact ⟨rfl, fun _ => ⟨group, chosen, holds⟩⟩
    · rintro ⟨rfl, some⟩
      obtain ⟨group, chosen, holds⟩ := some (List.cons_ne_nil _ _)
      exact ⟨target, .here target, _, List.mem_map_of_mem chosen,
        leads_filters_iff.mpr ⟨rfl, holds⟩⟩

end Graph

end Estate
