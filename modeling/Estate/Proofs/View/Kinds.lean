import Estate.Proofs.View.Mutations
import Estate.Proofs.View.Positions

namespace Estate

open Script (AnyView)

namespace Graph

variable {graph : Graph} {start target : Path}

theorem contains_of_stepLeads {step : Step} (leads : graph.StepLeads step start target)
    (stored : graph.entities.contains start) : graph.entities.contains target := by
  rcases step with ⟨mode, hop | test⟩
  · cases mode with
    | path =>
      obtain ⟨rel, -, lands⟩ :=
        List.mem_filterMap.mp (show target ∈ graph.landings start hop from leads)
      exact (Option.filter_eq_some_iff.mp lands).2
    | filter =>
      obtain ⟨rfl, -⟩ : target = start ∧ _ := leads
      exact stored
  · obtain ⟨rfl, -⟩ : target = start ∧ _ := by cases mode <;> exact leads
    exact stored

theorem contains_of_stepsLead {steps : List Step} (leads : graph.StepsLead steps start target)
    (stored : graph.entities.contains start) : graph.entities.contains target := by
  induction leads with
  | here path => exact stored
  | next first later ih => exact ih (contains_of_stepLeads first stored)

theorem contains_of_leads {query : Query} (leads : graph.Leads query start target)
    (stored : graph.entities.contains start) : graph.entities.contains target := by
  induction leads with
  | line along => exact contains_of_stepsLead along stored
  | branch along member further ih => exact ih (contains_of_stepsLead along stored)

/-- Queries reach only what is stored. -/
theorem contains_of_mem_evaluate {query : Query} {path : Path}
    (reached : path ∈ graph.evaluate query) :
    graph.entities.contains path := by
  obtain ⟨start, stored, leads⟩ := mem_evaluate_iff.mp reached
  exact contains_of_leads leads stored

end Graph

def Script.AnyView.kind : AnyView → Kind
  | listing view => view.kind
  | single view => view.kind
  | multiple view => view.kind

/-- The views that come about: by moves from the tenants, or from an entity of its kind that a
listing has created. -/
inductive Script.AnyView.Obtained : AnyView → Prop where
  | tenants : Obtained (.listing Estate.tenants)
  | created {listing : Listing} {path : Path} (obtained : Obtained (.listing listing))
      (kind : path.kind = listing.kind) :
      Obtained (.single (listing.created path))
  | move {view next : AnyView} {move : Script.Move} (obtained : Obtained view)
      (moved : view.move? move = some next) :
      Obtained next

theorem Script.AnyView.Obtained.reached {view : AnyView} (obtained : Obtained view) :
    Reached view := by
  induction obtained with
  | tenants => exact .tenants
  | created obtained kind ih => exact .created _ ih
  | move obtained moved ih => exact .move ih moved

theorem Position.leads_anchor_iff {graph : Graph} {path start target : Path} :
    graph.Leads (anchor path).query start target ↔ target = start ∧ start = path := by
  simp only [query, anchor, Query.startPath, Query.Builder.all, Query.Builder.append,
    Query.Builder.build, Query.line, Graph.leads_followedBy_iff, Graph.leads_empty_iff,
    Graph.leads_line_iff, List.map_cons, List.map_nil, Graph.stepsLead_cons_iff,
    Graph.stepsLead_nil_iff]
  constructor
  · rintro ⟨_, ⟨_, rfl, _, rfl, _, ⟨rfl, here⟩, rfl⟩, rfl⟩
    exact ⟨rfl, by simpa [Graph.passes] using here⟩
  · rintro ⟨rfl, rfl⟩
    exact ⟨_, ⟨_, rfl, _, rfl, _, ⟨rfl, by simp [Graph.passes]⟩, rfl⟩, rfl⟩

/-- A view leads only to entities of its kind. -/
theorem Script.AnyView.Obtained.kind_of_leads {view : AnyView} (obtained : Obtained view)
    {graph : Graph} {start target : Path} (leads : graph.Leads view.position.query start target) :
    target.kind = view.kind := by
  induction obtained with
  | tenants =>
    obtain ⟨rfl, kind⟩ := Position.leads_tenants_iff.mp leads
    exact kind
  | created obtained kind ih =>
    obtain ⟨rfl, rfl⟩ := Position.leads_anchor_iff.mp leads
    exact kind
  | move obtained moved ih =>
    cases AnyView.moves_of_move? moved with
    | get view id => exact ih (Position.leads_whereAll_iff.mp leads).1
    | getAll view groups => exact ih (Position.leads_whereAny_iff.mp leads).1
    | all view => exact ih leads
    | along way | across way =>
      obtain ⟨-, -, -, kind⟩ := Position.leads_proceedTo_iff.mp leads
      exact kind

end Estate
