import Estate.Proofs.Graph.Reach
import Estate.View

namespace Estate.Position

open Estate.Graph (leads_followedBy_iff leads_empty_iff leads_line_iff leads_filters_iff
  leads_alternatives_iff
  stepsLead_cons_iff stepsLead_nil_iff)

variable {graph : Graph} {position : Position} {start target : Path}

theorem leads_tenants_iff :
    graph.Leads tenants.query start target ↔ target = start ∧ start.kind = .tenant := by
  simp only [query, tenants, Query.startPath, Query.Builder.all, Query.Builder.append,
    Query.Builder.build, Query.line, leads_followedBy_iff, leads_empty_iff, leads_line_iff,
    List.map_cons, List.map_nil, stepsLead_cons_iff, stepsLead_nil_iff]
  constructor
  · rintro ⟨_, rfl, _, rfl, _, rfl, _, ⟨rfl, kind⟩, rfl⟩
    exact ⟨rfl, by simpa [Graph.passes] using kind⟩
  · rintro ⟨rfl, kind⟩
    exact ⟨_, rfl, _, rfl, _, rfl, _, ⟨rfl, by simp [Graph.passes, kind]⟩, rfl⟩

theorem leads_whereAll_iff {filters : List Filter} :
    graph.Leads (position.refine [.whereAll filters]).query start target ↔
      graph.Leads position.query start target ∧ ∀ filter ∈ filters, graph.Holds target filter := by
  simp only [query, refine, Refinement.on, List.foldl_cons, List.foldl_nil, Query.Builder.filter,
    Query.extend, Query.Builder.all, Query.Builder.append, Query.Builder.build,
    leads_followedBy_iff, leads_empty_iff, leads_filters_iff]
  constructor
  · rintro ⟨middle, source, last, select, _, rfl, rfl, holds⟩
    exact ⟨⟨middle, source, select⟩, holds⟩
  · rintro ⟨⟨middle, source, select⟩, holds⟩
    exact ⟨middle, source, target, select, target, rfl, rfl, holds⟩

theorem leads_whereAny_iff {groups : List (List Filter)} :
    graph.Leads (position.refine [.whereAny groups]).query start target ↔
      graph.Leads position.query start target ∧
        (groups ≠ [] → ∃ group ∈ groups, ∀ filter ∈ group, graph.Holds target filter) := by
  simp only [query, refine, Refinement.on, List.foldl_cons, List.foldl_nil, Query.Builder.filter,
    Query.extend, Query.Builder.anyOf, Query.Builder.append, Query.Builder.build,
    leads_followedBy_iff, leads_empty_iff, leads_alternatives_iff]
  constructor
  · rintro ⟨middle, source, last, select, _, rfl, rfl, holds⟩
    exact ⟨⟨middle, source, select⟩, holds⟩
  · rintro ⟨⟨middle, source, select⟩, holds⟩
    exact ⟨middle, source, target, select, target, rfl, rfl, holds⟩

theorem leads_proceedTo_iff {name : Reserved} {kind : Kind} :
    graph.Leads (position.proceedTo name kind).query start target ↔
      ∃ middle, graph.Leads position.query start middle ∧
        target ∈ graph.landings middle { name := name.name, direction := .outgoing } ∧
        target.kind = kind := by
  simp only [query, proceedTo, Query.startPath, Query.Builder.all, Query.Builder.append,
    Query.Builder.build, Query.line, leads_followedBy_iff, leads_empty_iff, leads_line_iff,
    List.map_cons, List.map_nil, stepsLead_cons_iff, stepsLead_nil_iff]
  constructor
  · rintro ⟨middle, before, _, rfl, _, rfl, landed, lands, _, ⟨rfl, kind⟩, rfl⟩
    exact ⟨_, before, lands, by simpa [Graph.passes] using kind⟩
  · rintro ⟨middle, before, lands, kind⟩
    exact ⟨middle, before, _, rfl, _, rfl, _, lands, _, ⟨rfl, by simp [Graph.passes, kind]⟩, rfl⟩

end Estate.Position
