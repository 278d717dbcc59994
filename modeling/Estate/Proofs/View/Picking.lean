import Estate.Proofs.View.Descent
import Estate.Proofs.View.Kinds
import Mathlib.Data.List.Induction

namespace Estate

open Script (AnyView)

variable {graph : Graph} {single : Single} {segments : List Segment} {facet : Facet}
  {listing : Listing} {path : Path}

/-- From everything there may be below an entity there is a way on by containment. -/
theorem Facet.exists_contains {above kind : Kind} (fits : above ∈ kind.parents) :
    ∃ facet, Facet.from? above facet = some (.contains, kind) := by
  cases kind with
  | tenant => cases fits
  | environment =>
    obtain rfl : above = .tenant := by simpa [Kind.parents] using fits
    exact ⟨.environments, rfl⟩
  | resourceType =>
    obtain rfl : above = .tenant := by simpa [Kind.parents] using fits
    exact ⟨.resourceTypes, rfl⟩
  | metricType =>
    obtain rfl : above = .tenant := by simpa [Kind.parents] using fits
    exact ⟨.metricTypes, rfl⟩
  | feed =>
    obtain rfl : above = .environment := by simpa [Kind.parents] using fits
    exact ⟨.feeds, rfl⟩
  | resource =>
    obtain rfl | rfl : above = .environment ∨ above = .feed := by simpa [Kind.parents] using fits
    · exact ⟨.feedlessResources, rfl⟩
    · exact ⟨.resources, rfl⟩
  | metric =>
    obtain rfl | rfl : above = .environment ∨ above = .feed := by simpa [Kind.parents] using fits
    · exact ⟨.feedlessMetrics, rfl⟩
    · exact ⟨.metrics, rfl⟩

namespace Single

/-- A view that picks the ids of some segments on its way down by containment. -/
inductive Picks : Single → List Segment → Prop where
  | tenant (id : String) : Picks (tenants.get id) [⟨.tenant, id⟩]
  | next {single : Single} {segments : List Segment} {facet : Facet} {listing : Listing}
      (above : Picks single segments)
      (followed : single.follow? facet = some listing) (contained : listing.scope = .manage)
      (id : String) :
      Picks (listing.get id) (segments ++ [⟨listing.kind, id⟩])

theorem leading_of_follow? (followed : single.follow? facet = some listing)
    (contained : listing.scope = .manage) :
    listing.position = single.position.proceedTo .contains listing.kind := by
  obtain ⟨⟨name, kind⟩, -, rfl⟩ := Option.map_eq_some_iff.mp followed
  cases name with
  | contains => rfl
  | owns | defines => cases contained

namespace Picks

theorem obtained (picks : single.Picks segments) : AnyView.Obtained (.single single) := by
  induction picks with
  | tenant id => exact @AnyView.Obtained.move (.listing tenants) _ (.get id) .tenants rfl
  | @next single segments facet listing above followed contained id ih =>
    have way : (AnyView.single single).move? (.follow facet) = some (.listing listing) := by
      simp [AnyView.move?, followed]
    exact @AnyView.Obtained.move (.listing listing) _ (.get id) (.move ih way) rfl

theorem ne_nil (picks : single.Picks segments) : segments ≠ [] := by
  cases picks <;> simp

/-- The view is of the kind of what it has picked last. -/
theorem kind_eq (picks : single.Picks segments) (spelled : path.segments = segments) :
    single.kind = path.kind := by
  have last : path.segments.getLast path.ne_nil = path.last := rfl
  cases picks with
  | tenant id =>
    simp only [spelled, List.getLast_singleton] at last
    exact congrArg Segment.kind last
  | next above followed contained id =>
    simp only [spelled, List.getLast_append_singleton] at last
    exact congrArg Segment.kind last

theorem resolves (picks : single.Picks segments) (mirrored : graph.Mirrored none)
    (wellFormed : graph.WellFormed) :
    graph.Resolves single.position (segments.map Level.only) := by
  induction picks with
  | tenant id => exact graph.resolves_tenants (some id)
  | @next single segments facet listing above followed contained id ih =>
    rw [List.map_append]
    have leading := leading_of_follow? followed contained
    exact @Graph.Resolves.next _ _ (some id) _ _ ih (by simpa using above.ne_nil) mirrored
      wellFormed leading

theorem mem_evaluate_iff (picks : single.Picks segments) (mirrored : graph.Mirrored none)
    (wellFormed : graph.WellFormed) :
    path ∈ graph.evaluate single.position.query ↔ graph.entities.contains path ∧
      path.segments = segments := by
  rw [picks.resolves mirrored wellFormed, Path.through_only_iff]

/-- The view reaches first what is stored at the path of these segments. -/
theorem first_iff (picks : single.Picks segments) (mirrored : graph.Mirrored none)
    (wellFormed : graph.WellFormed) :
    (graph.evaluate single.position.query).head? = some path ↔
      graph.entities.contains path ∧ path.segments = segments := by
  rw [← picks.mem_evaluate_iff mirrored wellFormed]
  refine ⟨List.mem_of_head?, fun member => ?_⟩
  have reached :=
    @Graph.eq_singleton_of_pairwise _ path (graph.evaluate_pairwise _) member fun other among => by
    rw [picks.mem_evaluate_iff mirrored wellFormed] at member among
    exact Path.eq_of_segments (among.2.trans member.2.symm)
  rw [reached]
  rfl

/-- For every path there is a view that picks its ids. -/
theorem exists_of_path (path : Path) : ∃ single : Single, single.Picks path.segments := by
  generalize same : path.segments = segments
  induction segments using List.reverseRecOn generalizing path with
  | nil => exact absurd same path.ne_nil
  | append_singleton above last ih =>
    by_cases top : above = []
    · subst top
      have tenant : last.kind = .tenant := by
        have rooted := path.legal.rooted
        simpa [same] using rooted
      refine ⟨tenants.get last.id, ?_⟩
      rw [show last = ⟨.tenant, last.id⟩ from tenant ▸ rfl]
      exact .tenant last.id
    · obtain ⟨parent, rfl⟩ := Path.exists_of_append same top
      obtain ⟨single, picks⟩ := ih parent rfl
      have nested := path.legal.nested
      rw [same] at nested
      have fits := Path.fits_of_nested nested (List.getLast?_eq_some_getLast parent.ne_nil)
      obtain ⟨facet, way⟩ := Facet.exists_contains fits
      let listing : Listing :=
        { kind := last.kind, position := single.position.proceedTo .contains last.kind,
          scope := .manage }
      have followed : single.follow? facet = some listing := by
        rw [follow?, picks.kind_eq rfl, Path.kind, Path.last, way]
        rfl
      exact ⟨listing.get last.id, .next picks followed rfl last.id⟩

end Picks

end Single

end Estate
