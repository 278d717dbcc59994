import Estate.Proofs.Store.Queries
import Estate.Proofs.View.Creation

namespace Estate

namespace Graph

variable {graph : Graph} {path : Path} {groups : List (List Filter)}

/-- The graphs that come about: committed or worked on, whatever is asked of a store, or committed
by the mutations of an inventory; as long as no id is given to two relationships. -/
inductive Arises : Graph → Prop where
  | store {graph : Graph} (ids : IdSource) (calls : List Call)
      (distinct : ((Traffic.start ids).related calls).Nodup)
      (offered : ((Traffic.start ids).run calls).Offers graph) : Arises graph
  | inventory (settings : Settings) (ids : IdSource) (events : List Office.Event)
      (distinct : ((Office.start settings ids).trace Office.drawn events).Nodup) :
      Arises ((Office.start settings ids).undergoAll events).inventory.store.committed

theorem Arises.wellFormed (arises : graph.Arises) : graph.WellFormed := by
  cases arises with
  | store ids calls distinct offered =>
    obtain ⟨registry, -, consistent, -⟩ :=
      (Traffic.consistent_start ids).run (Traffic.faithful_run ids []) calls distinct
        fun id new => rfl
    exact consistent.wellFormed offered
  | inventory settings ids events distinct =>
    obtain ⟨registry, kept, -⟩ :=
      (Office.kept_start settings ids).undergoAll events distinct fun id new => rfl
    exact kept.consistent.committed.toWellFormed

/-- When an entity satisfies a filter: it has a relationship that the filter speaks of, to whatever
other end, or it has the property. -/
def Satisfies (graph : Graph) (path : Path) : Filter → Prop
  | .related hop => ∃ other, graph.Spans hop path other
  | .passes test => graph.Has path test

theorem WellFormed.holds_iff (wellFormed : graph.WellFormed) {filter : Filter} :
    graph.Holds path filter ↔ graph.Satisfies path filter := by
  cases filter with
  | related hop => exact wellFormed.matching_ne_nil_iff
  | passes test => exact passes_iff

/-- On every graph that comes about, a listing at any position selects, by one or more groups of
filters, just those of its entities that satisfy all filters of some group; in ascending order, and
each once. -/
theorem getAll_reaches_any_group (arises : graph.Arises) (listing : Listing) (given : groups ≠ []) :
    let whole := graph.evaluate listing.all.position.query
    let chosen := graph.evaluate (listing.getAll groups).position.query
    (∀ path, path ∈ chosen ↔
      path ∈ whole ∧ ∃ group ∈ groups, ∀ filter ∈ group, graph.Satisfies path filter) ∧
      chosen.Pairwise fun a b => compare a b = .lt := by
  intro whole chosen
  refine ⟨fun path => ?_, evaluate_pairwise _ _⟩
  simp only [chosen, whole, mem_evaluate_iff, Listing.getAll, Listing.all,
    Position.leads_whereAny_iff]
  constructor
  · rintro ⟨start, stored, leads, chosen⟩
    obtain ⟨group, member, holds⟩ := chosen given
    exact ⟨⟨start, stored, leads⟩, group, member, fun filter among => arises.wellFormed.holds_iff.mp
      (holds filter among)⟩
  · rintro ⟨⟨start, stored, leads⟩, group, member, satisfied⟩
    exact ⟨start, stored, leads, fun _ =>
      ⟨group, member, fun filter among => arises.wellFormed.holds_iff.mpr (satisfied filter among)⟩⟩

def environmentsOfSome : Listing :=
  { kind := .environment
    position :=
      (tenants.getAll [[.contains], [.id "mill"], [.id "inn"]]).position.proceedTo .contains
        .environment
    scope := .browse }

/-- Of the environments, the one that contains nothing is still chosen for another group, which is
given twice. -/
theorem yard_satisfies :
    let graph := ((Office.start {} .counter).undergoAll Office.household).inventory.store.committed
    let groups : List (List Filter) :=
      [[.contains], [.containedIn, .id "yard"], [.containedIn, .id "yard"]]
    graph.Arises ∧
      ∃ path ∈ graph.evaluate environmentsOfSome.all.position.query, path.text = "/t;mill/e;yard" ∧
      (∃ group ∈ groups, ∀ filter ∈ group, graph.Satisfies path filter) ∧
      ¬∃ group ∈ [[Filter.contains]], ∀ filter ∈ group, graph.Satisfies path filter := by
  intro graph groups
  have facts : ((Office.start {} .counter).trace Office.drawn Office.household).Nodup ∧
      (graph.evaluate (environmentsOfSome.getAll groups).position.query).map (·.text) =
        ["/t;mill/e;yard"] ∧
      graph.evaluate (environmentsOfSome.getAll [[.contains]]).position.query = [] := by
    decide +kernel
  obtain ⟨distinct, chosen, none⟩ := facts
  have arises : graph.Arises := .inventory {} .counter Office.household distinct
  obtain ⟨path, reached, text⟩ :=
    List.mem_map.mp (chosen ▸ List.mem_singleton_self "/t;mill/e;yard")
  obtain ⟨among, satisfied⟩ :=
    ((getAll_reaches_any_group arises environmentsOfSome (List.cons_ne_nil _ _)).1 path).mp reached
  have apart :=
    (getAll_reaches_any_group arises environmentsOfSome (List.cons_ne_nil [Filter.contains] [])).1
      path
  refine ⟨arises, path, among, text, satisfied, fun contains => ?_⟩
  have absurd := apart.mpr ⟨among, contains⟩
  simp [none] at absurd

end Graph

end Estate
