import Estate.Proofs.View.Discipline
import Mathlib.Data.List.Nodup
import Mathlib.Data.List.Perm.Subperm

/-!
Pages of listings. A view of several entities cuts its page out of everything it reaches, and only
then leaves out what the result filter hides. So its total is short of what is hidden on that page,
and of nothing that is hidden elsewhere.
-/
namespace Estate

namespace Pager

variable {α β : Type} (pager : Pager) (items : List α)

theorem items_sublist : (pager.apply items).items.Sublist items := by
  unfold apply
  split
  · exact (List.take_sublist _ _).trans (List.drop_sublist _ _)
  · exact .refl items

theorem total_apply : (pager.apply items).total = items.length := by
  unfold apply
  split <;> rfl

theorem apply_map (f : α → β) : pager.apply (items.map f) = (pager.apply items).map f := by
  unfold apply Page.map
  split <;> simp

end Pager

def Graph.reachedBy (graph : Graph) (query : Query) : List Entity :=
  (graph.evaluate query).filterMap graph.entities.find?

theorem Graph.WellFormed.paths_reachedBy {graph : Graph} (wellFormed : graph.WellFormed)
    (query : Query) :
    (graph.reachedBy query).map (·.path) = graph.evaluate query := by
  have stored : ∀ path ∈ graph.evaluate query, ∃ entity, graph.entities.find? path = some entity :=
    fun path reached => (Table.contains_iff _ _).mp (contains_of_mem_evaluate reached)
  unfold reachedBy
  generalize graph.evaluate query = paths at stored
  induction paths with
  | nil => rfl
  | cons path rest ih =>
    obtain ⟨⟨entity, found⟩, others⟩ := List.forall_mem_cons.mp stored
    rw [List.filterMap_cons, found, List.map_cons, wellFormed.entity found, ih others]

theorem Graph.WellFormed.find?_of_mem_reachedBy {graph : Graph} (wellFormed : graph.WellFormed)
    {query : Query} {entity : Entity} (member : entity ∈ graph.reachedBy query) :
    graph.entities.find? entity.path = some entity := by
  obtain ⟨path, -, found⟩ := List.mem_filterMap.mp member
  rw [wellFormed.entity found, found]

namespace Multiple

open Script (AnyView)

variable {settings : Settings} {multiple : Multiple} {tx : Transaction}

theorem load_eq (obtained : AnyView.Obtained (.multiple multiple))
    (wellFormed : tx.working.WellFormed) {entities : List Entity}
    (reached : ∀ entity ∈ entities, entity ∈ tx.working.reachedBy multiple.position.query) :
    Multiple.load settings multiple.kind tx (entities.map fun entity => .entity entity.path) =
      .ok (entities.filter fun entity => settings.isVisible (.entity entity)) := by
  induction entities with
  | nil => rfl
  | cons entity rest ih =>
    have member := reached entity List.mem_cons_self
    have evaluated : entity.path ∈ tx.working.evaluate multiple.position.query := by
      rw [← wellFormed.paths_reachedBy]
      exact List.mem_map_of_mem member
    obtain ⟨found, loaded, narrowed⟩ := obtained.load wellFormed evaluated
    change Reading.narrow multiple.kind found = .ok found at narrowed
    have stored := Transaction.convertEntity_eq_ok_iff.mp loaded
    obtain rfl := Option.some.inj (stored.symm.trans (wellFormed.find?_of_mem_reachedBy member))
    have loads := ih fun other later => reached other (List.mem_cons_of_mem _ later)
    by_cases visible : settings.isVisible (.entity found)
    · simp [load, loaded, visible, narrowed, loads, bind, Except.bind, pure, Except.pure]
    · simp [load, loaded, visible, loads, bind, Except.bind]

/-- A view of several entities shows what is visible on the page, and subtracts from its total what
is not. -/
theorem entities_eq (obtained : AnyView.Obtained (.multiple multiple))
    (wellFormed : tx.working.WellFormed) (pager : Pager) :
    let found := tx.working.reachedBy multiple.position.query
    let visible (entity : Entity) : Bool := settings.isVisible (.entity entity)
    let page := (pager.apply found).items
    multiple.entities settings pager tx =
      .ok { items := page.filter visible
            total := found.length - page.countP fun entity => !visible entity } := by
  intro found visible page
  have cut : tx.query multiple.position.query pager =
      ⟨page.map fun entity => .entity entity.path, found.length⟩ := by
    rw [Transaction.query, ← wellFormed.paths_reachedBy, Pager.apply_map]
    simp only [Page.map, List.map_map, Pager.total_apply]
    rfl
  have shown :=
    @load_eq settings multiple tx obtained wellFormed page (pager.items_sublist found).subset
  have hidden :
      page.length - (page.filter visible).length = page.countP fun entity => !visible entity := by
    have both := page.length_eq_countP_add_countP visible
    rw [← List.countP_eq_length_filter]
    simp only [Bool.not_eq_true, Bool.decide_eq_false] at both
    omega
  simp only [entities, cut, List.length_map, ← hidden]
  exact bind_eq_ok_iff.mpr ⟨_, shown, rfl⟩

end Multiple

/-- Of a list without repetitions, a part has as many of a sort as the whole when it has all of that
sort. -/
theorem countP_eq_of_sublist_iff {α : Type} (sort : α → Bool) {part whole : List α}
    (within : part.Sublist whole) (once : whole.Nodup) :
    part.countP sort = whole.countP sort ↔ ∀ item ∈ whole, sort item → item ∈ part := by
  rw [List.countP_eq_length_filter, List.countP_eq_length_filter]
  constructor
  · intro same item member sorted
    have all := (within.filter sort).eq_of_length same
    have kept : item ∈ whole.filter sort := List.mem_filter.mpr ⟨member, sorted⟩
    rw [← all] at kept
    exact (List.mem_filter.mp kept).1
  · intro all
    refine Nat.le_antisymm (within.filter sort).length_le
      (List.subperm_of_subset (once.filter sort) ?_).length_le
    intro item member
    obtain ⟨member, sorted⟩ := List.mem_filter.mp member
    exact List.mem_filter.mpr ⟨all item member sorted, sorted⟩

namespace Office

open Script (AnyView)

/-- Whatever is committed, a view of several entities shows those of its page that are visible, out
of a total that counts everything it reaches except for what is hidden on that very page. So the
total is the number of visible entities just when nothing is hidden on other pages, and else it is
too high. -/
theorem totals_count_what_is_hidden_elsewhere (settings : Settings) (ids : IdSource)
    (steps : List Step) (distinct : ((start settings ids).related steps).Nodup)
    {multiple : Multiple} (obtained : AnyView.Obtained (.multiple multiple)) (pager : Pager) :
    let inventory := ((start settings ids).run steps).inventory
    let found := inventory.store.committed.reachedBy multiple.position.query
    let visible (entity : Entity) : Bool := inventory.settings.isVisible (.entity entity)
    let listed := (pager.apply found).items
    found.map (·.path) = inventory.store.committed.evaluate multiple.position.query ∧
      ∃ page, (inventory.carryOut (.inquiry (.entities multiple pager))).1 =
        .replied (.ok (.entities page)) ∧
        page.items = listed.filter visible ∧
        page.total + listed.countP (fun entity => !visible entity) = found.length ∧
        found.countP visible ≤ page.total ∧
        (page.total = found.countP visible ↔ ∀ entity ∈ found, visible entity = false →
          entity ∈ listed) := by
  intro inventory found visible listed
  obtain ⟨registry, kept⟩ := (kept_start settings ids).run steps distinct fun id new => rfl
  have wellFormed : inventory.store.committed.WellFormed := kept.consistent.committed.toWellFormed
  have paths := wellFormed.paths_reachedBy multiple.position.query
  have once : found.Nodup := by
    refine List.Nodup.of_map (·.path) (paths ▸ ?_)
    exact (Graph.evaluate_pairwise _ _).imp fun before same => by simp [same] at before
  have answered :=
    @Multiple.entities_eq inventory.settings multiple (inventory.store.begin .readOnly).1 obtained
    wellFormed pager
  have within := pager.items_sublist found
  have parts :
      found.length = found.countP visible + found.countP fun entity => !visible entity := by
    simpa using found.length_eq_countP_add_countP visible
  have less :
      listed.countP (fun entity => !visible entity) ≤ found.countP fun entity => !visible entity :=
    within.countP_le
  have counted : listed.countP (fun entity => !visible entity) =
      found.countP (fun entity => !visible entity) ↔
      ∀ entity ∈ found, visible entity = false → entity ∈ listed := by
    simpa only [Bool.not_eq_true'] using
      countP_eq_of_sublist_iff (fun entity => !visible entity) within once
  refine ⟨paths, ⟨listed.filter visible,
    found.length - listed.countP fun entity => !visible entity⟩, ?_, rfl, ?_, ?_, ?_⟩
  · rw [Inventory.carryOut_inquiry, Inquiry.answer, answered]
    rfl
  · show found.length - listed.countP _ + listed.countP _ = found.length
    omega
  · show found.countP visible ≤ found.length - listed.countP _
    omega
  · rw [← counted]
    show found.length - listed.countP _ = found.countP visible ↔ _
    omega

def veiling (id : String) : Settings := { resultFilter := some fun element => element.id != id }

def neighbours : List Step :=
  let first : Step :=
    .begin ⟨.create tenants { id := some "attic", details := .tenant }, .tenants, rfl, rfl⟩
  let second : Step :=
    .begin ⟨.create tenants { id := some "bridge", details := .tenant }, .tenants, rfl, rfl⟩
  [first, .draft 1, .settle 1, second, .draft 2, .settle 2]

/-- With the first of two tenants hidden, the second page of one each shows the second, out of a
total of two. -/
theorem neighbours_page :
    let inventory := ((start (veiling "attic") .counter).run neighbours).inventory
    ((start (veiling "attic") .counter).related neighbours).Nodup ∧
      ∃ page, (inventory.carryOut (.inquiry (.entities tenants.all ⟨1, some 1⟩))).1 =
        .replied (.ok (.entities page)) ∧
        page.items.map (·.id) = ["bridge"] ∧ page.total = 2 := by
  intro inventory
  have distinct : ((start (veiling "attic") .counter).related neighbours).Nodup := by decide +kernel
  obtain ⟨-, page, answered, items, total, -, -⟩ :=
    totals_count_what_is_hidden_elsewhere (veiling "attic") .counter neighbours distinct
      (@AnyView.Obtained.move _ (.multiple tenants.all) .all .tenants rfl) ⟨1, some 1⟩
  refine ⟨distinct, page, answered, ?_, ?_⟩
  · rw [items]
    decide +kernel
  · have found : (inventory.store.committed.reachedBy tenants.all.position.query).length = 2 := by
      decide +kernel
    have hidden : ((Pager.apply ⟨1, some 1⟩
        (inventory.store.committed.reachedBy tenants.all.position.query)).items.countP
        fun entity => !inventory.settings.isVisible (.entity entity)) = 0 := by decide +kernel
    rw [← found, ← total]
    exact (congrArg (page.total + ·) hidden).symm

/-- So totals do not always count what is visible. -/
theorem totals_exceed_what_is_visible :
    ¬∀ (settings : Settings) (ids : IdSource) (steps : List Step),
      ((start settings ids).related steps).Nodup →
      ∀ multiple : Multiple, AnyView.Obtained (.multiple multiple) →
        ∀ (pager : Pager) (page : Page Entity),
        let inventory := ((start settings ids).run steps).inventory
        (inventory.carryOut (.inquiry (.entities multiple pager))).1 =
          .replied (.ok (.entities page)) →
        page.total = (inventory.store.committed.reachedBy multiple.position.query).countP
          fun entity => inventory.settings.isVisible (.entity entity) := by
  intro counts
  let inventory := ((start (veiling "attic") .counter).run neighbours).inventory
  have distinct : ((start (veiling "attic") .counter).related neighbours).Nodup := by decide +kernel
  have obtained : AnyView.Obtained (.multiple tenants.all) :=
    @AnyView.Obtained.move _ _ .all .tenants rfl
  obtain ⟨registry, kept⟩ :=
    (kept_start (veiling "attic") .counter).run neighbours distinct fun id new => rfl
  have read :=
    @Multiple.entities_eq inventory.settings tenants.all
      (inventory.store.begin .readOnly).1 obtained
    kept.consistent.committed.toWellFormed ⟨1, some 1⟩
  have total := counts _ _ neighbours distinct _ obtained ⟨1, some 1⟩ _ (by
    rw [Inventory.carryOut_inquiry, Inquiry.answer, read]
    rfl)
  exact absurd total (by decide +kernel)

end Office

end Estate
