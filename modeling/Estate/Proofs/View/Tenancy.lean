import Estate.Proofs.View.Hierarchy
import Estate.Proofs.View.Positions

namespace Estate

def Relationship.crosses (rel : Relationship) : Bool :=
  Reserved.isReserved rel.name && rel.source.tenantId != rel.target.tenantId

theorem Relationship.crosses_of_edge {rel other : Relationship} (same : rel.edge = other.edge) :
    rel.crosses = other.crosses := by
  simp only [edge, Edge.mk.injEq] at same
  simp [crosses, same]

theorem Relationship.crosses_eq_false {rel : Relationship}
    (within : rel.source.tenantId = rel.target.tenantId) :
    rel.crosses = false := by
  simp [crosses, within]

def Change.crosses : Change → Bool
  | .insertRelationship rel => rel.crosses
  | _ => false

namespace Graph

variable {registry : Registry} {graph next : Graph} {change : Change} {log : List Change}
  {writer : Nat} {start target : Path}

def Separate (graph : Graph) : Prop :=
  ∀ ⦃id rel⦄, graph.relationships.find? id = some rel → rel.crosses = false

theorem Separate.empty : empty.Separate := fun _ _ found => nomatch found

theorem Separate.after (separate : graph.Separate) (suits : graph.Suits change)
    (admitted : graph.Admits change) (within : change.crosses = false) :
    (graph.after change).Separate := by
  intro id rel found
  rcases edge_before suits admitted found with ⟨old, present, same⟩ | ⟨-, rfl⟩
  · rw [Relationship.crosses_of_edge same]
    exact separate present
  · exact within

theorem Separate.replay (separate : graph.Separate) (fits : registry.Fits writer log graph)
    (within : ∀ change ∈ log, change.crosses = false) (replayed : graph.replay log = .ok next) :
    next.Separate := by
  induction log generalizing graph with
  | nil =>
    obtain rfl := Except.ok.inj replayed
    exact separate
  | cons change log ih =>
    obtain ⟨admitted, replayed⟩ := replay_cons_eq_ok_iff.mp replayed
    have here := separate.after fits.suits admitted (within change List.mem_cons_self)
    exact ih here (fits.after admitted)
      (fun later member => within later (List.mem_cons_of_mem _ member)) replayed

/-- Where nothing crosses, a hop along a reserved name stays with the tenant. -/
theorem Separate.tenantId_landing (separate : graph.Separate) (wellFormed : graph.WellFormed)
    {name : Reserved}
    (lands : target ∈ graph.landings start { name := name.name, direction := .outgoing }) :
    target.tenantId = start.tenantId := by
  obtain ⟨rel, matched, lands⟩ := List.mem_filterMap.mp lands
  obtain ⟨found, leaves, named⟩ := wellFormed.mem_touching_iff.mp (List.mem_filter.mp matched).1
  have source : rel.source = start := by simpa [Relationship.touches] using leaves
  subst source
  have ends : rel.target = target := by
    simp only [Relationship.otherEnd?, ↓reduceIte, Option.filter_eq_some_iff, Option.some.injEq]
      at lands
    exact lands.1
  have within := separate found
  have reserved : Reserved.isReserved rel.name := by
    rw [named _ rfl]
    cases name <;> decide
  simp only [Relationship.crosses, reserved, Bool.true_and, bne_eq_false_iff_eq] at within
  rw [← ends, within]

/-- A query leads to entities of a tenant only, wherever it starts. -/
def Confines (graph : Graph) (tenant : String) (query : Query) : Prop :=
  ∀ ⦃start target⦄, graph.Leads query start target → target.tenantId = tenant

theorem confines_tenant (graph : Graph) (tenant : String) :
    graph.Confines tenant (tenants.get tenant).position.query := by
  intro start target leads
  obtain ⟨top, holds⟩ := Position.leads_whereAll_iff.mp leads
  obtain ⟨rfl, kind⟩ := Position.leads_tenants_iff.mp top
  have named : graph.Holds target (.id tenant) := holds _ List.mem_cons_self
  rw [Path.tenantId_tenant kind]
  simpa [Holds, Filter.id, passes] using named

variable {tenant : String} {position : Position}

theorem Confines.proceedTo (confined : graph.Confines tenant position.query)
    (separate : graph.Separate) (wellFormed : graph.WellFormed) (name : Reserved) (kind : Kind) :
    graph.Confines tenant (position.proceedTo name kind).query := by
  intro start target leads
  obtain ⟨middle, before, lands, -⟩ := Position.leads_proceedTo_iff.mp leads
  rw [separate.tenantId_landing wellFormed lands]
  exact confined before

theorem Confines.whereAll (confined : graph.Confines tenant position.query)
    (filters : List Filter) :
    graph.Confines tenant (position.refine [.whereAll filters]).query := by
  intro start target leads
  exact confined (Position.leads_whereAll_iff.mp leads).1

theorem Confines.whereAny (confined : graph.Confines tenant position.query)
    (groups : List (List Filter)) :
    graph.Confines tenant (position.refine [.whereAny groups]).query := by
  intro start target leads
  exact confined (Position.leads_whereAny_iff.mp leads).1

open Script (AnyView Move)

/-- No move leaves the tenant. -/
theorem Confines.move {view next : AnyView} {move : Move}
    (confined : graph.Confines tenant view.position.query) (separate : graph.Separate)
    (wellFormed : graph.WellFormed) (moved : view.move? move = some next) :
    graph.Confines tenant next.position.query := by
  cases AnyView.moves_of_move? moved with
  | get view id => exact confined.whereAll [.id id]
  | getAll view groups => exact confined.whereAny groups
  | all view => exact confined
  | @along view facet name kind way | @across view facet name kind way =>
    exact confined.proceedTo separate wellFormed name kind

theorem Confines.moves {view next : AnyView} {moves : List Move}
    (confined : graph.Confines tenant view.position.query) (separate : graph.Separate)
    (wellFormed : graph.WellFormed) (moved : moves.foldlM AnyView.move? view = some next) :
    graph.Confines tenant next.position.query := by
  induction moves generalizing view with
  | nil =>
    obtain rfl := Option.some.inj moved
    exact confined
  | cons move rest ih =>
    obtain ⟨middle, first, later⟩ := Option.bind_eq_some_iff.mp moved
    exact ih (confined.move separate wellFormed first) later

end Graph

/-- A new entity is tied to its parent and to its type within its tenant. -/
theorem Entity.wiring_within {entity : Entity} {blueprint : Blueprint} {edge : Edge}
    (made : ofBlueprint entity.path blueprint = .ok entity) (wired : edge ∈ entity.wiring) :
    edge.source.tenantId = edge.target.tenantId := by
  rcases List.mem_append.mp wired with contains | defines
  · obtain ⟨parent, up, rfl⟩ := Option.map_eq_some_iff.mp (Option.mem_toList.mp contains)
    exact Path.tenantId_up? up
  · obtain ⟨type, typed, rfl⟩ := Option.map_eq_some_iff.mp (Option.mem_toList.mp defines)
    exact tenantId_type made typed

def Mutation.links : Mutation → Bool
  | .link .. => true
  | _ => false

/-- Nothing but a link crosses. -/
theorem Deed.within {graph : Graph} {mutation : Mutation} {written : List Change}
    {notices : List Notice} (deed : Deed graph mutation written notices)
    (linked : mutation.links = true → ∀ change ∈ written, change.crosses = false) :
    ∀ change ∈ written, change.crosses = false := by
  cases deed with
  | @create _ _ entity rels made wired =>
    intro change member
    rcases List.mem_cons.mp member with rfl | member
    · rfl
    · obtain ⟨rel, related, rfl⟩ := List.mem_map.mp member
      have edge : rel.edge ∈ entity.wiring := by
        rw [← wired]
        exact List.mem_map_of_mem related
      exact Relationship.crosses_eq_false (Entity.wiring_within made edge)
  | delete stored bare detached =>
    intro change member
    rcases List.mem_append.mp member with removed | last
    · obtain ⟨rel, -, rfl⟩ := List.mem_map.mp removed
      rfl
    · obtain rfl := List.mem_singleton.mp last
      rfl
  | associate named within =>
    intro change member
    obtain rfl := List.mem_singleton.mp member
    exact Relationship.crosses_eq_false within
  | link apart => exact linked rfl
  | update stored revises | disassociate stored named | updateRelationship stored revises
  | deleteRelationship stored apart =>
    intro change member
    obtain rfl := List.mem_singleton.mp member
    rfl

/-- What a mutation has written by the time its body succeeds stays within tenants. -/
def Stage.Within (log : List Change) : Stage → Prop
  | .drafted (.ok _) => ∀ change ∈ log, change.crosses = false
  | _ => True

namespace Office

variable {registry : Registry} {office : Office} {number : Nat} {tx : Transaction}

/-- What a step that drafts a link writes across tenants. -/
def crossing (office : Office) (step : Step) : List Change :=
  match step with
  | .draft number =>
    match office.stages.find? number with
    | some (.begun offer) =>
      if offer.1.links then (office.written step).filter Change.crosses else []
    | _ => []
  | _ => []

/-- What links write across tenants, in order. -/
def crossings (office : Office) : List Step → List Change
  | [] => []
  | step :: rest => office.crossing step ++ (office.step step).crossings rest

/-- How an office stands as long as no link crosses. -/
structure Apart (office : Office) : Prop where
  separate : office.inventory.store.committed.Separate
  within : ∀ {number tx stage}, office.underway.find? number = some tx →
    office.stages.find? number = some stage →
    stage.Within tx.log

theorem apart_start (settings : Settings) (ids : IdSource) : (start settings ids).Apart where
  separate := .empty
  within present := nomatch present

namespace Apart

variable (apart : office.Apart) (kept : office.Kept registry)
include apart kept

theorem within_step {step : Step} {stage : Stage} (confined : office.crossing step = [])
    (stands : (office.step step).underway.find? number = some tx)
    (reached : (office.step step).stages.find? number = some stage) : stage.Within tx.log := by
  refine standing_step (fun tx stage => stage.Within tx.log) apart.within ?_ ?_ stands reached
  · intro offer
    trivial
  · intro number tx offer outcome later drafts present begun performed
    cases outcome with
    | error error => trivial
    | ok result =>
      apply (kept.deed_drafted present begun performed).within
      intro links
      have blank : tx.log = [] := kept.logs present begun
      have written : office.written (.draft number) = later.tx.log := by
        rw [written_draft present begun performed, blank]
        rfl
      rw [drafts] at confined
      simpa [crossing, begun, links, written] using confined

theorem separate_step (step : Step) : (office.step step).inventory.store.committed.Separate := by
  rcases kept.committed_step step with same | ⟨number, tx, result, present, drafted, replayed⟩
  · rw [same]
    exact apart.separate
  · exact apart.separate.replay (kept.consistent.fits present)
      (apart.within present drafted) replayed

theorem step (step : Step) (confined : office.crossing step = []) : (office.step step).Apart where
  separate := apart.separate_step kept step
  within := apart.within_step kept confined

end Apart

open Script (AnyView Move)

/-- As long as no id is given to two relationships and no link crosses, a tenant's views reach what
is of that tenant only: after any steps of any mutations, and along any moves. -/
theorem navigation_within_tenant (settings : Settings) (ids : IdSource) (steps : List Step)
    (distinct : ((start settings ids).related steps).Nodup)
    (confined : (start settings ids).crossings steps = []) (tenant : String) (moves : List Move)
    (view : AnyView) (moved : moves.foldlM AnyView.move? (.single (tenants.get tenant)) =
      some view) :
    ∀ path ∈ ((start settings ids).run steps).inventory.store.committed.evaluate
      view.position.query,
      path.tenantId = tenant := by
  let holds (_ : Registry) (office : Office) (rest : List Step) : Prop :=
    office.Apart ∧ office.crossings rest = []
  have keeps {registry : Registry} {office : Office} {step : Step} {rest : List Step}
      {next : Registry}
      (kept : office.Kept registry) (held : holds registry office (step :: rest))
      (_ : registry.Extends next) :
      holds next (office.step step) rest := by
    obtain ⟨apart, confined⟩ := held
    obtain ⟨here, later⟩ := List.append_eq_nil_iff.mp confined
    exact ⟨apart.step kept step here, later⟩
  obtain ⟨registry, kept, apart, -⟩ := Kept.run_keeping holds keeps (kept_start settings ids) steps
    ⟨apart_start settings ids, confined⟩ distinct fun id new => rfl
  have wellFormed := kept.consistent.committed.toWellFormed
  have within := (Graph.confines_tenant _ tenant).moves apart.separate wellFormed moved
  intro path member
  obtain ⟨start, -, leads⟩ := Graph.mem_evaluate_iff.mp member
  exact within leads

def types (tenant : String) (kind : Kind) : Listing :=
  { kind, position := (tenants.get tenant).position.proceedTo .contains kind, scope := .manage }

theorem reached_resourceTypes (tenant : String) :
    AnyView.Reached (.listing (types tenant .resourceType)) :=
  @AnyView.Reached.along _ _ [.get tenant, .follow .resourceTypes] .tenants rfl

theorem reached_metricTypes (tenant : String) :
    AnyView.Reached (.listing (types tenant .metricType)) :=
  @AnyView.Reached.along _ _ [.get tenant, .follow .metricTypes] .tenants rfl

def metricType (tenant : String) (valid : ValidId tenant) : Path :=
  ⟨[⟨.tenant, tenant⟩, ⟨.metricType, "metric"⟩], rfl, by simp [Nested]; decide,
    by simp [valid]; decide⟩

/-- A resource type of the first of two tenants is linked to a metric type, as owned by it. -/
def lending (target : Path) : List Step :=
  let tenant (id : String) : Step :=
    .begin ⟨.create tenants { id := some id, details := .tenant }, .tenants, rfl, rfl⟩
  let resourceType : Step :=
    .begin ⟨.create (types "left" .resourceType)
      { id := some "resource", details := .resourceType "1" }, reached_resourceTypes "left", rfl,
      rfl⟩
  let metricType : Step :=
    .begin ⟨.create (types target.tenantId .metricType)
      { id := some target.id, details := .metricType .none }, reached_metricTypes target.tenantId,
      rfl, rfl⟩
  let single := (types "left" .resourceType).get "resource"
  let link : Step :=
    .begin ⟨.link (single.relations .outgoing) Reserved.owns.name target ∅, rfl, single,
      @AnyView.Reached.move _ _ (.get "resource") (reached_resourceTypes "left") rfl, rfl⟩
  let settle (number : Nat) : List Step := [.draft number, .settle number]
  tenant "left" :: settle 1 ++ tenant "right" :: settle 2 ++ resourceType :: settle 3 ++
    metricType :: settle 4 ++
    link :: settle 5

def lent : List Move := [.follow .resourceTypes, .get "resource", .follow .metricTypes]

theorem loan_within_tenant :
    let home := metricType "left" (by decide)
    ((start {} .counter).related (lending home)).Nodup ∧
      (start {} .counter).crossings (lending home) = [] ∧
      ∃ view, lent.foldlM AnyView.move? (.single (tenants.get "left")) = some view ∧
        home ∈ ((start {} .counter).run (lending home)).inventory.store.committed.evaluate
          view.position.query ∧
        ∀ path ∈ ((start {} .counter).run
          (lending home)).inventory.store.committed.evaluate view.position.query,
          path.tenantId = "left" := by
  intro home
  have distinct : ((start {} .counter).related (lending home)).Nodup := by decide +kernel
  have confined : (start {} .counter).crossings (lending home) =
      [] := List.isEmpty_iff.mp (by decide +kernel)
  obtain ⟨view, moved⟩ : ∃ view, lent.foldlM AnyView.move? (.single (tenants.get "left")) =
      some view := ⟨_, rfl⟩
  have reached :
      home ∈ ((start {} .counter).run
        (lending home)).inventory.store.committed.evaluate view.position.query := by
    obtain rfl := Option.some.inj moved
    decide +kernel
  have within :=
    navigation_within_tenant {} .counter (lending home) distinct confined "left" lent view moved
  exact ⟨distinct, confined, view, moved, reached, within⟩

/-- Nothing keeps a link under a reserved name within a tenant. -/
theorem loan_leaves_tenant :
    ¬∀ (settings : Settings) (ids : IdSource) (steps : List Step),
      ((start settings ids).related steps).Nodup →
      ∀ (tenant : String) (moves : List Move) (view : AnyView),
        moves.foldlM AnyView.move? (.single (tenants.get tenant)) = some view →
        ∀ path ∈ ((start settings ids).run steps).inventory.store.committed.evaluate
          view.position.query,
          path.tenantId = tenant := by
  intro isolated
  let away := metricType "right" (by decide)
  have distinct : ((start {} .counter).related (lending away)).Nodup := by decide +kernel
  obtain ⟨view, moved⟩ : ∃ view, lent.foldlM AnyView.move? (.single (tenants.get "left")) =
      some view := ⟨_, rfl⟩
  have reached :
      away ∈ ((start {} .counter).run (lending away)).inventory.store.committed.evaluate
        view.position.query := by
    obtain rfl := Option.some.inj moved
    decide +kernel
  have left : away.tenantId = "left" :=
    isolated {} .counter (lending away) distinct "left" lent view moved away reached
  exact absurd left (by decide)

end Office

end Estate
