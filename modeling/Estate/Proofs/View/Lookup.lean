import Estate.Proofs.View.Association
import Estate.Proofs.View.Deletion

/-!
Looking up what was associated. An id names the first by path among what the source owns under it,
so that an association just made is found again by the id of its target when nothing else that the
source owns under that id comes before; or else what comes first is found.
-/
namespace Estate

open Script (AnyView)

variable {graph : Graph} {single : Single} {segments : List Segment} {facet : Facet}
  {listing : Listing} {view : Associations} {source target path other : Path} {kind : Kind}
  {id : String} {query : Query}

namespace Graph

structure Owns (graph : Graph) (source : Path) (kind : Kind) (id : String) (path : Path) :
    Prop where
  held : graph.HasEdge ⟨Reserved.owns.name, source, path⟩
  kind : path.kind = kind
  named : path.id = id

/-- The first by path of what an entity owns of a kind under an id. -/
structure OwnsFirst (graph : Graph) (source : Path) (kind : Kind) (id : String) (path : Path) :
    Prop where
  owned : graph.Owns source kind id path
  least : ∀ other, graph.Owns source kind id other → (compare path other).isLE

/-- What a query reaches first comes before all that it reaches. -/
theorem isLE_of_first (first : (graph.evaluate query).head? = some path)
    (reached : other ∈ graph.evaluate query) :
    (compare path other).isLE := by
  obtain ⟨rest, whole⟩ := List.head?_eq_some_iff.mp first
  rw [whole] at reached
  rcases List.mem_cons.mp reached with rfl | later
  · simp
  · have sorted := graph.evaluate_pairwise query
    rw [whole] at sorted
    simp [(List.pairwise_cons.mp sorted).1 other later]

theorem WellFormed.mem_landings_owns_iff (wellFormed : graph.WellFormed) :
    path ∈ graph.landings source { name := Reserved.owns.name, direction := .outgoing } ↔
      graph.HasEdge ⟨Reserved.owns.name, source, path⟩ := by
  rw [wellFormed.mem_landings_iff]
  constructor
  · rintro ⟨id, rel, found, named, ⟨rfl, rfl⟩, -⟩
    exact ⟨id, rel, found, by rw [Relationship.edge, named]⟩
  · rintro ⟨id, rel, found, edge⟩
    obtain ⟨named, starts, ends⟩ : rel.name = Reserved.owns.name ∧ rel.source = source ∧
        rel.target = path := by
      simpa [Relationship.edge] using edge
    exact ⟨id, rel, found, named, ⟨starts, ends⟩, by simp⟩

end Graph

namespace Single.Picks

variable (picks : single.Picks segments) (mirrored : graph.Mirrored none)
  (wellFormed : graph.WellFormed) (spelled : source.segments = segments)
  (starts : graph.entities.contains source)
include picks mirrored wellFormed spelled starts

theorem leads_source_iff :
    (∃ start, graph.entities.contains start ∧ graph.Leads single.position.query start path) ↔
      path = source := by
  rw [← Graph.mem_evaluate_iff, picks.mem_evaluate_iff mirrored wellFormed]
  constructor
  · rintro ⟨-, same⟩
    exact Path.eq_of_segments (same.trans spelled.symm)
  · rintro rfl
    exact ⟨starts, spelled⟩

/-- From the source that is picked, the way on leads to what it owns. -/
theorem mem_proceedTo_owns_iff :
    path ∈ graph.evaluate (single.position.proceedTo .owns kind).query ↔
      graph.HasEdge ⟨Reserved.owns.name, source, path⟩ ∧ path.kind = kind := by
  simp only [Graph.mem_evaluate_iff, Position.leads_proceedTo_iff]
  constructor
  · rintro ⟨start, started, middle, leads, lands, fits⟩
    obtain rfl :=
      (picks.leads_source_iff mirrored wellFormed spelled starts).mp ⟨start, started, leads⟩
    exact ⟨wellFormed.mem_landings_owns_iff.mp lands, fits⟩
  · rintro ⟨held, fits⟩
    obtain ⟨start, started, leads⟩ :=
      (picks.leads_source_iff mirrored wellFormed spelled starts).mpr rfl
    exact ⟨start, started, source, leads, wellFormed.mem_landings_owns_iff.mpr held, fits⟩

theorem mem_get_iff (along : listing.position = single.position.proceedTo .owns listing.kind) :
    path ∈ graph.evaluate (listing.get id).position.query ↔
      graph.Owns source listing.kind id path := by
  have owned :=
    @mem_proceedTo_owns_iff graph _ _ source path listing.kind picks mirrored wellFormed
      spelled starts
  have named (start : Path) := @Listing.leads_pick_iff graph start path listing (some id)
  simp only [Graph.mem_evaluate_iff] at owned ⊢
  rw [← along] at owned
  constructor
  · rintro ⟨start, started, leads⟩
    obtain ⟨leads, same⟩ := (named start).mp leads
    obtain ⟨held, fits⟩ := owned.mp ⟨start, started, leads⟩
    exact ⟨held, fits, same id rfl⟩
  · rintro ⟨held, fits, same⟩
    obtain ⟨start, started, leads⟩ := owned.mpr ⟨held, fits⟩
    exact ⟨start, started,
      (named start).mpr ⟨leads, fun wanted given => by rw [← Option.some.inj given, same]⟩⟩

theorem evaluate_targetQuery
    (along : listing.position = single.position.proceedTo .owns listing.kind) :
    graph.evaluate ((single.owning listing.kind).targetQuery id) =
      graph.evaluate (listing.get id).position.query := by
  refine Graph.evaluate_congr fun path => ?_
  rw [picks.mem_get_iff mirrored wellFormed spelled starts along, Graph.mem_evaluate_iff]
  simp only [Associations.leads_targetQuery_iff, Associations.leads_sourceQuery_iff]
  constructor
  · rintro ⟨start, started, middle, ⟨leads, -⟩, lands, fits, named⟩
    obtain rfl :=
      (picks.leads_source_iff mirrored wellFormed spelled starts).mp ⟨start, started, leads⟩
    exact ⟨wellFormed.mem_landings_owns_iff.mp lands, fits, named⟩
  · rintro ⟨held, fits, named⟩
    obtain ⟨start, started, leads⟩ :=
      (picks.leads_source_iff mirrored wellFormed spelled starts).mpr rfl
    exact ⟨start, started, source, ⟨leads, (picks.kind_eq spelled).symm⟩,
      wellFormed.mem_landings_owns_iff.mpr held, fits, named⟩

end Single.Picks

/-- The look-up of an association finds the relationship to what it reaches first. -/
theorem Associations.association_of_first {settings : Settings} {tx : Transaction}
    {rel : Relationship} (starts : (tx.working.evaluate view.sourceQuery).head? = some source)
    (ends : (tx.working.evaluate (view.targetQuery id)).head? = some path)
    (between : tx.working.between? source path view.name.name = some rel)
    (found : tx.working.relationships.find? rel.id = some rel)
    (visible : settings.isVisible (.relationship rel)) :
    view.association settings id tx = .ok rel := by
  have first : view.sourceEntity tx = .ok (.entity source) :=
    Reading.first_eq_ok_iff.mpr ⟨source, starts, rfl⟩
  have second : Reading.first (view.targetQuery id) (some view.kind) tx = .ok (.entity path) :=
    Reading.first_eq_ok_iff.mpr ⟨path, ends, rfl⟩
  have read := Transaction.convertRelationship_eq_ok_iff.mpr found
  simp [association, first, second, Transaction.getRelationship_entities, between, read, visible,
    bind, Except.bind, pure, Except.pure]

/-- Without a result filter, what a source owns under an id is found by that id: the first of it by
path. -/
theorem Single.Picks.lookup {settings : Settings} {tx : Transaction} (picks : single.Picks segments)
    (mirrored : tx.working.Mirrored none) (wellFormed : tx.working.WellFormed)
    (spelled : source.segments = segments) (starts : tx.working.entities.contains source)
    (along : listing.position = single.position.proceedTo .owns listing.kind)
    (unfiltered : settings.resultFilter = none)
    (owned : tx.working.Owns source listing.kind id path) :
    ∃ first held entity, tx.working.OwnsFirst source listing.kind id first ∧
      tx.working.relationships.find? held.id = some held ∧
      held.edge = ⟨Reserved.owns.name, source, first⟩ ∧
      entity.path = first ∧ (single.owning listing.kind).association settings id tx = .ok held ∧
      (listing.get id).entity settings tx = .ok entity := by
  have visible (element : Element) : settings.isVisible element := by
    simp [Settings.isVisible, unfiltered]
  have reached (other : Path) :=
    @mem_get_iff tx.working _ _ listing source other id picks mirrored wellFormed spelled
      starts along
  obtain ⟨first, top⟩ : ∃ first, (tx.working.evaluate (listing.get id).position.query).head? =
      some first := by
    have member := (reached path).mpr owned
    cases all : tx.working.evaluate (listing.get id).position.query with
    | nil => simp [all] at member
    | cons first rest => exact ⟨first, rfl⟩
  have foremost : tx.working.OwnsFirst source listing.kind id first :=
    ⟨(reached first).mp (List.mem_of_head? top),
      fun other owns => Graph.isLE_of_first top ((reached other).mpr owns)⟩
  obtain ⟨entity, stored, rfl, -⟩ := wellFormed.load_first top
  obtain ⟨held, between⟩ :=
    Option.isSome_iff_exists.mp (wellFormed.isSome_between?_iff.mpr foremost.owned.held)
  obtain ⟨found, edge⟩ := wellFormed.between?_eq_some between
  refine ⟨entity.path, held, entity, foremost, found, edge, rfl, ?_, ?_⟩
  · refine Associations.association_of_first
      ((picks.source_iff mirrored wellFormed).mpr ⟨starts, spelled⟩) ?_ between found
      (visible _)
    rw [picks.evaluate_targetQuery mirrored wellFormed spelled starts along]
    exact top
  · rw [Single.entity_of_first top stored ((wellFormed.kinds stored).trans foremost.owned.kind),
      if_pos (visible _)]

namespace Office

/--
Where nothing else is committed beside an association that goes through, nor after it, and without a
result filter, the id of its target finds the first by path among what the source owns of the kind
under that id: the look-up hands back the relationship to it, and the view gets the entity there. So
the association itself is found, and its target, just when that is the first of these.
-/
theorem association_is_looked_up (settings : Settings) (ids : IdSource) (before : List Event)
    (picks : single.Picks segments) (follows : single.follow? facet = some listing)
    (side : listing.associations? = some view) (target : Path) (passage : Passage)
    (unfiltered : settings.resultFilter = none) :
    let office := (start settings ids).undergoAll before
    let joining : Offer := ⟨.associate view target, picks.associating follows side⟩
    ∀ (rel : Relationship) (between : List Event),
      let settled := (passage.drafted office joining).step (.settle office.upcoming)
      let after :=
        before ++ passage.events office joining ++ .step (.settle office.upcoming) :: between
      let later := (start settings ids).undergoAll after
      let graph := later.inventory.store.committed
      let reply (inquiry : Inquiry) := (later.inventory.carryOut (.inquiry inquiry)).1
      passage.Undisturbed office joining →
        (passage.aftermath office joining).outcome = .ok (.relationship rel) →
      later.inventory.store.version = settled.inventory.store.version →
      ((start settings ids).trace drawn after).Nodup →
      ∃ source first held entity, source.segments = segments ∧
        rel.edge = ⟨Reserved.owns.name, source, target⟩ ∧
        graph.OwnsFirst source view.kind target.id first ∧
        held.edge = ⟨Reserved.owns.name, source, first⟩ ∧ entity.path = first ∧
        reply (.association view target.id) = .replied (.ok (.relationship held)) ∧
        reply (.entity (listing.get target.id)) = .replied (.ok (.entity entity)) ∧
        (held = rel ↔ first = target) := by
  have along : listing.position = single.position.proceedTo .owns listing.kind :=
    Single.position_owns follows side
  obtain rfl := Single.associations_eq follows side
  intro office joining rel between settled after later graph reply undisturbed handed still distinct
  obtain ⟨registry, notices, kept, -⟩ := soberly settings ids after distinct
  have wellFormed : graph.WellFormed := kept.consistent.committed.toWellFormed
  have exclusive : graph.Exclusive := kept.consistent.committed.exclusive
  obtain ⟨source, may, associates⟩ :=
    Passage.Undisturbed.associated picks _ undisturbed handed still distinct
  have may' := associates.mayDisassociate may
  have found : graph.relationships.find? rel.id = some rel :=
    (associates.joined.relationships rel.id rel).mpr (.inr ⟨List.mem_singleton_self _, rfl⟩)
  have same : later.inventory.settings = settings := settings_undergoAll _ _
  obtain ⟨first, held, entity, foremost, stored, edge, here, associated, got⟩ :=
    @Single.Picks.lookup _ _ listing source target target.id settings
      (later.inventory.store.begin .readOnly).1 picks
      kept.mirrored wellFormed may.spelled may'.starts along unfiltered ⟨may'.held, may.kind, rfl⟩
  refine ⟨source, first, held, entity, may.spelled, associates.edge, foremost, edge, here,
    ?_, ?_, ?_⟩
  · simp only [reply, Inventory.carryOut_inquiry, Inquiry.answer, same, associated, Except.map]
  · simp only [reply, Inventory.carryOut_inquiry, Inquiry.answer, same, got, Except.map]
  · constructor
    · rintro rfl
      exact congrArg Edge.target (edge.symm.trans associates.edge)
    · -- between the two, there is one such relationship only
      rintro rfl
      have one (rel : Relationship) :=
        @wellFormed.between?_eq_some_iff _ rel source first Reserved.owns.name exclusive rfl
      exact Option.some.inj (((one held).mpr ⟨stored, edge⟩).symm.trans
        ((one rel).mpr ⟨found, associates.edge⟩))

/-- Whether what is handed back is a relationship into the entity at a path. -/
def relates (path : Path) : Except Error Yield → Bool
  | .ok (.relationship rel) => rel.target = path
  | _ => false

/-- Whether a reply is the entity at a path, or a relationship into it. -/
def concerns (path : Path) : Conclusion → Bool
  | .replied (.ok (.entity entity)) => entity.path = path
  | .replied (.ok (.relationship rel)) => rel.target = path
  | _ => false

/-- The only metric type that a resource type owns is found by its id. -/
theorem level_looked_up :
    let view : Associations :=
      ⟨.metricType, (ownedBy "inn" "barrel").position, .resourceType, .owns⟩
    let office := (start {} .counter).undergoAll founding
    let offered :=
      @Single.Picks.associating _ _ _ _ view (picks_type "inn" "barrel" (by decide)) barrel_owns rfl
    let joining : Offer := ⟨.associate view metricTypePath, offered⟩
    let after := founding ++ quiet.events office joining ++ [.step (.settle office.upcoming), .read]
    let later := (start {} .counter).undergoAll after
    let reply (inquiry : Inquiry) := (later.inventory.carryOut (.inquiry inquiry)).1
    quiet.Undisturbed office joining ∧ ((start {} .counter).trace drawn after).Nodup ∧
      ∃ rel entity, (quiet.aftermath office joining).outcome = .ok (.relationship rel) ∧
        entity.path = metricTypePath ∧
        reply (.association view metricTypePath.id) = .replied (.ok (.relationship rel)) ∧
        reply (.entity ((ownedBy "inn" "barrel").get metricTypePath.id)) =
          .replied (.ok (.entity entity)) := by
  intro view office offered joining after later reply
  have facts : quiet.Undisturbed office joining ∧
      later.inventory.store.version =
        ((quiet.drafted office joining).step (.settle office.upcoming)).inventory.store.version ∧
      relates metricTypePath (quiet.aftermath office joining).outcome ∧
      concerns metricTypePath (reply (.entity ((ownedBy "inn" "barrel").get metricTypePath.id))) ∧
      ((start {} .counter).trace drawn after).Nodup := by decide +kernel
  obtain ⟨undisturbed, still, succeeds, found, distinct⟩ := facts
  have looked :=
    @association_is_looked_up _ _ _ _ view {} .counter founding
      (picks_type "inn" "barrel" (by decide)) barrel_owns
    rfl metricTypePath quiet rfl
  refine ⟨undisturbed, distinct, ?_⟩
  rcases handed : (quiet.aftermath office joining).outcome with error | (single | rel | _)
  case ok.relationship =>
    subst reply later after joining offered office view
    obtain ⟨source, first, held, entity, -, -, -, -, here, associated, got, same⟩ :=
      looked rel [.read] undisturbed handed still distinct
    have there : entity.path = metricTypePath := by
      rw [got] at found
      simpa [concerns] using found
    rw [same.mpr (here.symm.trans there)] at associated
    exact ⟨rel, entity, rfl, there, associated, got⟩
  all_goals
    rw [handed] at succeeds
    cases succeeds

def tower : Single := (inventoried "mill" "yard").get "tower"

theorem picks_tower : tower.Picks [⟨.tenant, "mill"⟩, ⟨.environment, "yard"⟩,
    ⟨.resource, "tower"⟩] :=
  @Single.Picks.next _ _ .feedlessResources (inventoried "mill" "yard")
    (@Single.Picks.next _ _ .environments (environments "mill") (.tenant "mill") rfl rfl "yard") rfl
      rfl "tower"

def metrics (container : Single) : Listing :=
  { kind := .metric, position := container.position.proceedTo .contains .metric, scope := .manage }

def gauges : Listing :=
  { kind := .metric, position := tower.position.proceedTo .owns .metric,
    scope := .associate .resource .owns }

def gauging :
    Associations :=
  { kind := .metric, position := gauges.position, source := .resource, name := .owns }

theorem tower_owns : tower.follow? .metrics = some gauges := rfl

def yardRate : Path :=
  ⟨[⟨.tenant, "mill"⟩, ⟨.environment, "yard"⟩, ⟨.metric, "rate"⟩], rfl, by decide, by decide⟩

def shedRate : Path :=
  ⟨[⟨.tenant, "mill"⟩, ⟨.environment, "yard"⟩, ⟨.feed, "shed"⟩, ⟨.metric, "rate"⟩], rfl, by decide,
    by decide⟩

/-- To the household come a resource, and a metric of the same id in its environment and in a feed
of that. -/
def workshop : List Event :=
  let yard : Single := (environments "mill").get "yard"
  let shed : Single := (feeds "mill" "yard").get "shed"
  let type : Step :=
    .begin ⟨.create (types "mill" .metricType) { id := some "tick", details := .metricType .none },
      reached_metricTypes "mill", rfl, rfl⟩
  let feed : Step :=
    .begin ⟨.create (feeds "mill" "yard") { id := some "shed", details := .feed },
      reached_feeds "mill" "yard", rfl, rfl⟩
  let resource : Step :=
    .begin ⟨.create (inventoried "mill" "yard") { id := some "tower", details := .resource "clock"
      }, (obtained_inventoried "mill" "yard").reached, rfl, rfl⟩
  let first : Step :=
    .begin ⟨.create (metrics yard) { id := some "rate", details := .metric "tick" },
      @AnyView.Reached.along _ _ [.get "yard", .follow .feedlessMetrics]
        (reached_environments "mill") rfl, rfl, rfl⟩
  let second : Step :=
    .begin ⟨.create (metrics shed) { id := some "rate", details := .metric "tick" },
      @AnyView.Reached.along _ _ [.get "shed", .follow .metrics] (reached_feeds "mill" "yard") rfl,
      rfl, rfl⟩
  household ++ [type, .draft 4, .settle 4, feed, .draft 5,
    .settle 5, resource, .draft 6, .settle 6, first, .draft 7, .settle 7, second, .draft 8,
    .settle 8].map .step

/-- Where a resource owns two metrics of the same id, associating it with the second by path has the
first be found. -/
theorem rate_of_another :
    let origin := (start {} .counter).undergoAll workshop
    let former : Offer := ⟨.associate gauging shedRate, picks_tower.associating tower_owns rfl⟩
    let joining : Offer := ⟨.associate gauging yardRate, picks_tower.associating tower_owns rfl⟩
    let before := workshop ++ quiet.events origin former ++ [.step (.settle origin.upcoming)]
    let office := (start {} .counter).undergoAll before
    let later := (quiet.drafted office joining).step (.settle office.upcoming)
    quiet.Undisturbed office joining ∧
      ((start {} .counter).trace drawn (before ++ quiet.events office joining)).Nodup ∧
      relates yardRate (quiet.aftermath office joining).outcome ∧
      concerns shedRate (later.inventory.carryOut (.inquiry (.association gauging yardRate.id))).1 ∧
      concerns shedRate (later.inventory.carryOut (.inquiry (.entity
        (gauges.get yardRate.id)))).1 := by
  intro origin former joining before office later
  decide +kernel

/-- So an association that has gone through need not be found by the id of its target, nor need the
target be. -/
theorem association_may_find_another :
    ¬∀ (before : List Event) (target : Path) (rel : Relationship),
      let office := (start {} .counter).undergoAll before
      let joining : Offer := ⟨.associate gauging target, picks_tower.associating tower_owns rfl⟩
      let later := (quiet.drafted office joining).step (.settle office.upcoming)
      let reply (inquiry : Inquiry) := (later.inventory.carryOut (.inquiry inquiry)).1
      quiet.Undisturbed office joining →
        ((start {} .counter).trace drawn (before ++ quiet.events office joining)).Nodup →
      (quiet.aftermath office joining).outcome = .ok (.relationship rel) →
      reply (.association gauging target.id) = .replied (.ok (.relationship rel)) ∧
        ∃ entity, entity.path = target ∧
          reply (.entity (gauges.get target.id)) = .replied (.ok (.entity entity)) := by
  intro always
  obtain ⟨undisturbed, distinct, made, associated, -⟩ := rate_of_another
  rcases handed : (quiet.aftermath _ _).outcome with error | (single | rel | _)
  case ok.relationship =>
    rw [handed] at made
    have target : rel.target = yardRate := by simpa [relates] using made
    obtain ⟨found, -⟩ := always _ yardRate rel undisturbed distinct handed
    have elsewhere : concerns shedRate (.replied (.ok (.relationship rel))) :=
      (congrArg (fun reply => concerns shedRate reply = true) found).mp associated
    have same : yardRate = shedRate := target.symm.trans (by simpa [concerns] using elsewhere)
    exact absurd same (by decide)
  all_goals
    rw [handed] at made
    cases made

end Office

end Estate
