import Estate.Proofs.Graph.Containment
import Estate.Proofs.Graph.Meaning
import Estate.Proofs.View.Hierarchy
import Estate.Proofs.View.Positions
import Mathlib.Data.List.Forall2

/-!
Ways down through containment. Where containment mirrors the paths, a view reached from the tenants
by going down level by level reaches the paths that go through these levels; so ids picked all the
way down are those of one path.
-/
namespace Estate

open Script (AnyView Move)

/-- The entities of a kind that are picked on the way down: all of them, or the one with an id. -/
structure Level where
  kind : Kind
  id : Option String

namespace Level

def Picks (level : Level) (segment : Segment) : Prop :=
  segment.kind = level.kind ∧ ∀ id, level.id = some id → segment.id = id

def only (segment : Segment) : Level := ⟨segment.kind, some segment.id⟩

theorem picks_only_iff {segment other : Segment} :
    (only segment).Picks other ↔ other = segment := by
  cases segment
  cases other
  simp [Picks, only]

/-- The levels that ways down lead to from an entity of a kind, if each of them is one of
containment. -/
def below? : Kind → List (Facet × Option String) → Option (List Level)
  | _, [] => some []
  | kind, (facet, id) :: rest =>
    match facet.from? kind with
    | some (.contains, kind) => (below? kind rest).map (⟨kind, id⟩ :: ·)
    | _ => none

end Level

/-- Whether a path goes down through levels, one segment for each. -/
def Path.Through (path : Path) (levels : List Level) : Prop :=
  List.Forall₂ (fun segment level => Level.Picks level segment) path.segments levels

namespace Path

variable {path parent : Path} {level : Level} {levels : List Level} {segments : List Segment}

theorem through_only_iff : path.Through (segments.map Level.only) ↔ path.segments = segments := by
  rw [Through, List.forall₂_map_right_iff]
  simp only [Level.picks_only_iff]
  exact iff_of_eq (congrFun₂ List.forall₂_eq_eq_eq _ _)

theorem through_top_iff {id : Option String} :
    path.Through [⟨.tenant, id⟩] ↔ path.kind = .tenant ∧ ∀ wanted, id = some wanted →
      path.id = wanted := by
  constructor
  · intro through
    obtain ⟨segment, _, picked, nothing, only⟩ := List.forall₂_cons_right_iff.mp through
    rw [List.forall₂_nil_right_iff.mp nothing] at only
    have last : path.last = segment := by simp [Path.last, only]
    rw [kind, Path.id, last]
    exact picked
  · rintro ⟨top, named⟩
    rw [Through, segments_of_top top]
    exact .cons ⟨top, named⟩ .nil

theorem through_concat_iff (above : levels ≠ []) :
    path.Through (levels ++ [level]) ↔
      ∃ parent, path.up? = some parent ∧ parent.Through levels ∧ level.Picks path.last := by
  constructor
  · intro through
    have before := List.forall₂_take_append _ _ _ through
    obtain ⟨segment, _, picked, nothing, only⟩ :=
      List.forall₂_cons_right_iff.mp (List.forall₂_drop_append _ _ _ through)
    rw [List.forall₂_nil_right_iff.mp nothing] at only
    have whole : path.segments = path.segments.take levels.length ++ [segment] := by
      rw [← only, List.take_append_drop]
    have filled : path.segments.take levels.length ≠ [] := by
      intro nothing
      rw [nothing] at before
      exact above (List.forall₂_nil_left_iff.mp before)
    obtain ⟨parent, segments⟩ := exists_of_append whole filled
    have last : path.last = segment := by
      simp only [Path.last]
      rw [List.getLast_congr _ (by simp) whole, List.getLast_concat]
    refine ⟨parent, up?_of_segments (segments ▸ whole), ?_, last ▸ picked⟩
    rwa [Through, segments]
  · rintro ⟨parent, up, through, picked⟩
    rw [Through, segments_up? up]
    exact List.rel_append through (.cons picked .nil)

end Path

namespace Graph

variable {graph : Graph} {start target path : Path} {position : Position} {levels : List Level}

/-- Where containment mirrors the paths, it leads to what is stored directly below. -/
theorem Mirrored.mem_landings_iff (mirrored : graph.Mirrored none) (wellFormed : graph.WellFormed) :
    target ∈ graph.landings start { name := Reserved.contains.name, direction := .outgoing } ↔
      graph.entities.contains target ∧ target.up? = some start := by
  rw [wellFormed.mem_landings_iff]
  constructor
  · rintro ⟨id, rel, found, named, ⟨rfl, rfl⟩, -⟩
    exact ⟨(wellFormed.ends found).2, mirrored.edges found named⟩
  · rintro ⟨stored, up⟩
    obtain ⟨id, rel, found, edge⟩ := mirrored.nested stored up (Option.some_ne_none target).symm
    have fields : rel.name = Reserved.contains.name ∧ rel.source = start ∧ rel.target = target := by
      simpa [Relationship.edge, Edge.containment] using edge
    refine ⟨id, rel, found, fields.1, fields.2, fun wanted given => ?_⟩
    cases given

theorem Mirrored.stored_above (mirrored : graph.Mirrored none) (wellFormed : graph.WellFormed)
    (stored : graph.entities.contains target) (up : target.up? = some start) :
    graph.entities.contains start := by
  obtain ⟨id, rel, found, edge⟩ := mirrored.nested stored up nofun
  have source : rel.source = start := congrArg Edge.source edge
  exact source ▸ (wellFormed.ends found).1

/-- A position reaches all that is stored at the end of some levels, and nothing else. -/
def Resolves (graph : Graph) (position : Position) (levels : List Level) : Prop :=
  ∀ path, path ∈ graph.evaluate position.query ↔ graph.entities.contains path ∧ path.Through levels

end Graph

def Script.Move.pick : Option String → Move
  | some id => .get id
  | none => .all

def Script.Move.descend (legs : List (Facet × Option String)) : List Move :=
  legs.flatMap fun leg => [.follow leg.1, .pick leg.2]

def Listing.pick (listing : Listing) : Option String → AnyView
  | some id => .single (listing.get id)
  | none => .multiple listing.all

namespace Listing

variable {graph : Graph} {start target : Path} {listing : Listing} {id : Option String}
  {facet : Facet}

theorem move_pick (listing : Listing) (id : Option String) :
    (AnyView.listing listing).move? (.pick id) = some (listing.pick id) := by
  cases id <;> rfl

/-- From what is picked a way leads on as it does from its kind. -/
theorem move_follow {name : Reserved} {kind : Kind}
    (way : facet.from? listing.kind = some (name, kind)) :
    ∃ next : Listing, (listing.pick id).move? (.follow facet) = some (.listing next) ∧
      next.kind = kind ∧ next.position = (listing.pick id).position.proceedTo name kind := by
  cases id with
  | some id =>
    refine ⟨{ kind, position := (listing.get id).position.proceedTo name kind
              scope := .along listing.kind name }, ?_, rfl, rfl⟩
    simp [pick, AnyView.move?, Single.follow?, get, way]
  | none =>
    refine ⟨{ kind, position := listing.all.position.proceedTo name kind, scope := .browse },
      ?_, rfl, rfl⟩
    simp [pick, AnyView.move?, Multiple.follow?, all, way]

theorem leads_pick_iff :
    graph.Leads (listing.pick id).position.query start target ↔
      graph.Leads listing.position.query start target ∧ ∀ wanted, id = some wanted →
      target.id = wanted := by
  cases id with
  | some id =>
    have named : graph.Holds target (.id id) ↔ target.id = id := by
      simp [Graph.Holds, Filter.id, Graph.passes]
    refine Position.leads_whereAll_iff.trans (and_congr_right fun _ => ?_)
    simp [named]
  | none => simp [pick, AnyView.position, all]

end Listing

namespace Graph

variable {graph : Graph} {listing : Listing} {id : Option String} {levels : List Level}

theorem resolves_tenants (graph : Graph) (id : Option String) :
    graph.Resolves (tenants.pick id).position [⟨.tenant, id⟩] := by
  intro path
  rw [mem_evaluate_iff, Path.through_top_iff]
  simp only [Listing.leads_pick_iff]
  constructor
  · rintro ⟨start, stored, top, named⟩
    obtain ⟨rfl, kind⟩ := Position.leads_tenants_iff.mp top
    exact ⟨stored, kind, named⟩
  · rintro ⟨stored, kind, named⟩
    exact ⟨path, stored, Position.leads_tenants_iff.mpr ⟨rfl, kind⟩, named⟩

/-- Another way down adds a level. -/
theorem Resolves.next {position : Position} (resolves : graph.Resolves position levels)
    (above : levels ≠ []) (mirrored : graph.Mirrored none) (wellFormed : graph.WellFormed)
    (leading : listing.position = position.proceedTo .contains listing.kind) :
    graph.Resolves (listing.pick id).position (levels ++ [⟨listing.kind, id⟩]) := by
  intro path
  rw [mem_evaluate_iff, Path.through_concat_iff above]
  simp only [Listing.leads_pick_iff, leading, Position.leads_proceedTo_iff,
    mirrored.mem_landings_iff wellFormed]
  constructor
  · rintro ⟨start, started, ⟨parent, leads, ⟨stored, up⟩, kind⟩, named⟩
    have through := ((resolves parent).mp (mem_evaluate_iff.mpr ⟨start, started, leads⟩)).2
    exact ⟨stored, parent, up, through, kind, named⟩
  · rintro ⟨stored, parent, up, through, kind, named⟩
    have reached := (resolves parent).mpr ⟨mirrored.stored_above wellFormed stored up, through⟩
    obtain ⟨start, started, leads⟩ := mem_evaluate_iff.mp reached
    exact ⟨start, started, ⟨parent, leads, ⟨stored, up⟩, kind⟩, named⟩

/-- All the way down, views resolve to the levels that were picked. -/
theorem Resolves.descend {legs : List (Facet × Option String)} {below : List Level}
    (resolves : graph.Resolves (listing.pick id).position levels)
    (last : levels.getLast? = some ⟨listing.kind, id⟩) (mirrored : graph.Mirrored none)
    (wellFormed : graph.WellFormed) (contained : Level.below? listing.kind legs = some below) :
    ∃ (final : Listing) (picked : Option String),
      (Move.descend legs).foldlM AnyView.move? (listing.pick id) = some (final.pick picked) ∧
        graph.Resolves (final.pick picked).position (levels ++ below) ∧
        (levels ++ below).getLast? = some ⟨final.kind, picked⟩ := by
  induction legs generalizing listing id levels below with
  | nil =>
    obtain rfl := Option.some.inj contained
    exact ⟨listing, id, rfl, by simpa using resolves, by simpa using last⟩
  | cons leg rest ih =>
    obtain ⟨facet, pick⟩ := leg
    simp only [Level.below?] at contained
    split at contained
    · rename_i kind way
      obtain ⟨further, rest', rfl⟩ := Option.map_eq_some_iff.mp contained
      obtain ⟨next, followed, rfl, leading⟩ := @Listing.move_follow listing id facet _ _ way
      have above : levels ≠ [] := by
        rintro rfl
        cases last
      obtain ⟨final, picked, moved, resolved, ends⟩ :=
        ih (resolves.next above mirrored wellFormed leading) (by simp) rest'
      refine ⟨final, picked, ?_, by simpa using resolved, by simpa using ends⟩
      simpa [Move.descend, followed, Listing.move_pick] using moved
    · cases contained

def at? (graph : Graph) (segments : List Segment) : Option Entity :=
  (Path.ofSegments segments).toOption.bind graph.entities.find?

theorem at?_eq_some_iff {segments : List Segment} {entity : Entity} :
    graph.at? segments = some entity ↔ ∃ path, path.segments = segments ∧
      graph.entities.find? path = some entity := by
  rw [at?, Option.bind_eq_some_iff]
  refine exists_congr fun path => and_congr_left fun _ => ?_
  rw [← Path.ofSegments_eq_ok_iff]
  cases Path.ofSegments segments <;> simp [Except.toOption]

/-- Where single segments are picked all the way down, no more is reached than the entity at their
path. -/
theorem Resolves.evaluate_only {position : Position} {segments : List Segment}
    (wellFormed : graph.WellFormed) (resolves : graph.Resolves position (segments.map Level.only)) :
    graph.evaluate position.query = ((graph.at? segments).map (·.path)).toList := by
  have reached (path : Path) : path ∈ graph.evaluate position.query ↔
      ∃ entity, graph.at? segments = some entity ∧
      entity.path = path := by
    rw [resolves path, Path.through_only_iff, Table.contains_iff]
    simp only [at?_eq_some_iff]
    constructor
    · rintro ⟨⟨entity, found⟩, same⟩
      exact ⟨entity, ⟨path, same, found⟩, wellFormed.entity found⟩
    · rintro ⟨entity, ⟨other, same, found⟩, rfl⟩
      obtain rfl := wellFormed.entity found
      exact ⟨⟨entity, found⟩, same⟩
  cases stored : graph.at? segments with
  | none =>
    refine List.eq_nil_iff_forall_not_mem.mpr fun path member => ?_
    obtain ⟨entity, found, -⟩ := (reached path).mp member
    simp [stored] at found
  | some entity =>
    refine eq_singleton_of_pairwise (graph.evaluate_pairwise _)
      ((reached _).mpr ⟨entity, stored, rfl⟩) ?_
    intro path member
    obtain ⟨other, found, rfl⟩ := (reached path).mp member
    rw [Option.some.inj (stored.symm.trans found)]

end Graph

theorem Reading.first_eq (query : Query) (kind : Option Kind) (tx : Transaction) :
    Reading.first query kind tx =
      match tx.working.evaluate query with
      | path :: _ => .ok (.entity path)
      | [] => .error (.nothingReached kind query) := by
  simp only [Reading.first, Transaction.query, Pager.apply, Pager.single, Pager.offset, Page.map]
  cases tx.working.evaluate query <;> rfl

namespace Single

variable {settings : Settings} {single : Single} {tx : Transaction} {entity : Entity}

theorem entity_of_first
    (first : (tx.working.evaluate single.position.query).head? = some entity.path)
    (found : tx.working.entities.find? entity.path = some entity)
    (kind : entity.details.kind = single.kind) :
    single.entity settings tx =
      if settings.isVisible (.entity entity) then .ok entity
      else .error (.nothingReached (some single.kind) single.position.query) := by
  obtain ⟨rest, reached⟩ := List.head?_eq_some_iff.mp first
  simp [Single.entity, Reading.first_eq, reached, Transaction.convertEntity, Transaction.convert,
    Transaction.findElement, found, Reading.narrow, kind, bind, Except.bind, throw, throwThe,
    MonadExceptOf.throw]

theorem entity_of_none (reached : tx.working.evaluate single.position.query = []) :
    single.entity settings tx =
      .error (.nothingReached (some single.kind) single.position.query) := by
  simp [Single.entity, Reading.first_eq, reached, bind, Except.bind]

end Single

/-- The entity at the path of some segments, unless it is absent or hidden. -/
def Inventory.shown? {ω : Type} (inventory : Inventory ω) (segments : List Segment) :
    Option Entity :=
  (inventory.store.committed.at? segments).filter fun entity =>
    inventory.settings.isVisible (.entity entity)

namespace Office

theorem read_single {inventory : Inventory Empty} {single : Single} {segments : List Segment}
    {last : Segment} (wellFormed : inventory.store.committed.WellFormed)
    (resolves : inventory.store.committed.Resolves single.position (segments.map Level.only))
    (ends : segments.getLast? = some last) (kind : last.kind = single.kind) :
    let outcome := ((engine.read (single.entity inventory.settings)).run inventory).1
    match inventory.shown? segments with
    | some entity => outcome = .ok entity
    | none => ∃ error, outcome = .error error ∧ error.family = .entityNotFound := by
  have evaluated := resolves.evaluate_only wellFormed
  simp only [outcome_read, Inventory.shown?]
  cases stored : inventory.store.committed.at? segments with
  | none =>
    rw [stored] at evaluated
    exact ⟨_, Single.entity_of_none evaluated, rfl⟩
  | some entity =>
    obtain ⟨path, whole, found⟩ := Graph.at?_eq_some_iff.mp stored
    obtain rfl := wellFormed.entity found
    have kinds : entity.details.kind = single.kind := by
      rw [wellFormed.kinds found, ← kind, Path.kind, Path.last]
      rw [← whole, List.getLast?_eq_some_getLast entity.path.ne_nil] at ends
      rw [Option.some.inj ends]
    rw [stored] at evaluated
    have read :=
      @Single.entity_of_first inventory.settings single (inventory.store.begin .readOnly).1 entity
      (congrArg List.head? evaluated) found kinds
    by_cases visible : inventory.settings.isVisible (.entity entity)
    · rw [Option.filter_some, if_pos visible]
      rw [if_pos visible] at read
      exact read
    · rw [Option.filter_some, if_neg visible]
      rw [if_neg visible] at read
      exact ⟨_, read, rfl⟩

/-- Views reached from the tenants by ways of containment resolve to the levels picked on the way,
whatever mutations are under way at once, as long as no id is given to two relationships. Where an
id is picked at every level, at most the entity at the path of these kinds and ids is reached, and
it is read unless it is absent or hidden. -/
theorem descent_resolves (settings : Settings) (ids : IdSource) (steps : List Step)
    (distinct : ((start settings ids).related steps).Nodup) (id : Option String)
    (legs : List (Facet × Option String)) {below : List Level}
    (contained : Level.below? .tenant legs = some below) :
    let inventory := ((start settings ids).run steps).inventory
    let graph := inventory.store.committed
    ∃ view, (.pick id :: Move.descend legs).foldlM AnyView.move? (.listing tenants) = some view ∧
      graph.Resolves view.position (⟨.tenant, id⟩ :: below) ∧
      ∀ segments : List Segment, ⟨.tenant, id⟩ :: below = segments.map Level.only →
        graph.evaluate view.position.query = ((graph.at? segments).map (·.path)).toList ∧
        ∃ single, view = .single single ∧
          let outcome := ((engine.read (single.entity inventory.settings)).run inventory).1
          match inventory.shown? segments with
          | some entity => outcome = .ok entity
          | none => ∃ error, outcome = .error error ∧ error.family = .entityNotFound := by
  intro inventory graph
  obtain ⟨registry, kept⟩ := (kept_start settings ids).run steps distinct fun id new => rfl
  have wellFormed : graph.WellFormed := kept.consistent.committed.toWellFormed
  obtain ⟨last, pick, moved, resolves, ends⟩ :=
    @Graph.Resolves.descend graph tenants id _ legs below
      (graph.resolves_tenants id) rfl kept.mirrored wellFormed
      contained
  refine ⟨last.pick pick, ?_, resolves, fun segments picked => ?_⟩
  · simpa [Listing.move_pick] using moved
  · rw [List.singleton_append, picked] at resolves ends
    obtain ⟨segment, final, same⟩ :
        ∃ segment, segments.getLast? = some segment ∧ Level.only segment = ⟨last.kind, pick⟩ := by
      simpa using ends
    simp only [Level.only, Level.mk.injEq] at same
    obtain ⟨kind, rfl⟩ := same
    exact ⟨resolves.evaluate_only wellFormed, last.get segment.id, rfl,
      read_single wellFormed resolves final kind⟩

def feeds (tenant environment : String) : Listing :=
  { kind := .feed
    position := ((environments tenant).get environment).position.proceedTo .contains .feed
    scope := .manage }

theorem reached_feeds (tenant environment : String) :
    AnyView.Reached (.listing (feeds tenant environment)) :=
  @AnyView.Reached.along _ _ [.get environment, .follow .feeds] (reached_environments tenant) rfl

/-- A tenant comes with an environment, and that with a feed. -/
def settlement : List Step :=
  let tenant : Step :=
    .begin ⟨.create tenants { id := some "home", details := .tenant }, .tenants, rfl, rfl⟩
  let environment : Step :=
    .begin ⟨.create (environments "home") { id := some "live", details := .environment },
      reached_environments "home", rfl, rfl⟩
  let feed : Step :=
    .begin ⟨.create (feeds "home" "live") { id := some "f", details := .feed },
      reached_feeds "home" "live", rfl, rfl⟩
  [tenant, .draft 1, .settle 1, environment, .draft 2, .settle 2, feed, .draft 3, .settle 3]

/-- The feed is reached through all environments, and read by its ids; another is not found. -/
theorem settlement_resolves :
    let feed (id : String) : List Segment :=
      [⟨.tenant, "home"⟩, ⟨.environment, "live"⟩, ⟨.feed, id⟩]
    let way (id : String) : List Move :=
      [.get "home", .follow .environments, .get "live", .follow .feeds, .get id]
    let around : List Move := [.get "home", .follow .environments, .all, .follow .feeds, .get "f"]
    let inventory := ((start {} .counter).run settlement).inventory
    let outcome (single : Single) :=
      ((engine.read (single.entity inventory.settings)).run inventory).1
    ((start {} .counter).related settlement).Nodup ∧
      ∃ entity, entity.path.segments = feed "f" ∧
        (∃ view, around.foldlM AnyView.move? (.listing tenants) = some view ∧
          entity.path ∈ inventory.store.committed.evaluate view.position.query) ∧
        (∃ single, (way "f").foldlM AnyView.move? (.listing tenants) = some (.single single) ∧
          outcome single = .ok entity) ∧
        ∃ single error, (way "g").foldlM AnyView.move? (.listing tenants) = some (.single single) ∧
          outcome single = .error error ∧ error.family = .entityNotFound := by
  intro feed way around
  dsimp only
  have distinct : ((start {} .counter).related settlement).Nodup := by decide +kernel
  have along (legs : List (Facet × Option String)) :=
    @descent_resolves {} .counter settlement distinct (some "home") legs
  have facts : ((((start {} .counter).run settlement).inventory.shown? (feed "f")).any fun entity =>
      entity.path.segments = feed "f" &&
        ((start {} .counter).run settlement).inventory.store.committed.entities.contains
          entity.path) ∧
      (((start {} .counter).run settlement).inventory.shown? (feed "g")).isNone := by decide +kernel
  -- what the steps come to has been computed now
  generalize ((start {} .counter).run settlement).inventory = inventory at *
  obtain ⟨entity, visible, holds⟩ := (Option.any_eq_true _ _).mp facts.1
  obtain ⟨named, stored⟩ :
      entity.path.segments = feed "f" ∧
        inventory.store.committed.entities.contains entity.path := by
    simpa using holds
  refine ⟨distinct, entity, named, ?_, ?_, ?_⟩
  · obtain ⟨view, moved, resolves, -⟩ := along [(.environments, none), (.feeds, some "f")] rfl
    refine ⟨view, moved, (resolves entity.path).mpr ⟨stored, ?_⟩⟩
    rw [Path.Through, named]
    exact .cons ⟨rfl, by simp⟩ (.cons ⟨rfl, nofun⟩ (.cons ⟨rfl, by simp⟩ .nil))
  · obtain ⟨view, moved, -, picked⟩ := along [(.environments, some "live"), (.feeds, some "f")] rfl
    obtain ⟨-, single, rfl, read⟩ := picked (feed "f") rfl
    rw [visible] at read
    exact ⟨single, moved, read⟩
  · obtain ⟨view, moved, -, picked⟩ := along [(.environments, some "live"), (.feeds, some "g")] rfl
    obtain ⟨-, single, rfl, read⟩ := picked (feed "g") rfl
    rw [Option.isNone_iff_eq_none.mp facts.2] at read
    obtain ⟨error, refused, family⟩ := read
    exact ⟨single, error, moved, refused, family⟩

end Office

end Estate
