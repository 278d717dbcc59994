import Estate.Proofs.Graph.Frames
import Estate.Proofs.View.Tenancy
import Estate.Proofs.View.Undisturbed

/-!
Creations are exact. One goes through just when there is something to create below, its id is legal
and free there, and the type it asks for is there; it then adds the entity and the relationships
that tie it in, and nothing else.
-/
namespace Estate

open Script (AnyView)

namespace Path

variable {path : Path} {kind : Kind} {id : String}

/-- The segments of something of a kind and id below another, or at the top. -/
def below (above : Option Path) (kind : Kind) (id : String) : List Segment :=
  (above.elim [] (·.segments)) ++ [⟨kind, id⟩]

theorem last_below {above : Option Path} (segments : path.segments = below above kind id) :
    path.last = ⟨kind, id⟩ := by
  simp [last, segments, below]

theorem kind_below {above : Option Path} (segments : path.segments = below above kind id) :
    path.kind = kind :=
  congrArg Segment.kind (last_below segments)

end Path

/-- The type that a blueprint asks for, of the tenant that its entity is of. -/
def Blueprint.Details.type? : Blueprint.Details → Option Segment
  | .resource typeId => some ⟨.resourceType, typeId⟩
  | .metric typeId => some ⟨.metricType, typeId⟩
  | .tenant | .environment | .feed | .resourceType _ | .metricType _ => none

theorem Blueprint.Details.kind_of_type? {details : Details} {type : Segment}
    (asked : details.type? = some type) :
    details.kind ≠ .tenant ∧ details.kind ≠ type.kind := by
  cases details <;> cases asked <;> exact ⟨nofun, nofun⟩

/-- What is of a blueprint's details in an entity: all they say, with types by their paths in a
tenant. -/
inductive Entity.Details.Follows (tenant : Path) : Entity.Details → Blueprint.Details → Prop where
  | tenant : Follows tenant .tenant .tenant
  | environment : Follows tenant .environment .environment
  | feed : Follows tenant .feed .feed
  | resourceType (version : String) : Follows tenant (.resourceType version) (.resourceType version)
  | metricType (unit : Measure) : Follows tenant (.metricType unit) (.metricType unit)
  | resource {typeId : String} {type : Path}
      (typed : type.segments = Path.below tenant .resourceType typeId) :
      Follows tenant (.resource type) (.resource typeId)
  | metric {typeId : String} {type : Path}
      (typed : type.segments = Path.below tenant .metricType typeId) :
      Follows tenant (.metric type) (.metric typeId)

/-- Whether an entity has the fields that a blueprint gives it. -/
structure Entity.Follows (entity : Entity) (blueprint : Blueprint) : Prop where
  details : entity.details.Follows entity.path.root blueprint.details
  properties : entity.properties = blueprint.properties

namespace Listing

/-- What a listing creates below: tenants below nothing, and others below the first entity that the
listing lies under, if it lies under any. -/
def host? (listing : Listing) (graph : Graph) : Option (Option Path) :=
  if listing.kind = .tenant then some none
    else (graph.evaluate listing.position.source).head?.map some

/-- When an entity can be created under an id: there is something to create it below, its id is
legal, nothing is at its path, and what it asks for as its type is a type of its tenant. -/
structure MayCreate (listing : Listing) (graph : Graph) (blueprint : Blueprint) (id : String)
    (above : Option Path) :
    Prop where
  hosted : listing.host? graph = some above
  named : ValidId id
  free : graph.at? (Path.below above listing.kind id) = none
  typed : ∀ type, blueprint.details.type? = some type →
    ValidId type.id ∧ (graph.at? (Path.below (above.map Path.root) type.kind type.id)).isSome

/-- What a creation leaves: all that was there, the entity that the blueprint asks for at its path,
and what ties it in. It is contained in what it is below, and defined by its type if it has one. -/
structure Creates (listing : Listing) (graph : Graph) (blueprint : Blueprint) (id : String)
    (above : Option Path) (entity : Entity) (rels : List Relationship) (next : Graph) : Prop where
  placed : entity.path.segments = Path.below above listing.kind id
  follows : entity.Follows blueprint
  wired : rels.map (·.edge) =
    (above.map fun parent => Edge.containment parent entity.path).toList ++
    (entity.type?.map fun type => ⟨Reserved.defines.name, type, entity.path⟩).toList
  plain : ∀ rel ∈ rels, rel.properties = ∅
  gains : graph.Gains entity rels next

variable {listing : Listing} {graph : Graph} {blueprint : Blueprint} {id : String}
  {above : Option Path}

theorem parent?_eq :
    listing.parent? graph =
      (listing.host? graph).map (·.map fun path => (Handle.entity path, path)) := by
  unfold parent? host?
  split
  · rfl
  · rw [Option.map_map]
    rfl

theorem place_eq_ok_iff {path : Path} (top : above = none → listing.kind = .tenant) :
    listing.place (above.map fun path => (Handle.entity path, path)) id = .ok path ↔
      path.segments = Path.below above listing.kind id := by
  cases above with
  | none =>
    rw [top rfl]
    exact Path.tenant_eq_ok_iff
  | some parent => exact Path.extend_eq_ok_iff

theorem top_of_host? (hosted : listing.host? graph = some none) : listing.kind = .tenant := by
  unfold host? at hosted
  split at hosted
  · assumption
  · obtain ⟨path, -, same⟩ := Option.map_eq_some_iff.mp hosted
    cases same

theorem host?_eq_some_some_iff {parent : Path} :
    listing.host? graph = some (some parent) ↔
      listing.kind ≠ .tenant ∧ (graph.evaluate listing.position.source).head? = some parent := by
  unfold host?
  split
  · rename_i top
    simp [top]
  · rename_i below
    simp [below]

end Listing

namespace Entity

variable {path : Path} {blueprint : Blueprint} {entity : Entity}

theorem follows_of_ofBlueprint (made : ofBlueprint path blueprint = .ok entity) :
    entity.Follows blueprint := by
  obtain ⟨-, details, described, rfl⟩ := ofBlueprint_eq_ok_iff.mp made
  refine ⟨?_, rfl⟩
  dsimp only
  cases asked : blueprint.details with
  | tenant | environment | feed | resourceType version | metricType unit =>
    rw [asked] at described
    obtain rfl := Except.ok.inj described
    constructor
  | resource typeId | metric typeId =>
    rw [asked] at described
    obtain ⟨type, extended, rfl⟩ := map_eq_ok_iff.mp (mapError_eq_ok_iff.mp described)
    constructor
    exact Path.extend_eq_ok_iff.mp extended

/-- The type of an entity is the one that its blueprint asks for. -/
theorem Follows.type?_segments (follows : entity.Follows blueprint) :
    entity.type?.map (·.segments) =
      blueprint.details.type?.map fun type => Path.below entity.path.root type.kind type.id := by
  obtain ⟨details, -⟩ := follows
  unfold type?
  generalize entity.details = given, blueprint.details = asked at details ⊢
  cases details with
  | tenant | environment | feed | resourceType version | metricType unit => rfl
  | resource typed | metric typed => exact congrArg some typed

/-- A blueprint makes an entity at every path of its kind, unless the id of its type is illegal. -/
theorem ofBlueprint_isOk (kind : blueprint.kind = path.kind)
    (typed : ∀ type, blueprint.details.type? = some type → ValidId type.id) :
    ∃ entity, ofBlueprint path blueprint = .ok entity := by
  have extends_root (kind : Kind) {id : String} (fits : .tenant ∈ kind.parents)
      (named : ValidId id) :
      ∃ type, path.root.extend kind id = .ok type :=
    Path.extend_isOk named (by rwa [path.kind_root])
  have described : ∃ details, Details.ofBlueprint path blueprint.details = .ok details := by
    cases asked : blueprint.details with
    | tenant | environment | feed | resourceType version | metricType unit => exact ⟨_, rfl⟩
    | resource typeId =>
      rw [asked] at typed
      obtain ⟨type, extended⟩ := extends_root .resourceType (by decide) (typed _ rfl)
      exact ⟨_, mapError_eq_ok_iff.mpr (map_eq_ok_iff.mpr ⟨type, extended, rfl⟩)⟩
    | metric typeId =>
      rw [asked] at typed
      obtain ⟨type, extended⟩ := extends_root .metricType (by decide) (typed _ rfl)
      exact ⟨_, mapError_eq_ok_iff.mpr (map_eq_ok_iff.mpr ⟨type, extended, rfl⟩)⟩
  obtain ⟨details, described⟩ := described
  exact ⟨_, ofBlueprint_eq_ok_iff.mpr ⟨kind, details, described, rfl⟩⟩

/-- What ties an entity in leads to it. -/
theorem target_of_wiring {edge : Edge} (wire : edge ∈ entity.wiring) :
    edge.target = entity.path := by
  rcases List.mem_append.mp wire with above | defined
  · obtain ⟨parent, -, rfl⟩ := Option.map_eq_some_iff.mp (Option.mem_toList.mp above)
    rfl
  · obtain ⟨type, -, rfl⟩ := Option.map_eq_some_iff.mp (Option.mem_toList.mp defined)
    rfl

end Entity

/-- Containment leads from kinds that may contain what it leads to. -/
theorem Facet.fits {facet : Facet} {kind next : Kind}
    (way : facet.from? kind = some (.contains, next)) :
    kind ∈ next.parents := by
  cases kind <;> cases facet <;> simp only [Facet.from?, Option.some.injEq, Prod.mk.injEq,
    reduceCtorEq, false_and] at way
  all_goals
    obtain ⟨-, rfl⟩ := way
    decide

/-- What a listing lies under may contain what it creates. -/
theorem Script.AnyView.Obtained.fits {listing : Listing}
    (obtained : AnyView.Obtained (.listing listing)) (managed : listing.scope = .manage)
    {graph : Graph} {parent : Path} (hosted : listing.host? graph = some (some parent)) :
    parent.kind ∈ listing.kind.parents := by
  obtain ⟨below, first⟩ := Listing.host?_eq_some_some_iff.mp hosted
  cases obtained with
  | tenants => exact absurd rfl below
  | move obtained moved =>
    cases AnyView.moves_of_move? moved with
    | across way => cases managed
    | @along view facet name kind way =>
      obtain ⟨start, -, leads⟩ := Graph.mem_evaluate_iff.mp (List.mem_of_head? first)
      have above : parent.kind = view.kind := obtained.kind_of_leads leads
      rw [above]
      cases name with
      | contains => exact Facet.fits way
      | owns | defines => cases managed

namespace Listing

variable {settings : Settings} {listing : Listing} {graph : Graph} {blueprint : Blueprint}
  {id : String} {above : Option Path} {path : Path}

/-- A creation stores what was not there, and ties it in under new ids. -/
theorem gains_of_success {draft later : Draft} {result : Announced Path} (blank : draft.tx.log = [])
    (wellFormed : draft.tx.working.WellFormed) (once : (Change.inserted later.tx.log).Nodup)
    (fresh : ∀ id ∈ Change.inserted later.tx.log, draft.tx.working.relationships.find? id = none)
    (success : (listing.create settings blueprint).perform draft = (.ok result, later)) :
    ∃ entity rels, Entity.ofBlueprint entity.path blueprint = .ok entity ∧
      rels.map (·.edge) = entity.wiring ∧
      (∀ rel ∈ rels, rel.properties = ∅) ∧ draft.tx.working.entities.find? entity.path = none ∧
      draft.tx.working.Gains entity rels later.tx.working ∧ later.tx.working.WellFormed ∧
      result.value = entity.path ∧
      result.notices = .entity .created entity :: rels.map (.relationship .created) := by
  obtain ⟨entity, rels, made, wired, plain, value, notices, wrote⟩ :=
    wrote_of_create wellFormed.toKeyed success
  have inserted : Change.inserted later.tx.log = rels.map (·.id) := by
    rw [wrote.log, blank, List.nil_append, Change.inserted_cons, Change.inserted_insertions]
    rfl
  rw [inserted] at once fresh
  obtain ⟨gains, wellFormed'⟩ := wellFormed.gains_of_replay (Entity.kind_ofBlueprint made) once
    (fun rel member => fresh _ (List.mem_map_of_mem member)) wrote.replayed
  have absent : draft.tx.working.entities.find? entity.path = none :=
    (Graph.replay_cons_eq_ok_iff.mp wrote.replayed).1
  exact ⟨entity, rels, made, wired, plain, absent, gains, wellFormed', value, notices⟩

theorem wanted?_eq (naming : settings.feedNaming = fun _ proposed => proposed)
    (parent : Option (Handle × Path)) :
    listing.wanted? settings parent blueprint = blueprint.id := by
  unfold wanted?
  split
  · rw [naming]
  · rfl

/-- What has a type is of the tenant that it is created in. -/
theorem root_of_typed (kind : blueprint.kind = listing.kind)
    (hosted : listing.host? graph = some above)
    (placed : path.segments = Path.below above listing.kind id) {type : Segment}
    (asked : blueprint.details.type? = some type) : above.map Path.root = some path.root := by
  cases above with
  | none =>
    exact absurd (kind.trans (top_of_host? hosted)) (Blueprint.Details.kind_of_type? asked).1
  | some parent => exact congrArg some (Path.root_append placed).symm

section

variable (naming : settings.feedNaming = fun _ proposed => proposed)
  (asked : blueprint.id = some id)
include naming asked

/-- Where a creation under an id puts its entity. -/
theorem sites_iff :
    listing.Sites settings blueprint graph path ↔
      ∃ above, listing.host? graph = some above ∧
        path.segments = Path.below above listing.kind id := by
  simp only [Sites, parent?_eq, wanted?_eq naming, asked]
  constructor
  · rintro ⟨parent, other, reached, named, placed⟩
    obtain rfl := named id rfl
    obtain ⟨above, hosted, rfl⟩ := Option.map_eq_some_iff.mp reached
    exact ⟨above, hosted, (place_eq_ok_iff fun top => top_of_host? (top ▸ hosted)).mp placed⟩
  · rintro ⟨above, hosted, segments⟩
    refine ⟨_, id, Option.map_eq_some_iff.mpr ⟨above, hosted, rfl⟩, by simp, ?_⟩
    exact (place_eq_ok_iff fun top => top_of_host? (top ▸ hosted)).mpr segments

/-- What may be created nothing hinders. -/
theorem MayCreate.unhindered {error : Error} (may : listing.MayCreate graph blueprint id above)
    (fits : ∀ parent, above = some parent → parent.kind ∈ listing.kind.parents)
    (kind : blueprint.kind = listing.kind)
    (hinders : listing.Hinders settings blueprint graph error) : False := by
  have placed {path : Path} (sited : listing.Sites settings blueprint graph path) :
      path.segments = Path.below above listing.kind id := by
    obtain ⟨other, hosted, segments⟩ := (sites_iff naming asked).mp sited
    obtain rfl := Option.some.inj (may.hosted.symm.trans hosted)
    exact segments
  cases hinders with
  | unreached nowhere => simp [parent?_eq, may.hosted] at nowhere
  | @misplaced parent other fault reached named misfit =>
    rw [parent?_eq, may.hosted] at reached
    obtain rfl := Option.some.inj reached
    rw [wanted?_eq naming] at named
    rw [named id asked] at misfit
    obtain ⟨path, made⟩ : ∃ path, listing.place (above.map fun path => (Handle.entity path, path))
        id = .ok path := by
      cases above with
      | none => exact Path.tenant_isOk may.named
      | some parent => exact Path.extend_isOk may.named (fits parent rfl)
    rw [made] at misfit
    cases misfit
  | @present path sited stored =>
    obtain ⟨entity, found⟩ := (Table.contains_iff _ _).mp stored
    have taken := Graph.at?_eq_some_iff.mpr ⟨path, placed sited, found⟩
    rw [may.free] at taken
    cases taken
  | @unmade path error sited unmade =>
    have same : blueprint.kind = path.kind := kind.trans (Path.kind_below (placed sited)).symm
    obtain ⟨entity, made⟩ := Entity.ofBlueprint_isOk same fun type asks => (may.typed type asks).1
    rw [made] at unmade
    cases unmade
  | @untyped path type entity sited made typed absent =>
    obtain rfl := Entity.path_ofBlueprint made
    have asks := (Entity.follows_of_ofBlueprint made).type?_segments
    rw [typed] at asks
    obtain ⟨segment, asked, segments⟩ := Option.map_eq_some_iff.mp asks.symm
    have there := (may.typed segment asked).2
    rw [root_of_typed kind may.hosted (placed sited) asked] at there
    obtain ⟨entity, found⟩ := Option.isSome_iff_exists.mp there
    obtain ⟨path, same, stored⟩ := Graph.at?_eq_some_iff.mp found
    obtain rfl := Path.eq_of_segments (same.trans segments)
    rw [absent] at stored
    cases stored

/-- A creation under an id goes through only where it may, and leaves just what it should. -/
theorem creates_of_success {draft later : Draft} {result : Announced Path}
    (kind : blueprint.kind = listing.kind) (access : draft.tx.access = .readWrite)
    (blank : draft.tx.log = []) (wellFormed : draft.tx.working.WellFormed)
    (once : (Change.inserted later.tx.log).Nodup)
    (fresh : ∀ id ∈ Change.inserted later.tx.log, draft.tx.working.relationships.find? id = none)
    (success : (listing.create settings blueprint).perform draft = (.ok result, later)) :
    ∃ above entity rels, listing.MayCreate draft.tx.working blueprint id above ∧
      listing.Creates draft.tx.working blueprint id above entity rels later.tx.working ∧
      later.tx.working.WellFormed ∧ result.value = entity.path ∧
      result.notices = .entity .created entity :: rels.map (.relationship .created) := by
  obtain ⟨other, sited, -, same, -⟩ := (create_meets access wellFormed).of_ok success
  obtain ⟨entity, rels, made, wired, plain, absent, gains, wellFormed', value, notices⟩ :=
    gains_of_success blank wellFormed once fresh success
  rw [same.symm.trans value] at sited
  obtain ⟨above, hosted, placed⟩ := (sites_iff naming asked).mp sited
  have follows := Entity.follows_of_ofBlueprint made
  refine ⟨above, entity, rels, ⟨hosted, ?_, ?_, fun segment asks => ?_⟩,
    ⟨placed, follows, ?_, plain, gains⟩, wellFormed', value, notices⟩
  · have last : ⟨listing.kind, id⟩ ∈ entity.path.segments := by simp [placed, Path.below]
    exact entity.path.legal.named _ last
  · refine Option.eq_none_iff_forall_ne_some.mpr fun taken found => ?_
    obtain ⟨path, same, stored⟩ := Graph.at?_eq_some_iff.mp found
    rw [Path.eq_of_segments (same.trans placed.symm), absent] at stored
    cases stored
  · have typed := follows.type?_segments
    rw [asks] at typed
    obtain ⟨type, given, segments⟩ := Option.map_eq_some_iff.mp typed
    have last : segment ∈ type.segments := by simp [segments, Path.below]
    refine ⟨type.legal.named _ last, ?_⟩
    -- what defines the entity is stored along with it, and is not the entity itself
    obtain ⟨rel, member, edge⟩ : ∃ rel ∈ rels, rel.edge =
        ⟨Reserved.defines.name, type, entity.path⟩ := by
      refine List.mem_map.mp ?_
      rw [wired, Entity.wiring, given]
      simp
    have ends := (wellFormed'.ends ((gains.relationships _ rel).mpr (.inr ⟨member, rfl⟩))).1
    have apart : type ≠ entity.path := by
      rintro rfl
      have same : listing.kind = segment.kind :=
        (Path.kind_below placed).symm.trans (Path.kind_below segments)
      exact (Blueprint.Details.kind_of_type? asks).2 (kind.trans same)
    rw [gains.entities, show rel.source = type from congrArg Edge.source edge] at ends
    obtain ⟨stored, found⟩ := (Table.contains_iff _ _).mp ends
    rw [Table.find?_insert, if_neg (by simpa using apart)] at found
    rw [root_of_typed kind hosted placed asks]
    exact Option.isSome_iff_exists.mpr ⟨stored, Graph.at?_eq_some_iff.mpr ⟨type, segments, found⟩⟩
  · have up := up?_of_place ((place_eq_ok_iff fun top => top_of_host? (top ▸ hosted)).mpr placed)
    rw [wired, Entity.wiring, up, Option.map_map]
    simp [Function.comp_def]

end

theorem perform_parent (listing : Listing) (tx : Transaction) :
    ∃ outcome, ∀ ids, listing.parent.perform ⟨tx, ids⟩ = (outcome, ⟨tx, ids⟩) := by
  unfold parent
  by_cases top : listing.kind = .tenant
  · simp only [if_pos top]
    exact ⟨.ok none, fun _ => rfl⟩
  · simp only [if_neg top, Drafting.perform_bind, Drafting.perform_look, Drafting.perform_pure]
    cases first : Reading.first listing.position.source none tx with
    | error error => exact ⟨.error error, fun _ => rfl⟩
    | ok handle =>
      cases loaded : tx.convertEntity handle with
      | error error => exact ⟨.error error, fun _ => by simp only [loaded]⟩
      | ok entity => exact ⟨.ok (some (handle, entity.path)), fun _ => by simp only [loaded]⟩

/-- The id of a new entity: the blueprint's, or the one drawn next. -/
def entityId (blueprint : Blueprint) (ids : IdSource) : String := blueprint.id.getD ids.draw.1

/-- A creation is as one under the id that it gives its entity. -/
theorem create_withId (naming : settings.feedNaming = fun _ proposed => proposed)
    (listing : Listing) (blueprint : Blueprint) (draft : Draft) :
    ∃ ids, let named := blueprint.withId (entityId blueprint draft.ids)
      ((listing.create settings blueprint).perform draft).1 =
        ((listing.create settings named).perform ⟨draft.tx, ids⟩).1 ∧
        ((listing.create settings blueprint).perform draft).2.tx =
          ((listing.create settings named).perform ⟨draft.tx, ids⟩).2.tx := by
  obtain ⟨tx, ids⟩ := draft
  obtain ⟨reached, found⟩ := listing.perform_parent tx
  cases asked : blueprint.id with
  | some id =>
    refine ⟨ids, ?_⟩
    have same : blueprint.withId (entityId blueprint ids) = blueprint := by
      cases blueprint
      cases asked
      rfl
    rw [same]
    exact ⟨rfl, rfl⟩
  | none =>
    refine ⟨ids.draw.2, ?_⟩
    unfold create
    simp only [Drafting.perform_bind, found]
    cases reached with
    | error error => exact ⟨rfl, rfl⟩
    | ok parent =>
      have chosen : entityId blueprint ids = ids.draw.1 := by rw [entityId, asked, Option.getD_none]
      rw [chosen]
      simp only [chooseId_eq, wanted?_eq naming, asked, Blueprint.withId, Drafting.perform_draw,
        Drafting.perform_pure]
      exact ⟨rfl, rfl⟩

/-- A creation goes through just where it may, and leaves just what it should. -/
theorem creates_of_performed {draft later : Draft} {outcome : Except Error (Announced Path)}
    (obtained : AnyView.Obtained (.listing listing)) (managed : listing.scope = .manage)
    (kind : blueprint.kind = listing.kind)
    (naming : settings.feedNaming = fun _ proposed => proposed)
    (access : draft.tx.access = .readWrite) (blank : draft.tx.log = [])
    (wellFormed : draft.tx.working.WellFormed) (once : (Change.inserted later.tx.log).Nodup)
    (fresh : ∀ id ∈ Change.inserted later.tx.log, draft.tx.working.relationships.find? id = none)
    (performed : (listing.create settings blueprint).perform draft = (outcome, later)) :
    (∃ error, outcome = .error error ∧
        ∀ above, ¬listing.MayCreate draft.tx.working blueprint
          (entityId blueprint draft.ids) above) ∨
      ∃ result above entity rels, outcome = .ok result ∧
        listing.MayCreate draft.tx.working blueprint (entityId blueprint draft.ids) above ∧
        listing.Creates draft.tx.working blueprint (entityId blueprint draft.ids) above entity rels
          later.tx.working ∧
        later.tx.working.WellFormed ∧ result.value = entity.path ∧
        result.notices = .entity .created entity :: rels.map (.relationship .created) := by
  obtain ⟨ids, ended, left⟩ := create_withId naming listing blueprint draft
  rcases named : (listing.create settings (blueprint.withId (entityId blueprint draft.ids))).perform
    ⟨draft.tx, ids⟩
    with ⟨inner, last⟩
  rw [performed, named] at ended left
  dsimp only at ended left
  subst ended
  have asked : (blueprint.withId (entityId blueprint draft.ids)).id =
      some (entityId blueprint draft.ids) := rfl
  cases outcome with
  | error error =>
    refine .inl ⟨error, rfl, fun above may => ?_⟩
    have hinders := (@create_meets ⟨draft.tx, ids⟩ _ listing _ access wellFormed).of_error named
    refine MayCreate.unhindered naming asked ⟨may.hosted, may.named, may.free, may.typed⟩
      (fun parent within => ?_) kind
      hinders
    exact obtained.fits managed (within ▸ may.hosted)
  | ok result =>
    rw [left] at once fresh ⊢
    obtain ⟨above, entity, rels, may, creates, wellFormed', value, notices⟩ :=
      @creates_of_success settings listing _ _ naming asked ⟨draft.tx, ids⟩ last result kind access
        blank wellFormed once
        fresh named
    refine .inr ⟨result, above, entity, rels, rfl, ⟨may.hosted, may.named, may.free, may.typed⟩, ?_,
      wellFormed', value, notices⟩
    exact { creates with follows := ⟨creates.follows.details, creates.follows.properties⟩ }

theorem evaluate_created (listing : Listing) (stored : graph.entities.contains path) :
    graph.evaluate (listing.created path).position.query = [path] := by
  have reached (other : Path) : other ∈ graph.evaluate (listing.created path).position.query ↔
      other = path := by
    rw [Graph.mem_evaluate_iff]
    constructor
    · rintro ⟨start, -, leads⟩
      obtain ⟨rfl, same⟩ := Position.leads_anchor_iff.mp leads
      exact same
    · rintro rfl
      exact ⟨other, stored, Position.leads_anchor_iff.mpr ⟨rfl, rfl⟩⟩
  exact Graph.eq_singleton_of_pairwise (Graph.evaluate_pairwise _ _) ((reached path).mpr rfl)
    fun other member => (reached other).mp member

end Listing

namespace Office

namespace Passage.Undisturbed

variable {settings : Settings} {ids : IdSource} {before : List Event} {listing : Listing}
  {blueprint : Blueprint} {passage : Passage}

/-- What comes of a creation that nothing else is committed beside. -/
theorem creates (obtained : AnyView.Obtained (.listing listing)) (managed : listing.scope = .manage)
    (kind : blueprint.kind = listing.kind)
    (naming : settings.feedNaming = fun _ proposed => proposed) :
    let office := (start settings ids).undergoAll before
    let offer : Offer := ⟨.create listing blueprint, obtained.reached, managed, kind⟩
    let graph := office.inventory.store.committed
    let id := Listing.entityId blueprint (passage.opened office offer).inventory.ids
    let after := passage.aftermath office offer
    passage.Undisturbed office offer →
    ((start settings ids).trace drawn (before ++ passage.events office offer)).Nodup →
    (∃ error, (∀ above, ¬listing.MayCreate graph blueprint id above) ∧
      after.outcome = .error error ∧
        after.published = [] ∧ after.store.committed = graph) ∨
      ∃ above entity rels, listing.MayCreate graph blueprint id above ∧
        listing.Creates graph blueprint id above entity rels after.store.committed ∧
        after.store.committed.WellFormed ∧
        after.outcome = .ok (.view (listing.created entity.path)) ∧
        after.published = .entity .created entity :: rels.map (.relationship .created) := by
  intro office offer graph id after undisturbed distinct
  have wellFormed := (undisturbed.grounds distinct).1
  obtain ⟨outcome, later, performed, once, fresh, fails, succeeds⟩ := undisturbed.comes distinct rfl
  rcases Listing.creates_of_performed obtained managed kind naming rfl rfl wellFormed once fresh
    performed with
    ⟨error, failed, unfit⟩ | ⟨result, above, entity, rels, succeeded, may, creates, wellFormed',
      value, notices⟩
  · exact .inl ⟨error, unfit, fails error failed⟩
  · obtain ⟨yielded, published, left⟩ := succeeds result succeeded
    refine .inr ⟨above, entity, rels, may, left ▸ creates, left ▸ wellFormed', ?_,
      published.trans notices⟩
    rw [← value]
    exact yielded

/-- What a creation that has gone through has added: an entity that was not there, and relationships
into it. -/
theorem gained (offered : (Mutation.create listing blueprint).Offered) :
    let office := (start settings ids).undergoAll before
    let offer : Offer := ⟨.create listing blueprint, offered⟩
    let graph := office.inventory.store.committed
    let after := passage.aftermath office offer
    passage.Undisturbed office offer →
    ((start settings ids).trace drawn (before ++ passage.events office offer)).Nodup →
    ∀ view, after.outcome = .ok (.view view) →
      ∃ entity rels, view = listing.created entity.path ∧ graph.entities.find? entity.path = none ∧
        (∀ rel ∈ rels, rel.target = entity.path) ∧ graph.Gains entity rels after.store.committed ∧
        after.store.committed.WellFormed := by
  intro office offer graph after undisturbed distinct view handed
  have wellFormed := (undisturbed.grounds distinct).1
  obtain ⟨outcome, later, performed, once, fresh, fails, succeeds⟩ := undisturbed.comes distinct rfl
  cases outcome with
  | error error =>
    have failed := (fails error rfl).1
    rw [show after.outcome = _ from failed] at handed
    cases handed
  | ok result =>
    obtain ⟨yielded, -, left⟩ := succeeds result rfl
    obtain ⟨entity, rels, -, wired, -, absent, gains, wellFormed', value, -⟩ :=
      Listing.gains_of_success rfl wellFormed once fresh performed
    rw [show after.outcome = _ from yielded, value] at handed
    cases handed
    refine ⟨entity, rels, rfl, absent, fun rel member => ?_, left ▸ gains, left ▸ wellFormed'⟩
    have wire : rel.edge ∈ entity.wiring := wired ▸ List.mem_map_of_mem member
    exact Entity.target_of_wiring wire

end Passage.Undisturbed

/--
A creation that nothing else is committed beside is exact, as long as no id is given to two
relationships and feeds get the ids that they ask for. Unless its entity may be created, it fails,
and nothing is committed or published. Otherwise it succeeds; what is committed then is what it
should leave, what it publishes is the new entity and what ties it in, and the view that it hands
back reaches just the new entity.
-/
theorem creation_is_exact (settings : Settings) (ids : IdSource) (before : List Event)
    {listing : Listing} (blueprint : Blueprint) (obtained : AnyView.Obtained (.listing listing))
    (managed : listing.scope = .manage) (kind : blueprint.kind = listing.kind)
    (naming : settings.feedNaming = fun _ proposed => proposed) (passage : Passage) :
    let office := (start settings ids).undergoAll before
    let offer : Offer := ⟨.create listing blueprint, obtained.reached, managed, kind⟩
    let graph := office.inventory.store.committed
    let id := Listing.entityId blueprint (passage.opened office offer).inventory.ids
    let drafted := passage.drafted office offer
    let answer := drafted.answer? (.settle office.upcoming)
    let next := (drafted.step (.settle office.upcoming)).inventory.store.committed
    passage.Undisturbed office offer →
    ((start settings ids).trace drawn (before ++ passage.events office offer)).Nodup →
    (∃ error, (∀ above, ¬listing.MayCreate graph blueprint id above) ∧
      answer = some (.error error, []) ∧ next = graph) ∨
      ∃ above entity rels, listing.MayCreate graph blueprint id above ∧
        listing.Creates graph blueprint id above entity rels next ∧
        answer = some (.ok (), .entity .created entity :: rels.map (.relationship .created)) ∧
        (passage.aftermath office offer).outcome = .ok (.view (listing.created entity.path)) ∧
        next.evaluate (listing.created entity.path).position.query = [entity.path] := by
  intro office offer graph id drafted answer next undisturbed distinct
  obtain ⟨answered, committed⟩ := undisturbed.settles
  change answer = _ at answered
  change next = _ at committed
  rcases Passage.Undisturbed.creates obtained managed kind naming undisturbed distinct with
    ⟨error, unfit, outcome, published, same⟩ | ⟨above, entity, rels, may, creates, -, outcome,
      published⟩
  · refine .inl ⟨error, unfit, ?_, committed.trans same⟩
    rw [answered, outcome, published]
    rfl
  · refine .inr ⟨above, entity, rels, may, ?_, ?_, outcome, ?_⟩
    · rw [committed]
      exact creates
    · rw [answered, outcome, published]
      rfl
    · refine listing.evaluate_created ?_
      rw [committed, creates.gains.entities]
      simp

def household : List Event :=
  let tenant : Step :=
    .begin ⟨.create tenants { id := some "mill", details := .tenant }, .tenants, rfl, rfl⟩
  let environment : Step :=
    .begin ⟨.create (environments "mill") { id := some "yard", details := .environment },
      reached_environments "mill", rfl, rfl⟩
  let type : Step :=
    .begin ⟨.create (types "mill" .resourceType)
      { id := some "clock", details := .resourceType "1" }, reached_resourceTypes "mill", rfl, rfl⟩
  [tenant, .draft 1, .settle 1, environment, .draft 2, .settle 2, type, .draft 3,
    .settle 3].map .step

def inventoried (tenant environment : String) : Listing :=
  { kind := .resource
    position := ((environments tenant).get environment).position.proceedTo .contains .resource
    scope := .manage }

theorem obtained_environments (tenant : String) :
    AnyView.Obtained (.listing (environments tenant)) :=
  @AnyView.Obtained.move (.single (tenants.get tenant)) _ (.follow .environments)
    (@AnyView.Obtained.move (.listing tenants) _ (.get tenant) .tenants rfl) rfl

theorem obtained_inventoried (tenant environment : String) :
    AnyView.Obtained (.listing (inventoried tenant environment)) :=
  @AnyView.Obtained.move (.single ((environments tenant).get environment))
    _ (.follow .feedlessResources)
    (@AnyView.Obtained.move (.listing (environments tenant)) _ (.get environment)
      (obtained_environments tenant) rfl) rfl

/-- While a resource is created, others read, and try to delete what it is created below. -/
def overlap : Passage :=
  { first := [.read]
    second :=
      [.step (.begin ⟨.delete (environments "mill") "yard", reached_environments "mill", rfl⟩),
        .step (.draft 5)] }

theorem clock_created :
    let office := (start {} .counter).undergoAll household
    let listing := inventoried "mill" "yard"
    let blueprint : Blueprint := { id := none, details := .resource "clock" }
    let offer : Offer :=
      ⟨.create listing blueprint, (obtained_inventoried "mill" "yard").reached, rfl, rfl⟩
    overlap.Undisturbed office offer ∧
      ((start {} .counter).trace drawn (household ++ overlap.events office offer)).Nodup ∧
      ∃ above entity rels,
        listing.Creates office.inventory.store.committed blueprint
          (Listing.entityId blueprint (overlap.opened office offer).inventory.ids) above entity rels
          ((overlap.drafted office offer).step
            (.settle office.upcoming)).inventory.store.committed := by
  intro office listing blueprint offer
  have undisturbed : overlap.Undisturbed office offer := ⟨by decide +kernel, by decide +kernel⟩
  have distinct : ((start {} .counter).trace drawn (household ++
      overlap.events office offer)).Nodup := by
    decide +kernel
  refine ⟨undisturbed, distinct, ?_⟩
  have succeeds : ((overlap.drafted office offer).answer? (.settle office.upcoming)).map
      (·.1.toOption) =
      some (some ()) := by decide +kernel
  rcases creation_is_exact {} .counter household blueprint (obtained_inventoried "mill" "yard") rfl
    rfl rfl overlap
    undisturbed distinct with ⟨error, -, failed, -⟩ | ⟨above, entity, rels, -, creates, -⟩
  · rw [failed] at succeeds
    cases succeeds
  · subst offer listing office
    exact ⟨above, entity, rels, creates⟩

end Office

end Estate
