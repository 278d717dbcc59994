import Estate.Proofs.Path
import Estate.Revision

namespace Estate

variable {update other : Update}

/-- No field is set by both. -/
structure Update.Disjoint (update other : Update) : Prop where
  version : update.version = none ∨ other.version = none
  unit : update.unit = none ∨ other.unit = none
  properties : update.properties = none ∨ other.properties = none

namespace Entity

variable {entity revised : Entity} {path : Path} {blueprint : Blueprint}

theorem Details.kind_ofBlueprint {details : Blueprint.Details} {made : Details}
    (success : Details.ofBlueprint path details = .ok made) : made.kind = details.kind := by
  cases details with
  | tenant | environment | feed | resourceType version | metricType unit =>
    obtain rfl := Except.ok.inj success
    rfl
  | resource typeId | metric typeId =>
    obtain ⟨type, -, rfl⟩ := map_eq_ok_iff.mp (mapError_eq_ok_iff.mp success)
    rfl

theorem ofBlueprint_eq_ok_iff :
    ofBlueprint path blueprint = .ok entity ↔
      blueprint.kind = path.kind ∧
      ∃ details, Details.ofBlueprint path blueprint.details = .ok details ∧
        entity = { path, details, properties := blueprint.properties } := by
  simp only [ofBlueprint]
  split
  · rename_i same
    cases Details.ofBlueprint path blueprint.details <;> simp [Except.map, same, eq_comm]
  · rename_i other
    simp [other]

theorem path_ofBlueprint (success : ofBlueprint path blueprint = .ok entity) :
    entity.path = path := by
  obtain ⟨-, details, -, rfl⟩ := ofBlueprint_eq_ok_iff.mp success
  rfl

theorem kind_ofBlueprint (success : ofBlueprint path blueprint = .ok entity) :
    entity.details.kind = entity.path.kind := by
  obtain ⟨same, details, made, rfl⟩ := ofBlueprint_eq_ok_iff.mp success
  exact (Details.kind_ofBlueprint made).trans same

/-- Types are of the tenant that the entity is of. -/
theorem tenantId_type {type : Path} (success : ofBlueprint path blueprint = .ok entity)
    (typed : entity.type? = some type) : type.tenantId = path.tenantId := by
  obtain ⟨-, details, made, rfl⟩ := ofBlueprint_eq_ok_iff.mp success
  cases described : blueprint.details with
  | tenant | environment | feed | resourceType version | metricType unit =>
    rw [described] at made
    obtain rfl := Except.ok.inj made
    cases typed
  | resource typeId | metric typeId =>
    rw [described] at made
    obtain ⟨found, extended, rfl⟩ := map_eq_ok_iff.mp (mapError_eq_ok_iff.mp made)
    obtain rfl := Option.some.inj typed
    rw [Path.tenantId_extend extended, Path.tenantId_root]

def Details.patched (update : Update) : Details → Details
  | .resourceType version => .resourceType (update.version.getD version)
  | .metricType unit => .metricType (update.unit.getD unit)
  | details => details

theorem Details.kind_patched (update : Update) (details : Details) :
    (details.patched update).kind = details.kind := by
  cases details <;> rfl

/-- A revision replaces the fields that the update sets, if the kind has them. -/
theorem revise_eq_ok_iff :
    entity.revise update = .ok revised ↔
      (update.version.isSome → entity.details.kind = .resourceType) ∧
      (update.unit.isSome → entity.details.kind = .metricType) ∧
      revised = { entity with
        details := entity.details.patched update, properties :=
  update.properties.getD entity.properties } := by
  rcases entity with ⟨path, details, properties⟩
  rcases update with ⟨replaced, version, unit⟩
  cases details <;> cases version <;> cases unit <;> cases replaced <;>
    simp [revise, withVersion, withUnit, withProperties, Details.patched, Details.kind, bind,
      Except.bind, eq_comm]

theorem path_revise (success : entity.revise update = .ok revised) :
    revised.path = entity.path := by
  obtain ⟨-, -, rfl⟩ := revise_eq_ok_iff.mp success
  rfl

theorem kind_revise (success : entity.revise update = .ok revised) :
    revised.details.kind = entity.details.kind := by
  obtain ⟨-, -, rfl⟩ := revise_eq_ok_iff.mp success
  exact Details.kind_patched update entity.details

theorem Details.patched_disjoint {details : Details} (disjoint : update.Disjoint other)
    (same : details.patched other = (details.patched update).patched other) :
    details.patched update = details := by
  cases details with
  | resourceType version =>
    rcases disjoint.version with unset | unset
    · simp [patched, unset]
    · simpa [patched, unset] using same.symm
  | metricType unit =>
    rcases disjoint.unit with unset | unset
    · simp [patched, unset]
    · simpa [patched, unset] using same.symm
  | tenant | environment | feed | resource type | metric type => rfl

/-- Two updates that set no field in common both last only if the first changes nothing. -/
theorem revise_disjoint_iff {last : Entity} (disjoint : update.Disjoint other)
    (first : entity.revise update = .ok revised) (alone : entity.revise other = .ok last) :
    revised.revise other = .ok last ↔ revised = entity := by
  constructor
  · intro both
    obtain ⟨-, -, rfl⟩ := revise_eq_ok_iff.mp first
    obtain ⟨-, -, rfl⟩ := revise_eq_ok_iff.mp alone
    obtain ⟨-, -, same⟩ := revise_eq_ok_iff.mp both
    simp only [Entity.mk.injEq, true_and] at same
    have properties : update.properties.getD entity.properties = entity.properties := by
      rcases disjoint.properties with unset | unset
      · simp [unset]
      · simpa [unset] using same.2.symm
    rw [properties, Details.patched_disjoint disjoint same.1]
  · rintro rfl
    exact alone

/-- Whether an entity has the fields that an update sets: only resource types have a version, and
only metric types a unit. -/
structure Takes (entity : Entity) (update : Update) : Prop where
  version : update.version.isSome → entity.kind = .resourceType
  unit : update.unit.isSome → entity.kind = .metricType

/-- What an update leaves of an entity: what and where it is, and its type. The fields set are
replaced, the properties as a whole. -/
structure Amends (entity : Entity) (update : Update) (revised : Entity) : Prop where
  path : revised.path = entity.path
  kind : revised.details.kind = entity.details.kind
  type? : revised.type? = entity.type?
  properties : revised.properties = update.properties.getD entity.properties
  version : ∀ version, entity.details = .resourceType version →
    revised.details = .resourceType (update.version.getD version)
  unit : ∀ unit, entity.details = .metricType unit →
    revised.details = .metricType (update.unit.getD unit)

theorem amends_of_revise (success : entity.revise update = .ok revised) :
    entity.Amends update revised := by
  obtain ⟨-, -, rfl⟩ := revise_eq_ok_iff.mp success
  refine ⟨rfl, Details.kind_patched update entity.details, ?_, rfl, fun version given => ?_,
    fun unit given => ?_⟩
  · unfold type?
    cases entity.details <;> rfl
  · rw [given]
    rfl
  · rw [given]
    rfl

theorem takes_of_revise (kind : entity.details.kind = entity.path.kind)
    (success : entity.revise update = .ok revised) :
    entity.Takes update := by
  obtain ⟨version, unit, -⟩ := revise_eq_ok_iff.mp success
  exact ⟨fun set => kind.symm.trans (version set), fun set => kind.symm.trans (unit set)⟩

theorem Takes.revise_isOk (takes : entity.Takes update)
    (kind : entity.details.kind = entity.path.kind) :
    ∃ revised, entity.revise update = .ok revised :=
  ⟨_, revise_eq_ok_iff.mpr ⟨fun set => kind.trans (takes.version set),
    fun set => kind.trans (takes.unit set), rfl⟩⟩

/-- What has been updated the same update leaves as it is. -/
theorem revise_revised (success : entity.revise update = .ok revised) :
    revised.revise update = .ok revised := by
  obtain ⟨version, unit, rfl⟩ := revise_eq_ok_iff.mp success
  refine revise_eq_ok_iff.mpr ⟨?_, ?_, ?_⟩
  · rw [Details.kind_patched]
    exact version
  · rw [Details.kind_patched]
    exact unit
  · have patched : (entity.details.patched update).patched update =
        entity.details.patched update := by
      cases entity.details with
      | resourceType version => cases set : update.version <;> simp [Details.patched, set]
      | metricType unit => cases set : update.unit <;> simp [Details.patched, set]
      | tenant | environment | feed | resource type | metric type => rfl
    have properties : update.properties.getD (update.properties.getD entity.properties) =
        update.properties.getD entity.properties := by
      cases update.properties <;> rfl
    rw [patched, properties]

end Entity

structure Edge where
  name : String
  source : Path
  target : Path
  deriving DecidableEq

namespace Relationship

variable {rel revised : Relationship}

def edge (rel : Relationship) : Edge := ⟨rel.name, rel.source, rel.target⟩

theorem revise_eq_ok_iff :
    rel.revise update = .ok revised ↔
      update.isPropertiesOnly ∧ revised =
    { rel with properties := update.properties.getD rel.properties } := by
  simp only [revise]
  split
  · rename_i allowed
    simp [allowed, eq_comm]
  · rename_i refused
    simp [refused]

theorem revise_disjoint_iff {last : Relationship} (disjoint : update.Disjoint other)
    (first : rel.revise update = .ok revised) (alone : rel.revise other = .ok last) :
    revised.revise other = .ok last ↔ revised = rel := by
  constructor
  · intro both
    obtain ⟨-, rfl⟩ := revise_eq_ok_iff.mp first
    obtain ⟨-, rfl⟩ := revise_eq_ok_iff.mp alone
    obtain ⟨-, same⟩ := revise_eq_ok_iff.mp both
    simp only [Relationship.mk.injEq, true_and] at same
    rcases disjoint.properties with unset | unset
    · simp [unset]
    · rw [unset, Option.getD_none, Option.getD_none] at same
      rw [← same]
  · rintro rfl
    exact alone

theorem id_revise (success : rel.revise update = .ok revised) : revised.id = rel.id := by
  obtain ⟨-, rfl⟩ := revise_eq_ok_iff.mp success
  rfl

theorem edge_revise (success : rel.revise update = .ok revised) : revised.edge = rel.edge := by
  obtain ⟨-, rfl⟩ := revise_eq_ok_iff.mp success
  rfl

end Relationship

namespace Element

def handle : Element → Handle
  | .entity e => .entity e.path
  | .relationship rel => .relationship rel.id

def revise : Element → Update → Except Error Element
  | .entity e, update => (e.revise update).map .entity
  | .relationship rel, update => (rel.revise update).map .relationship

theorem revise_entity_eq_ok_iff {entity : Entity} {revised : Element} :
    (Element.entity entity).revise update = .ok revised ↔
      ∃ next, entity.revise update = .ok next ∧ revised = .entity next := by
  simp only [revise]
  cases entity.revise update <;> simp [Except.map, eq_comm]

theorem revise_relationship_eq_ok_iff {rel : Relationship} {revised : Element} :
    (Element.relationship rel).revise update = .ok revised ↔
      ∃ next, rel.revise update = .ok next ∧ revised = .relationship next := by
  simp only [revise]
  cases rel.revise update <;> simp [Except.map, eq_comm]

theorem handle_revise {element revised : Element} (success : element.revise update = .ok revised) :
    revised.handle = element.handle := by
  cases element with
  | entity entity =>
    obtain ⟨next, revises, rfl⟩ := revise_entity_eq_ok_iff.mp success
    exact congrArg Handle.entity (Entity.path_revise revises)
  | relationship rel =>
    obtain ⟨next, revises, rfl⟩ := revise_relationship_eq_ok_iff.mp success
    exact congrArg Handle.relationship (Relationship.id_revise revises)

theorem revise_disjoint_iff {element revised last : Element} (disjoint : update.Disjoint other)
    (first : element.revise update = .ok revised) (alone : element.revise other = .ok last) :
    revised.revise other = .ok last ↔ revised = element := by
  cases element with
  | entity entity =>
    obtain ⟨next, revises, rfl⟩ := revise_entity_eq_ok_iff.mp first
    obtain ⟨final, last, rfl⟩ := revise_entity_eq_ok_iff.mp alone
    simp [revise_entity_eq_ok_iff, Entity.revise_disjoint_iff disjoint revises last]
  | relationship rel =>
    obtain ⟨next, revises, rfl⟩ := revise_relationship_eq_ok_iff.mp first
    obtain ⟨final, last, rfl⟩ := revise_relationship_eq_ok_iff.mp alone
    simp [revise_relationship_eq_ok_iff, Relationship.revise_disjoint_iff disjoint revises last]

end Element

end Estate
