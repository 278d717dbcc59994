import Estate.Proofs.Path.Text
import Estate.Proofs.Serial.Values
import Estate.Serial.Element

/-!
Entities, relationships and notices are read back from their trees. Elements carry no tag: an entity
is told from a relationship by its kind, and a relationship from an entity by its id.
-/
namespace Estate

open Serial (Reading Record lookup_ofFields oneOf?_key tag?_key)
open Serial.Record

theorem Path.ofJson?_toJson (path : Path) : Path.ofJson? path.toJson = some path := by
  simp [toJson, ofJson?, Serial.text?, parse_text, Except.toOption]

theorem Kind.ofJson?_toJson (kind : Kind) : Kind.ofJson? kind.toJson = some kind :=
  oneOf?_key (by decide) kind.mem_all .direct

theorem Measure.ofJson?_toJson (reading : Reading) (unit : Measure) :
    Measure.ofJson? reading unit.toJson = some unit :=
  oneOf?_key (by decide) (by cases unit <;> decide) reading

theorem Direction.ofJson?_toJson (direction : Direction) :
    Direction.ofJson? direction.toJson = some direction :=
  oneOf?_key (by decide) (by cases direction <;> decide) .direct

theorem Action.ofJson?_toJson (reading : Reading) (action : Action) :
    Action.ofJson? reading action.toJson = some action :=
  oneOf?_key (by decide) (by cases action <;> decide) reading

namespace Relationship

def Plain (rel : Relationship) : Prop := rel.properties.Plain

instance (rel : Relationship) : Decidable rel.Plain :=
  inferInstanceAs (Decidable (Properties.Plain _))

theorem ofJson?_toJson (reading : Reading) {rel : Relationship} (plain : rel.Plain) :
    ofJson? reading rel.toJson = some rel := by
  have found :=
    @lookup_ofFields [("id", .text rel.id), ("name", .text rel.name), ("source", rel.source.toJson),
      ("target", rel.target.toJson), ("properties", rel.properties.toJson)] (by simp)
  refine Reads.read (.bind (reads_required (found "id") rfl)
    (.bind (reads_required (found "name") rfl) ?_))
  refine .bind (reads_required (found "source") rel.source.ofJson?_toJson) ?_
  refine .bind (reads_required (found "target") rel.target.ofJson?_toJson) ?_
  exact .bind (reads_defaulted (found "properties") (Properties.ofJson?_toJson reading plain))
    (reads_pure rel)

end Relationship

namespace Entity

def Plain (entity : Entity) : Prop := entity.properties.Plain

instance (entity : Entity) : Decidable entity.Plain :=
  inferInstanceAs (Decidable (Properties.Plain _))

def fields (entity : Entity) : List (String × Json) :=
  ("kind", entity.details.kind.toJson) :: ("path", entity.path.toJson) ::
    ("properties", entity.properties.toJson) ::
    entity.details.fields

theorem toJson_eq (entity : Entity) : entity.toJson = .ofFields entity.fields := rfl

theorem fields_distinct (entity : Entity) : (entity.fields.map (·.1)).Nodup := by
  obtain ⟨path, details, properties⟩ := entity
  cases details <;> simp [fields, Details.fields]

theorem Details.reads {entity : Entity} {fields : List (String × Json)}
    (found : ∀ name ≠ "kind", fields.lookup name = entity.fields.lookup name) :
    (Details.record entity.details.kind).Reads fields entity.details := by
  obtain ⟨path, details, properties⟩ := entity
  cases details with
  | tenant | environment | feed => exact reads_pure _
  | resourceType version =>
    exact .bind (reads_required (found "version" (by decide)) rfl) (reads_pure _)
  | resource type =>
    exact .bind (reads_required (found "resource_type" (by decide)) type.ofJson?_toJson)
      (reads_pure _)
  | metricType unit =>
    exact .bind (reads_required (found "unit" (by decide)) (unit.ofJson?_toJson .again))
      (reads_pure _)
  | metric type =>
    exact .bind (reads_required (found "metric_type" (by decide)) type.ofJson?_toJson)
      (reads_pure _)

theorem ofJson?_toJson (reading : Reading) {entity : Entity} (plain : entity.Plain) :
    ofJson? reading entity.toJson = some entity := by
  have kind : entity.fields.lookup "kind" = some (.text entity.details.kind.key) := rfl
  obtain ⟨members, tagged, found⟩ := Serial.tagged?_ofFields entity.fields_distinct kind
    (tag?_key (by decide) entity.details.kind.mem_all reading)
  have reads : (record entity.details.kind).Reads members entity :=
    .bind (reads_required (found "path" (by decide)) entity.path.ofJson?_toJson) <|
      .bind (Details.reads found) <|
        .bind (reads_defaulted (found "properties" (by decide))
          (Properties.ofJson?_toJson .again plain)) (reads_pure _)
  simp [ofJson?, toJson_eq, tagged, reads.run]

/-- A relationship has no kind, so it never reads as an entity. -/
theorem ofJson?_relationship (reading : Reading) (rel : Relationship) :
    ofJson? reading rel.toJson = none := by
  have missing : (Table.ofList [("id", .text rel.id), ("name", .text rel.name),
      ("source", rel.source.toJson), ("target", rel.target.toJson),
      ("properties", rel.properties.toJson)]).entries.lookup "kind" = none :=
    lookup_ofFields (by simp) "kind"
  simp [ofJson?, Relationship.toJson, Json.ofFields, Serial.tagged?, missing]

end Entity

/-- An entity has no id of its own, so it never reads as a relationship. -/
theorem Relationship.ofJson?_entity (reading : Reading) (entity : Entity) :
    ofJson? reading entity.toJson = none := by
  have missing : (Table.ofList entity.fields).entries.lookup "id" = none := by
    rw [lookup_ofFields entity.fields_distinct]
    obtain ⟨path, details, properties⟩ := entity
    cases details <;> rfl
  simp [ofJson?, Record.read, Serial.Members.of?, Entity.toJson_eq, Json.ofFields, record,
    Record.run, Record.required, Record.member, missing, Bind.bind, StateT.bind]

namespace Element

def Plain : Element → Prop
  | entity e => e.Plain
  | relationship rel => rel.Plain

instance : (element : Element) → Decidable element.Plain
  | entity e => inferInstanceAs (Decidable e.Plain)
  | relationship rel => inferInstanceAs (Decidable rel.Plain)

theorem ofJson?_toJson {element : Element} (plain : element.Plain) :
    ofJson? element.toJson = some element := by
  cases element with
  | entity e => simp [toJson, ofJson?, Entity.ofJson?_toJson .tried plain]
  | relationship rel =>
    simp [toJson, ofJson?, Entity.ofJson?_relationship, Relationship.ofJson?_toJson .tried plain]

end Element

namespace Notice

theorem ofJson?_toJson {notice : Notice} (plain : notice.element.Plain) :
    ofJson? notice.toJson = some notice := by
  obtain ⟨action, element⟩ := notice
  have acts := action.ofJson?_toJson .again
  cases element with
  | entity e =>
    obtain ⟨members, tagged, found⟩ := @Serial.tagged?_ofFields _
      [("element", .text "entity"), ("action", action.toJson),
        ("entity", e.toJson)] _ "element" true
      (Serial.tag? [true, false] (bif · then "entity" else "relationship") .direct)
        (by simp) rfl rfl
    have reads : (record true).Reads members (Notice.entity action e) :=
      .bind (reads_required (found "action" (by decide)) acts) <|
        .bind (reads_required (found "entity" (by decide)) (Entity.ofJson?_toJson .again plain))
          (reads_pure _)
    simp [ofJson?, toJson, tagged, reads.run, Notice.entity]
  | relationship rel =>
    obtain ⟨members, tagged, found⟩ := @Serial.tagged?_ofFields _
      [("element", .text "relationship"), ("action", action.toJson),
        ("relationship", rel.toJson)] _ "element" false
      (Serial.tag? [true, false] (bif · then "entity" else "relationship") .direct)
        (by simp) rfl rfl
    have reads : (record false).Reads members (Notice.relationship action rel) :=
      .bind (reads_required (found "action" (by decide)) acts) <|
        .bind (reads_required (found "relationship" (by decide))
          (Relationship.ofJson?_toJson .again plain)) (reads_pure _)
    simp [ofJson?, toJson, tagged, reads.run, Notice.relationship]

end Notice

end Estate
