import Estate.Proofs.Serial.Elements
import Estate.Serial.Query

namespace Estate

open Serial (Reading Record lookup_ofFields list?_map tag?_key)
open Serial.Record

theorem Hop.ofJson?_toJson (hop : Hop) : Hop.ofJson? hop.toJson = some hop := by
  obtain ⟨name, direction, otherEnd⟩ := hop
  have distinct : (([("name", .text name), ("direction", direction.toJson)] ++
      Serial.fieldOfOption "other_end" Path.toJson otherEnd).map (·.1)).Nodup := by
    cases otherEnd <;> simp [Serial.fieldOfOption]
  have found := lookup_ofFields distinct
  refine Reads.read (.bind (reads_required (found "name") rfl) ?_)
  refine .bind (reads_required (found "direction") direction.ofJson?_toJson) ?_
  refine .bind ?_ (reads_pure _)
  refine reads_option Path.toJson ((found "other_end").trans ?_) (fun path _ => path.ofJson?_toJson)
    (fun _ => Json.noConfusion)
  cases otherEnd <;> rfl

def Step.values (step : Step) : List Value :=
  match step.filter with
  | .passes (.property _ values) => values
  | _ => []

theorem Test.ofJson?_toJson {test : Test}
    (plain : ∀ name values, test = .property name values → ∀ value ∈ values, value.Plain) :
    Test.ofJson? test.toJson = some test := by
  cases test with
  | kinds listed =>
    simp [toJson, ofJson?, Serial.variant?, list?_map fun kind _ => Kind.ofJson?_toJson kind]
  | ids listed =>
    simp [toJson, ofJson?, Serial.variant?, @list?_map _ .text Serial.text? listed fun _ _ => rfl]
  | paths listed =>
    simp [toJson, ofJson?, Serial.variant?, list?_map fun path _ => Path.ofJson?_toJson path]
  | property name values =>
    have each : ∀ value ∈ values, Value.ofJson? .direct value.toJson = some value :=
      fun value member => Value.ofJson?_toJson .direct (plain name values rfl value member)
    have found :=
      @lookup_ofFields [("name", .text name), ("values", .list (values.map Value.toJson))] (by simp)
    have reads : propertyRecord.Reads _ (.property name values) :=
      .bind (reads_required (found "name") rfl) <|
        .bind (reads_required (found "values") (list?_map each)) (reads_pure _)
    simpa [toJson, ofJson?, Serial.variant?, Json.ofFields] using reads.read

theorem Step.ofJson?_toJson {step : Step} (plain : ∀ value ∈ step.values, value.Plain) :
    Step.ofJson? step.toJson = some step := by
  obtain ⟨mode, filter⟩ := step
  have reads : Filter.ofJson? filter.toJson = some filter := by
    cases filter with
    | related hop => simp [Filter.toJson, Filter.ofJson?, Serial.variant?, Hop.ofJson?_toJson]
    | passes test =>
      have tests : Test.ofJson? test.toJson = some test :=
        Test.ofJson?_toJson fun name values same => by
        subst same
        exact plain
      simp [Filter.toJson, Filter.ofJson?, Serial.variant?, tests]
  cases mode <;> simp [toJson, ofJson?, Mode.key, Serial.variant?, reads]

namespace Query

mutual

def values : Query → List Value
  | mk steps branches => steps.flatMap Step.values ++ branchValues branches

def branchValues : List Query → List Value
  | [] => []
  | branch :: rest => values branch ++ branchValues rest

end

def Plain (query : Query) : Prop := ∀ value ∈ query.values, value.Plain

instance (query : Query) : Decidable query.Plain := inferInstanceAs (Decidable (∀ _ ∈ _, _))

theorem list?_steps {steps : List Step} (plain : ∀ value ∈ steps.flatMap Step.values, value.Plain) :
    Serial.list? Step.ofJson? (.list (steps.map Step.toJson)) = some steps :=
  list?_map fun step member => Step.ofJson?_toJson fun value holds =>
    plain value (List.mem_flatMap.mpr ⟨step, member, holds⟩)

mutual

theorem ofJson?_toJson {query : Query} (plain : query.Plain) :
    ofJson? query.toJson = some query := by
  obtain ⟨steps, branches⟩ := query
  simp only [Plain, values, List.forall_mem_append] at plain
  cases branches with
  | nil => simp [toJson, ofJson?, list?_steps plain.1, branchField?]
  | cons branch rest =>
    simp only [branchValues, List.forall_mem_append] at plain
    have first := ofJson?_toJson plain.2.1
    have others := branchItems?_branchesToJson plain.2.2
    simp [toJson, ofJson?, list?_steps plain.1, branchField?, branchList?, branchItems?,
      first, others]

theorem branchItems?_branchesToJson {branches : List Query}
    (plain : ∀ value ∈ branchValues branches, value.Plain) :
    branchItems? (branchesToJson branches) = some branches := by
  cases branches with
  | nil => rfl
  | cons branch rest =>
    simp only [branchValues, List.forall_mem_append] at plain
    have first := ofJson?_toJson plain.1
    have others := branchItems?_branchesToJson plain.2
    simp [branchesToJson, branchItems?, first, others]

end

/-- Branches are left out where there are none, and what is left out is read as none. -/
theorem toJson_leaf (steps : List Step) : (mk steps []).toJson.field? "sub_trees" = none := by
  simp [toJson, Json.field?]

end Query

namespace Blueprint

def Plain (blueprint : Blueprint) : Prop := blueprint.properties.Plain

instance (blueprint : Blueprint) : Decidable blueprint.Plain :=
  inferInstanceAs (Decidable (Properties.Plain _))

def fields (blueprint : Blueprint) : List (String × Json) :=
  ("kind", blueprint.kind.toJson) :: ("id", blueprint.id.elim .null .text) ::
    ("properties", blueprint.properties.toJson) :: blueprint.details.fields

theorem fields_distinct (blueprint : Blueprint) : (blueprint.fields.map (·.1)).Nodup := by
  obtain ⟨id, details, properties⟩ := blueprint
  cases details <;> simp [fields, Details.fields]

theorem Details.reads {blueprint : Blueprint} {fields : List (String × Json)}
    (found : ∀ name ≠ "kind", fields.lookup name = blueprint.fields.lookup name) :
    (Details.record blueprint.kind).Reads fields blueprint.details := by
  obtain ⟨id, details, properties⟩ := blueprint
  cases details with
  | tenant | environment | feed => exact reads_pure _
  | resourceType version =>
    exact .bind (reads_required (found "version" (by decide)) rfl) (reads_pure _)
  | resource type =>
    exact .bind (reads_required (found "resource_type_id" (by decide)) rfl) (reads_pure _)
  | metricType unit =>
    exact .bind (reads_defaulted (found "unit" (by decide)) (unit.ofJson?_toJson .again))
      (reads_pure _)
  | metric type =>
    exact .bind (reads_required (found "metric_type_id" (by decide)) rfl) (reads_pure _)

theorem ofJson?_toJson {blueprint : Blueprint} (plain : blueprint.Plain) :
    ofJson? blueprint.toJson = some blueprint := by
  have kind : blueprint.fields.lookup "kind" = some (.text blueprint.kind.key) := rfl
  obtain ⟨members, tagged, found⟩ := Serial.tagged?_ofFields blueprint.fields_distinct kind
    (tag?_key (by decide) blueprint.kind.mem_all .direct)
  have reads : (record blueprint.kind).Reads members blueprint :=
    .bind (reads_optional (found "id" (by decide)) (fun _ => rfl) (fun _ => Json.noConfusion)) <|
      .bind (Details.reads found) <|
        .bind (reads_defaulted (found "properties" (by decide))
          (Properties.ofJson?_toJson .again plain)) (reads_pure _)
  have laidOut : blueprint.toJson = .ofFields blueprint.fields := rfl
  simp [ofJson?, laidOut, tagged, reads.run]

end Blueprint

namespace Update

def Plain (update : Update) : Prop := ∀ properties ∈ update.properties, properties.Plain

instance (update : Update) : Decidable update.Plain := inferInstanceAs (Decidable (∀ _ ∈ _, _))

theorem ofJson?_toJson {update : Update} (plain : update.Plain) :
    ofJson? update.toJson = some update := by
  obtain ⟨properties, version, unit⟩ := update
  have distinct : ((Serial.fieldOfOption "properties" Properties.toJson properties ++
      Serial.fieldOfOption "version" .text version ++
        Serial.fieldOfOption "unit" Measure.toJson unit).map (·.1)).Nodup := by
    cases properties <;> cases version <;> cases unit <;> simp [Serial.fieldOfOption]
  have found := lookup_ofFields distinct
  have foundProperties : _ = properties.map Properties.toJson := (found "properties").trans <| by
    cases properties <;> cases version <;> cases unit <;> rfl
  have foundVersion : _ = version.map Json.text := (found "version").trans <| by
    cases properties <;> cases version <;> cases unit <;> rfl
  have foundUnit : _ = unit.map Measure.toJson := (found "unit").trans <| by
    cases properties <;> cases version <;> cases unit <;> rfl
  have readsProperties : ∀ set ∈ properties, Properties.ofJson? .direct set.toJson = some set :=
    fun set given => Properties.ofJson?_toJson .direct (plain set given)
  refine Reads.read (.bind (reads_option _ foundProperties readsProperties
    (fun _ => Json.noConfusion)) ?_)
  refine .bind (reads_option _ foundVersion (fun _ _ => rfl) (fun _ => Json.noConfusion)) ?_
  refine .bind ?_ (reads_pure _)
  exact reads_option _ foundUnit (fun unit _ => unit.ofJson?_toJson .direct)
    (fun _ => Json.noConfusion)

end Update

/--
Reading undoes writing for elements, queries, blueprints, updates and notices of plain values. No
relationship reads as an entity, and no entity as a relationship.
-/
theorem Serial.reading_undoes_writing :
    (∀ element : Element, element.Plain → Element.ofJson? element.toJson = some element) ∧
    (∀ query : Query, query.Plain → Query.ofJson? query.toJson = some query) ∧
    (∀ blueprint : Blueprint, blueprint.Plain →
      Blueprint.ofJson? blueprint.toJson = some blueprint) ∧
    (∀ update : Update, update.Plain → Update.ofJson? update.toJson = some update) ∧
    (∀ notice : Notice, notice.element.Plain → Notice.ofJson? notice.toJson = some notice) ∧
    (∀ rel : Relationship, ∀ entity, Element.ofJson? rel.toJson ≠ some (.entity entity)) ∧
    (∀ entity : Entity, ∀ rel, Element.ofJson? entity.toJson ≠ some (.relationship rel)) ∧
    (∀ update : Update,
      Update.ofJson? { update with properties := some ∅ }.toJson ≠
        Update.ofJson? { update with properties := none }.toJson) ∧
    ∀ steps : List Step, (Query.mk steps []).Plain →
      (Query.mk steps []).toJson.field? "sub_trees" = none ∧
      (Query.ofJson? (Query.mk steps []).toJson).map Query.branches = some [] := by
  refine ⟨fun _ => Element.ofJson?_toJson, fun _ => Query.ofJson?_toJson,
    fun _ => Blueprint.ofJson?_toJson, fun _ => Update.ofJson?_toJson,
      fun _ => Notice.ofJson?_toJson, ?_, ?_, ?_, ?_⟩
  · intro rel entity
    simp [Element.ofJson?, Entity.ofJson?_relationship]
  · intro entity rel
    simp only [Element.ofJson?, Relationship.ofJson?_entity, Option.map_none]
    split <;> simp
  · intro update
    have empty : { update with properties := some ∅ }.Plain := by
      rintro _ ⟨⟩
      exact Properties.plain_empty
    have without : { update with properties := none }.Plain := by
      rintro _ ⟨⟩
    rw [Update.ofJson?_toJson empty, Update.ofJson?_toJson without]
    simp
  · intro steps plain
    rw [Query.ofJson?_toJson plain]
    exact ⟨Query.toJson_leaf steps, rfl⟩

/-- Readings of a station, with a list in a map in the properties. -/
def readings : Properties :=
  Table.ofList
    [("spread", .map (.ofTable (Table.ofList
        [("unit", .null), ("bounds", .list [.float ⟨0x3FF8000000000000⟩, .int 2])]))),
      ("up", .bool true)]

def station : Entity where
  path := ⟨[⟨.tenant, "acme"⟩, ⟨.resourceType, "station"⟩], ⟨rfl, by decide, by decide⟩⟩
  details := .resourceType "2"
  properties := readings

def survey : Query :=
  .mk [⟨.filter, .property "spread" (.list [.float ⟨0⟩])⟩]
    [.line .path [.hop "feeds" .both], .empty]

theorem survey_read_back :
    Element.ofJson? (Element.entity station).toJson = some (.entity station) ∧
      Query.ofJson? survey.toJson = some survey ∧
      Blueprint.ofJson? (Blueprint.mk none (.metricType .bytes) readings).toJson =
        some ⟨none, .metricType .bytes, readings⟩ ∧
      Update.ofJson? (Update.mk (some readings) none (some .bytes)).toJson =
        some ⟨some readings, none, some .bytes⟩ ∧
      Notice.ofJson? (Notice.entity .updated station).toJson = some (.entity .updated station) ∧
      (Query.ofJson? (Query.mk survey.steps []).toJson).map Query.branches = some [] := by
  have plain : readings.Plain := by decide +kernel
  have asked : survey.Plain := by decide +kernel
  have steps : (Query.mk survey.steps []).Plain := by decide +kernel
  obtain ⟨elements, queries, blueprints, updates, notices, -, -, -, leaves⟩ :=
    Serial.reading_undoes_writing
  exact ⟨elements _ plain, queries _ asked, blueprints _ plain,
    updates _ fun _ given => Option.some.inj given ▸ plain, notices _ plain, (leaves _ steps).2⟩

end Estate
