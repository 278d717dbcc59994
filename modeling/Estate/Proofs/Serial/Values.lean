import Estate.Proofs.Serial.Records
import Estate.Serial.Value

namespace Estate.Value

variable {items : List Value} {fields : List (String × Value)} {bound : Option String}

/-- What holds of scalars, and of lists and maps if it holds of what they hold, holds of all values.
-/
theorem depth_induction {holds : Value → Prop} (null : holds null) (bool : ∀ b, holds (bool b))
    (int : ∀ n, holds (int n)) (float : ∀ x, holds (float x)) (text : ∀ s, holds (text s))
    (list : ∀ items, (∀ item ∈ items, holds item) → holds (list items))
    (map : ∀ entries, (∀ entry ∈ entries.toList, holds entry.2) → holds (map entries))
    (value : Value) : holds value := by
  refine @Value.rec holds (fun items => ∀ item ∈ items, holds item)
    (fun _ entries => ∀ entry ∈ entries.toList, holds entry.2)
    null bool int float text list map ?_ ?_ ?_ ?_ value
  · exact fun _ => nofun
  · exact fun item rest first others => List.forall_mem_cons.mpr ⟨first, others⟩
  · exact fun _ => nofun
  · exact fun key value rest after first others => List.forall_mem_cons.mpr ⟨first, others⟩

mutual

/-- No float in it, at any depth, is past all numbers. -/
def isFinite : Value → Bool
  | float x => x.isFinite
  | list items => areFinite items
  | map entries => holdFinite entries
  | _ => true

def areFinite : List Value → Bool
  | [] => true
  | item :: rest => isFinite item && areFinite rest

def holdFinite {bound : Option String} : Entries Value bound → Bool
  | .nil => true
  | .cons _ value rest _ => isFinite value && holdFinite rest

end

def Plain (value : Value) : Prop := value.isFinite

instance (value : Value) : Decidable value.Plain := inferInstanceAs (Decidable (_ = _))

theorem plain_list_iff : (list items).Plain ↔ ∀ item ∈ items, item.Plain := by
  show areFinite items ↔ _
  induction items with
  | nil => simp [areFinite]
  | cons item rest ih => simp [areFinite, ih, Plain]

theorem plain_map_iff {entries : Entries Value none} :
    (map entries).Plain ↔ ∀ entry ∈ entries.toList, entry.2.Plain := by
  have each {bound : Option String} (entries : Entries Value bound) :
      holdFinite entries ↔ ∀ entry ∈ entries.toList, entry.2.Plain := by
    induction entries with
    | nil => simp [holdFinite, Entries.toList]
    | cons key value rest after ih => simp [holdFinite, Entries.toList, ih, Plain]
  exact each entries

theorem integer?_toInt (n : Int64) : integer? n.toInt = some n := by
  rw [integer?, if_pos ⟨n.minValue_le_toInt, n.toInt_le⟩, Int64.ofInt_toInt]

theorem shape?_key (reading : Serial.Reading) (shape : Shape) (rest : List (String × Json)) :
    shape? reading (("type", .text shape.key) :: rest) = some shape := by
  have listed : shape ∈ Shape.all := by cases shape <;> decide
  simpa [shape?] using Serial.oneOf?_key (by decide) listed reading

theorem ofJson?_typed (reading : Serial.Reading) (shape : Shape) (content : Json) :
    ofJson? reading (typed shape content) = ofContent? reading shape content := by
  simp [typed, ofJson?, shape?_key, ofContentField?]

theorem ofItems?_toJsonItems {reading : Serial.Reading}
    (each : ∀ item ∈ items, ofJson? reading item.toJson = some item) :
    ofItems? reading (toJsonItems items) = some items := by
  induction items with
  | nil => rfl
  | cons item rest ih =>
    obtain ⟨here, each⟩ := List.forall_mem_cons.mp each
    simp [toJsonItems, ofItems?, here, ih each]

theorem ofFields?_toJsonFields {reading : Serial.Reading}
    (each : ∀ field ∈ fields, ofJson? reading field.2.toJson = some field.2) :
    ofFields? reading (toJsonFields fields) = some fields := by
  induction fields with
  | nil => rfl
  | cons field rest ih =>
    obtain ⟨here, each⟩ := List.forall_mem_cons.mp each
    have later : ofFields? reading (rest.map fun field => (field.1, field.2.toJson)) = some rest :=
      ih each
    simp [toJsonFields, ofFields?, here, later]

theorem toJsonEntries_eq (entries : Entries Value bound) :
    toJsonEntries entries = toJsonFields entries.toList := by
  induction entries with
  | nil => rfl
  | cons key value rest after ih => exact congrArg ((key, value.toJson) :: ·) ih

theorem ofJson?_toJson (reading : Serial.Reading) {value : Value} (plain : value.Plain) :
    ofJson? reading value.toJson = some value := by
  induction value using depth_induction with
  | null => simp [toJson, ofJson?, shape?_key, ofContentField?]
  | bool b => simp [toJson, ofJson?_typed, ofContent?]
  | int n => simp [toJson, ofJson?_typed, ofContent?, integer?_toInt]
  | float x =>
    have finite : x.isFinite := plain
    simp [toJson, finite, ofJson?_typed, ofContent?]
  | text s => simp [toJson, ofJson?_typed, ofContent?]
  | list items ih =>
    have each :=
      ofItems?_toJsonItems fun item member => ih item member (plain_list_iff.mp plain item member)
    simp [toJson, ofJson?_typed, ofContent?, each]
  | map entries ih =>
    have each := ofFields?_toJsonFields fun entry member =>
      ih entry member (plain_map_iff.mp plain entry member)
    have again : Table.ofList entries.toList = entries.toTable := entries.toTable.ofList_entries
    simp [toJson, ofJson?_typed, ofContent?, toJsonEntries_eq, each, again]

end Estate.Value

namespace Estate.Properties

def Plain (properties : Properties) : Prop := ∀ value ∈ properties.values, value.Plain

instance (properties : Properties) : Decidable properties.Plain :=
  inferInstanceAs (Decidable (∀ _ ∈ _, _))

theorem plain_empty : Plain ∅ := by
  simp [Plain, Table.values, EmptyCollection.emptyCollection, Table.empty]

theorem ofJson?_toJson (reading : Serial.Reading) {properties : Properties}
    (plain : properties.Plain) :
    ofJson? reading properties.toJson = some properties := by
  have each := Value.ofFields?_toJsonFields fun entry (member : entry ∈ properties.entries) =>
    Value.ofJson?_toJson reading (plain entry.2 (List.mem_map.mpr ⟨entry, member, rfl⟩))
  simp [toJson, ofJson?, each, Table.ofList_entries]

end Estate.Properties
