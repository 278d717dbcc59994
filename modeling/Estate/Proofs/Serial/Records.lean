import Estate.Serial

namespace Estate

namespace Table

variable {κ : Type u} {α : Type v} [Ord κ] [Std.TransOrd κ] [Std.LawfulEqOrd κ] [BEq κ]
  [LawfulBEq κ]

omit [Std.TransOrd κ] in
theorem lookup_eq (key : κ) (entries : List (κ × α)) : lookup key entries = entries.lookup key := by
  induction entries with
  | nil => rfl
  | cons entry rest ih =>
    obtain ⟨own, value⟩ := entry
    by_cases same : key = own
    · simp [lookup, same]
    · have differs : (key == own) = false := beq_eq_false_iff_ne.mpr same
      simp [lookup, List.lookup_cons, differs, same, ih]

theorem find?_insertAll {entries : List (κ × α)} (distinct : (entries.map (·.1)).Nodup)
    (table : Table κ α) (key : κ) :
    (table.insertAll entries).find? key = (entries.lookup key).or (table.find? key) := by
  induction entries generalizing table with
  | nil => rfl
  | cons entry rest ih =>
    obtain ⟨own, value⟩ := entry
    obtain ⟨fresh, distinct⟩ := List.nodup_cons.mp distinct
    have later := ih distinct (table.insert own value)
    simp only [insertAll, List.foldl_cons] at later ⊢
    rw [later, find?_insert]
    by_cases same : key = own
    · have missing : rest.lookup own = none := by
        rw [List.lookup_eq_none_iff]
        intro other member
        exact bne_iff_ne.mpr fun same => fresh (List.mem_map.mpr ⟨other, member, same.symm⟩)
      simp [same, missing]
    · have differs : (key == own) = false := beq_eq_false_iff_ne.mpr same
      simp [List.lookup_cons, same, differs]

theorem lookup_entries_ofList {entries : List (κ × α)} (distinct : (entries.map (·.1)).Nodup)
    (key : κ) :
    (ofList entries).entries.lookup key = entries.lookup key := by
  have found := find?_insertAll distinct empty key
  rw [find?, lookup_eq] at found
  simpa [ofList, find?, lookup, empty] using found

omit [Std.TransOrd κ] [BEq κ] [LawfulBEq κ] in
theorem distinct_keys (table : Table κ α) : (table.entries.map (·.1)).Nodup := by
  rw [List.Nodup, List.pairwise_map]
  refine table.ascending.imp fun {first second} before same => ?_
  simp [same] at before

omit [BEq κ] [LawfulBEq κ] in
/-- The entries of a table make it again. -/
theorem ofList_entries [DecidableEq κ] (table : Table κ α) : ofList table.entries = table :=
  ext fun key => by
  rw [find?, lookup_eq, lookup_entries_ofList table.distinct_keys, find?, lookup_eq]

end Table

namespace Serial

variable {α β : Type} {fields : List (String × Json)} {name : String} {json : Json}

theorem find?_key {all : List α} {key : α → String} (distinct : (all.map key).Nodup) {value : α}
    (listed : value ∈ all) :
    all.find? (key · == key value) = some value := by
  induction all with
  | nil => cases listed
  | cons first rest ih =>
    obtain ⟨fresh, distinct⟩ := List.nodup_cons.mp distinct
    rcases List.mem_cons.mp listed with rfl | later
    · simp
    · have differs : key first ≠ key value :=
        fun same => fresh (List.mem_map.mpr ⟨value, later, same.symm⟩)
      simp [differs, ih distinct later]

theorem oneOf?_key {all : List α} {key : α → String} (distinct : (all.map key).Nodup) {value : α}
    (listed : value ∈ all) (reading : Reading) :
    oneOf? all key reading (.text (key value)) = some value := by
  simp [oneOf?, variant?, isBare, find?_key distinct listed]

theorem tag?_key {all : List α} {key : α → String} (distinct : (all.map key).Nodup) {value : α}
    (listed : value ∈ all) (reading : Reading) :
    tag? all key reading (.text (key value)) = some value := find?_key distinct listed

theorem list?_map {toJson : α → Json} {read : Json → Option α} {items : List α}
    (each : ∀ item ∈ items, read (toJson item) = some item) :
    list? read (.list (items.map toJson)) = some items := by
  induction items with
  | nil => rfl
  | cons item rest ih =>
    obtain ⟨here, each⟩ := List.forall_mem_cons.mp each
    have rest := ih each
    simp only [list?] at rest
    simp [list?, here, rest]

theorem lookup_ofFields (distinct : (fields.map (·.1)).Nodup) (name : String) :
    (Table.ofList fields).entries.lookup name = fields.lookup name :=
  Table.lookup_entries_ofList distinct name

theorem lookup_filter_ne {tag : String} (differs : name ≠ tag) (fields : List (String × Json)) :
    (fields.filter (·.1 != tag)).lookup name = fields.lookup name := by
  induction fields with
  | nil => rfl
  | cons field rest ih =>
    obtain ⟨own, value⟩ := field
    by_cases atTag : own = tag
    · have other : (name == tag) = false := beq_eq_false_iff_ne.mpr differs
      simp [List.lookup_cons, atTag, ← ih, other]
    · simp [List.lookup_cons, atTag, ih]

/-- A tag is read, and the other fields are found as before. -/
theorem tagged?_ofFields {tag : String} {value : α} {read : Json → Option α}
    (distinct : (fields.map (·.1)).Nodup) (found : fields.lookup tag = some json)
    (reads : read json = some value) :
    ∃ rest, tagged? tag read (.ofFields fields) = some (value, .named rest) ∧
      ∀ name ≠ tag, rest.lookup name = fields.lookup name := by
  refine ⟨(Table.ofList fields).entries.filter (·.1 != tag), ?_, fun name differs => ?_⟩
  · simp only [tagged?, Json.ofFields, lookup_ofFields distinct, found, Option.bind_eq_bind,
      Option.bind_some, reads]
    rfl
  · rw [lookup_filter_ne differs, lookup_ofFields distinct]

namespace Record

/-- A record reads this value from these fields. -/
def Reads (record : Record α) (fields : List (String × Json)) (value : α) : Prop :=
  record (.named fields) = some (value, .named fields)

variable {value : α} {reader : Json → Option α}

theorem reads_pure (value : α) : Reads (pure value) fields value := rfl

theorem Reads.bind {record : Record α} {next : α → Record β} {result : β}
    (first : record.Reads fields value) (later : (next value).Reads fields result) :
    Reads (record >>= next) fields result := by
  simp only [Reads] at first later ⊢
  simp only [Bind.bind, StateT.bind, first, Option.bind_some]
  exact later

theorem reads_member {absent short : Option α} (found : fields.lookup name = some json)
    (reads : reader json = some value) :
    Reads (member name absent short reader) fields value := by
  simp [Reads, member, found, reads]

theorem reads_required (found : fields.lookup name = some json) (reads : reader json = some value) :
    Reads (required name reader) fields value := reads_member found reads

theorem reads_defaulted {default : α} (found : fields.lookup name = some json)
    (reads : reader json = some value) :
    Reads (defaulted name default reader) fields value := reads_member found reads

theorem reads_default (missing : fields.lookup name = none) (default : α) :
    Reads (defaulted name default reader) fields default := by
  simp [Reads, defaulted, member, missing]

theorem Reads.run {record : Record α} (reads : record.Reads fields value) :
    record.run (.named fields) = some value := by
  simp only [Reads] at reads
  simp [Record.run, reads]

theorem Reads.read {record : Record α} (reads : record.Reads fields value) :
    record.read (.object fields) = some value :=
  reads.run

theorem nullable_of_some (reads : reader json = some value) (present : json ≠ .null) :
    nullable reader json = some (some value) := by
  unfold nullable
  split
  · exact absurd rfl present
  · simp [reads]

theorem reads_optional {toJson : α → Json} {option : Option α}
    (found : fields.lookup name = some (option.elim .null toJson))
    (reads : ∀ value, reader (toJson value) = some value)
    (present : ∀ value, toJson value ≠ .null) :
    Reads (optional name reader) fields option := by
  refine reads_member found ?_
  cases option with
  | none => rfl
  | some value => exact nullable_of_some (reads value) (present value)

/-- A field left out for nothing reads as nothing. -/
theorem reads_option (toJson : α → Json) {option : Option α}
    (found : fields.lookup name = option.map toJson)
    (reads : ∀ value ∈ option, reader (toJson value) = some value)
    (present : ∀ value, toJson value ≠ .null) :
    Reads (defaulted name none (nullable reader)) fields option := by
  cases option with
  | none => exact reads_default found none
  | some value => exact reads_defaulted found (nullable_of_some (reads value rfl) (present value))

end Record

end Serial

end Estate
