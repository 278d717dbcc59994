/-!
Finite tables kept as lists of entries in strictly ascending key order. The order makes equality
of tables the same thing as agreement of their lookups (`Table.ext`).
-/
namespace Estate

structure Table (κ : Type u) (α : Type v) [Ord κ] where
  entries : List (κ × α)
  ascending : entries.Pairwise fun a b => compare a.1 b.1 = .lt

namespace Table

variable {κ : Type u} {α : Type v} {β : Type w} [Ord κ]

def empty : Table κ α := ⟨[], .nil⟩

instance : EmptyCollection (Table κ α) := ⟨empty⟩
instance : Inhabited (Table κ α) := ⟨empty⟩

def size (table : Table κ α) : Nat := table.entries.length

def keys (table : Table κ α) : List κ := table.entries.map (·.1)

def values (table : Table κ α) : List α := table.entries.map (·.2)

/-- The value of the first entry whose key is `key`. -/
def lookup (key : κ) : List (κ × α) → Option α
  | [] => none
  | entry :: rest => if compare key entry.1 = .eq then some entry.2 else lookup key rest

def find? (table : Table κ α) (key : κ) : Option α := lookup key table.entries

def contains (table : Table κ α) (key : κ) : Bool := (table.find? key).isSome

/-- Puts an entry at its place in ascending order, over any entry of the same key. -/
def place (key : κ) (value : α) : List (κ × α) → List (κ × α)
  | [] => [(key, value)]
  | entry :: rest =>
    match compare key entry.1 with
    | .lt => (key, value) :: entry :: rest
    | .eq => (key, value) :: rest
    | .gt => entry :: place key value rest

theorem mem_place {key : κ} {value : α} {entry : κ × α} {entries : List (κ × α)}
    (member : entry ∈ place key value entries) : entry = (key, value) ∨ entry ∈ entries := by
  induction entries with
  | nil => simpa [place] using member
  | cons head rest ih =>
    simp only [place] at member
    split at member
    · simpa using member
    · rcases List.mem_cons.1 member with same | later
      · exact .inl same
      · exact .inr (List.mem_cons_of_mem _ later)
    · rcases List.mem_cons.1 member with same | later
      · exact .inr (same ▸ List.mem_cons_self)
      · exact (ih later).imp id (List.mem_cons_of_mem _)

theorem place_ascending [Std.TransOrd κ] [Std.LawfulEqOrd κ] {key : κ} {value : α}
    {entries : List (κ × α)} (sorted : entries.Pairwise fun a b => compare a.1 b.1 = .lt) :
    (place key value entries).Pairwise fun a b => compare a.1 b.1 = .lt := by
  induction entries with
  | nil => simp [place]
  | cons head rest ih =>
    obtain ⟨above, sorted⟩ := List.pairwise_cons.1 sorted
    simp only [place]
    split
    · rename_i before
      refine .cons (fun entry member => ?_) (.cons above sorted)
      rcases List.mem_cons.1 member with rfl | later
      · exact before
      · exact Std.TransCmp.lt_trans before (above entry later)
    · rename_i same
      obtain rfl := Std.LawfulEqCmp.eq_of_compare same
      exact .cons above sorted
    · rename_i after
      refine .cons (fun entry member => ?_) (ih sorted)
      rcases mem_place member with rfl | later
      · exact Std.OrientedCmp.lt_of_gt after
      · exact above entry later

variable [Std.TransOrd κ] [Std.LawfulEqOrd κ]

def insert (table : Table κ α) (key : κ) (value : α) : Table κ α :=
  ⟨place key value table.entries, place_ascending table.ascending⟩

omit [Std.TransOrd κ] [Std.LawfulEqOrd κ] in
theorem erase_ascending (table : Table κ α) (key : κ) :
    (table.entries.filter fun entry => compare key entry.1 != .eq).Pairwise
      fun a b => compare a.1 b.1 = .lt := table.ascending.filter _

omit [Std.TransOrd κ] [Std.LawfulEqOrd κ] in
def erase (table : Table κ α) (key : κ) : Table κ α :=
  ⟨table.entries.filter fun entry => compare key entry.1 != .eq, table.erase_ascending key⟩

def modify (table : Table κ α) (key : κ) (f : α → α) : Table κ α :=
  match table.find? key with
  | some value => table.insert key (f value)
  | none => table

/-- Puts every entry in turn; of several under one key the last stays. -/
def insertAll (table : Table κ α) (entries : List (κ × α)) : Table κ α :=
  entries.foldl (fun table entry => table.insert entry.1 entry.2) table

def ofList (entries : List (κ × α)) : Table κ α := empty.insertAll entries

omit [Std.TransOrd κ] [Std.LawfulEqOrd κ] in
@[simp]
theorem find?_empty (key : κ) : (∅ : Table κ α).find? key = none := rfl

omit [Std.TransOrd κ] in
theorem lookup_place (key other : κ) (value : α) (entries : List (κ × α)) :
    lookup other (place key value entries) =
      if compare other key = .eq then some value else lookup other entries := by
  induction entries with
  | nil => simp [place, lookup]
  | cons head rest ih =>
    simp only [place]
    split
    · simp [lookup]
    · rename_i same
      obtain rfl := Std.LawfulEqCmp.eq_of_compare same
      simp only [lookup]
      split <;> simp_all
    · rename_i after
      simp only [lookup, ih]
      by_cases atHead : compare other head.1 = .eq
      · obtain rfl := Std.LawfulEqCmp.eq_of_compare atHead
        have differs : compare head.1 key ≠ .eq := by
          intro same
          obtain rfl := Std.LawfulEqCmp.eq_of_compare same
          simp at after
        simp [differs]
      · simp [atHead]

@[simp]
theorem find?_insert (table : Table κ α) (key other : κ) (value : α) :
    (table.insert key value).find? other =
      if compare other key = .eq then some value else table.find? other :=
  lookup_place key other value table.entries

@[simp]
theorem find?_erase (table : Table κ α) (key other : κ) :
    (table.erase key).find? other =
      if compare other key = .eq then none else table.find? other := by
  obtain ⟨entries, sorted⟩ := table
  simp only [erase, find?]
  induction entries with
  | nil => simp [lookup]
  | cons head rest ih =>
    have ih := ih (List.pairwise_cons.1 sorted).2
    by_cases atHead : compare key head.1 = .eq
    · obtain rfl := Std.LawfulEqCmp.eq_of_compare atHead
      simp only [List.filter_cons, Std.ReflCmp.compare_self, bne_self_eq_false]
      rw [if_neg (by simp), ih]
      by_cases same : compare other head.1 = .eq <;> simp [lookup, same]
    · simp only [List.filter_cons, bne_iff_ne, ne_eq, atHead, not_false_eq_true, ↓reduceIte,
        lookup, ih]
      by_cases here : compare other head.1 = .eq
      · obtain rfl := Std.LawfulEqCmp.eq_of_compare here
        have differs : compare head.1 key ≠ .eq := fun same => atHead (Std.OrientedCmp.eq_symm same)
        simp [differs]
      · simp [here]

@[simp]
theorem find?_modify (table : Table κ α) (key other : κ) (f : α → α) :
    (table.modify key f).find? other =
      if compare other key = .eq then (table.find? other).map f else table.find? other := by
  unfold modify
  split
  · rename_i value found
    by_cases same : compare other key = .eq
    · obtain rfl := Std.LawfulEqCmp.eq_of_compare same
      simp [found]
    · simp [same]
  · rename_i missing
    by_cases same : compare other key = .eq
    · obtain rfl := Std.LawfulEqCmp.eq_of_compare same
      simp [missing]
    · simp [same]

omit [Std.TransOrd κ] [Std.LawfulEqOrd κ] in
theorem contains_iff (table : Table κ α) (key : κ) :
    table.contains key = true ↔ ∃ value, table.find? key = some value := Option.isSome_iff_exists

omit [Std.TransOrd κ] [Std.LawfulEqOrd κ] in
theorem contains_eq_false_iff (table : Table κ α) (key : κ) :
    table.contains key = false ↔ table.find? key = none := by
  simp [contains]

@[simp]
theorem contains_insert (table : Table κ α) (key other : κ) (value : α) :
    (table.insert key value).contains other =
      (compare other key == .eq || table.contains other) := by
  simp only [contains, find?_insert]
  split <;> simp_all

@[simp]
theorem contains_erase (table : Table κ α) (key other : κ) :
    (table.erase key).contains other = (compare other key != .eq && table.contains other) := by
  simp only [contains, find?_erase]
  split <;> simp_all

omit [Std.TransOrd κ] in
theorem mem_of_lookup {key : κ} {value : α} {entries : List (κ × α)}
    (found : lookup key entries = some value) : (key, value) ∈ entries := by
  induction entries with
  | nil => simp [lookup] at found
  | cons head rest ih =>
    simp only [lookup] at found
    split at found
    · rename_i same
      obtain rfl := Std.LawfulEqCmp.eq_of_compare same
      exact Option.some.inj found ▸ List.mem_cons_self
    · exact List.mem_cons_of_mem _ (ih found)

omit [Std.TransOrd κ] in
theorem lookup_of_mem {key : κ} {value : α} {entries : List (κ × α)}
    (sorted : entries.Pairwise fun a b => compare a.1 b.1 = .lt)
    (member : (key, value) ∈ entries) : lookup key entries = some value := by
  induction entries with
  | nil => simp at member
  | cons head rest ih =>
    obtain ⟨above, sorted⟩ := List.pairwise_cons.1 sorted
    rcases List.mem_cons.1 member with rfl | later
    · simp [lookup]
    · have differs : compare key head.1 ≠ .eq := by
        intro same
        obtain rfl := Std.LawfulEqCmp.eq_of_compare same
        simpa using above _ later
      simp [lookup, differs, ih sorted later]

omit [Std.TransOrd κ] in
theorem mem_entries_iff (table : Table κ α) (key : κ) (value : α) :
    (key, value) ∈ table.entries ↔ table.find? key = some value :=
  ⟨lookup_of_mem table.ascending, mem_of_lookup⟩

theorem entries_eq_of_mem_iff {left right : List (κ × α)}
    (leftSorted : left.Pairwise fun a b => compare a.1 b.1 = .lt)
    (rightSorted : right.Pairwise fun a b => compare a.1 b.1 = .lt)
    (same : ∀ entry, entry ∈ left ↔ entry ∈ right) : left = right := by
  induction left generalizing right with
  | nil =>
    cases right with
    | nil => rfl
    | cons head rest => simpa using (same head).2 List.mem_cons_self
  | cons head rest ih =>
    cases right with
    | nil => simpa using (same head).1 List.mem_cons_self
    | cons other others =>
      obtain ⟨above, leftTail⟩ := List.pairwise_cons.1 leftSorted
      obtain ⟨otherAbove, rightTail⟩ := List.pairwise_cons.1 rightSorted
      have heads : head = other := by
        rcases List.mem_cons.1 ((same head).1 List.mem_cons_self) with equal | later
        · exact equal
        · rcases List.mem_cons.1 ((same other).2 List.mem_cons_self) with equal | otherLater
          · exact equal.symm
          · have cycle := Std.TransCmp.lt_trans (above _ otherLater) (otherAbove _ later)
            simp at cycle
      subst heads
      congr 1
      refine ih leftTail rightTail fun entry => ⟨fun member => ?_, fun member => ?_⟩
      · rcases List.mem_cons.1 ((same entry).1 (List.mem_cons_of_mem _ member)) with rfl | later
        · simpa using above _ member
        · exact later
      · rcases List.mem_cons.1 ((same entry).2 (List.mem_cons_of_mem _ member)) with rfl | later
        · simpa using otherAbove _ member
        · exact later

theorem ext {left right : Table κ α} (same : ∀ key, left.find? key = right.find? key) :
    left = right := by
  have entries : left.entries = right.entries :=
    entries_eq_of_mem_iff left.ascending right.ascending fun entry => by
      rw [mem_entries_iff, mem_entries_iff, same]
  cases left
  cases right
  simp_all

theorem insert_of_find? {table : Table κ α} {key : κ} {value : α}
    (found : table.find? key = some value) :
    table.insert key value = table := ext fun other => by
  rw [find?_insert]
  split
  · rename_i same
    obtain rfl := Std.LawfulEqCmp.eq_of_compare same
    exact found.symm
  · rfl

theorem insert_insert (table : Table κ α) (key : κ) (value last : α) :
    (table.insert key value).insert key last = table.insert key last := ext fun other => by
  simp only [find?_insert]
  split <;> rfl

end Table

end Estate
