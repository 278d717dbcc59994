import Estate.Double
import Estate.Double.Shortest
import Estate.Table

namespace Estate

/-- Entries in ascending order of their keys, which all come after a bound if there is one. -/
inductive Entries (α : Type) : Option String → Type
  | nil {bound : Option String} : Entries α bound
  | cons {bound : Option String} (key : String) (value : α) (rest : Entries α (some key))
      (after : ∀ lower ∈ bound, compare lower key = .lt) : Entries α bound
  deriving Repr

namespace Entries

variable {α : Type} {bound : Option String}

def toList {bound : Option String} : Entries α bound → List (String × α)
  | nil => []
  | cons key value rest _ => (key, value) :: rest.toList

theorem after_bound (entries : Entries α bound) :
    ∀ entry ∈ entries.toList, ∀ lower ∈ bound, compare lower entry.1 = .lt := by
  induction entries with
  | nil => nofun
  | cons key value rest after ih =>
    intro entry member lower given
    rcases List.mem_cons.mp member with rfl | later
    · exact after lower given
    · exact Std.TransCmp.lt_trans (after lower given) (ih entry later key rfl)

theorem ascending (entries : Entries α bound) :
    entries.toList.Pairwise fun a b => compare a.1 b.1 = .lt := by
  induction entries with
  | nil => exact .nil
  | cons key value rest after ih =>
    exact .cons (fun entry member => rest.after_bound entry member key rfl) ih

def toTable (entries : Entries α none) : Table String α := ⟨entries.toList, entries.ascending⟩

def ofAscending {bound : Option String} : (entries : List (String × α)) →
    (entries.Pairwise fun a b => compare a.1 b.1 = .lt) →
    (∀ entry ∈ entries, ∀ lower ∈ bound, compare lower entry.1 = .lt) → Entries α bound
  | [], _, _ => nil
  | (key, value) :: rest, ascending, after =>
    have above := List.pairwise_cons.mp ascending
    cons key value
      (ofAscending rest above.2 fun entry member _ same => Option.mem_some.mp same ▸
        above.1 entry member)
      (after (key, value) List.mem_cons_self)

def ofTable (table : Table String α) : Entries α none :=
  ofAscending table.entries table.ascending nofun

theorem ofAscending_toList (entries : Entries α bound) :
    ofAscending entries.toList entries.ascending entries.after_bound = entries := by
  induction entries with
  | nil => rfl
  | cons key value rest after ih => exact congrArg (cons key value · after) ih

@[simp]
theorem ofTable_toTable (entries : Entries α none) : ofTable entries.toTable = entries :=
  entries.ofAscending_toList

end Entries

inductive Value where
  | null
  | bool (b : Bool)
  | int (n : Int64)
  | float (x : Double)
  | text (s : String)
  | list (items : List Value)
  | map (entries : Entries Value none)
  deriving Repr

/-- Free-form data attached to an entity or a relationship. -/
abbrev Properties := Table String Value

namespace Value

instance : Inhabited Value := ⟨null⟩

/-- Quoted text; a quote inside it is escaped, and nothing else is. -/
def quote (s : String) : String :=
  "\"" ++ String.join (s.toList.map fun c => if c = '"' then "\\\"" else String.singleton c) ++ "\""

mutual

def render : Value → String
  | null => "null"
  | bool b => if b then "true" else "false"
  | int n => toString n.toInt
  | float x => x.text
  | text s => quote s
  | list items => "[" ++ ", ".intercalate (renderItems items) ++ "]"
  | map entries => "\x7b" ++ ", ".intercalate (renderEntries entries) ++ "\x7d"

def renderItems : List Value → List String
  | [] => []
  | item :: rest => render item :: renderItems rest

def renderEntries {bound : Option String} : Entries Value bound → List String
  | .nil => []
  | .cons key value rest _ => (key ++ ": " ++ render value) :: renderEntries rest

end

mutual

/--
Agreement of values, with floats compared as numbers: a value that holds a NaN does not agree
even with itself, and an integer agrees with no float.
-/
def same : Value → Value → Bool
  | null, null => true
  | bool a, bool b => a == b
  | int a, int b => a == b
  | float a, float b => a.sameNumber b
  | text a, text b => a == b
  | list as, list bs => sameItems as bs
  | map as, map bs => sameEntries as bs
  | _, _ => false

def sameItems : List Value → List Value → Bool
  | [], [] => true
  | a :: as, b :: bs => same a b && sameItems as bs
  | _, _ => false

def sameEntries {bound limit : Option String} : Entries Value bound → Entries Value limit → Bool
  | .nil, .nil => true
  | .cons key a as _, .cons other b bs _ => key == other && same a b && sameEntries as bs
  | _, _ => false

end

end Value

end Estate
