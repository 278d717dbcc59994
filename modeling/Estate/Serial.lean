import Estate.Json

/-!
How data is laid out in trees. Records are objects, or lists of their members in order; variants are
texts, or objects of one field. Unknown fields are passed over.
-/
namespace Estate.Serial

/--
Whether a tree is read as it came, or from what was set aside: to try one shape after another on it,
or while a tag was looked for. From what was set aside, a tag may also be given by its position;
once a tag was found, a bare variant may also carry an empty object.
-/
inductive Reading where
  | direct
  | tried
  | again
  deriving DecidableEq, Repr

inductive Members where
  | named (fields : List (String × Json))
  | ordered (items : List Json)

def Members.of? : Json → Option Members
  | .object fields => some (.named fields)
  | .list items => some (.ordered items)
  | _ => none

/-- Reads members one after another, in the order in which lists hold them. -/
abbrev Record (α : Type) := StateT Members Option α

namespace Record

/-- A member that reads as `absent` where an object lacks it, and as `short` where a list ends
before it. -/
def member (name : String) (absent short : Option α) (read : Json → Option α) : Record α :=
  fun members =>
  match members with
  | .named fields =>
    match fields.lookup name with
    | some value => (read value).map (·, members)
    | none => absent.map (·, members)
  | .ordered (value :: rest) => (read value).map (·, .ordered rest)
  | .ordered [] => short.map (·, members)

def required (name : String) (read : Json → Option α) : Record α := member name none none read

def defaulted (name : String) (default : α) (read : Json → Option α) : Record α :=
  member name (some default) (some default) read

/-- Null reads as nothing. -/
def nullable (read : Json → Option α) : Json → Option (Option α)
  | .null => some none
  | value => (read value).map some

/-- A member that objects may leave out. -/
def optional (name : String) (read : Json → Option α) : Record (Option α) :=
  member name (some none) none (nullable read)

/-- Reads a whole record; a list may not hold more than its members. -/
def run (record : Record α) (members : Members) : Option α :=
  match record members with
  | some (_, .ordered (_ :: _)) => none
  | some (value, _) => some value
  | none => none

def read (record : Record α) (json : Json) : Option α := (Members.of? json).bind record.run

end Record

def text? : Json → Option String
  | .text s => some s
  | _ => none

def word? : Json → Option UInt64
  | .int n => if 0 ≤ n ∧ n < UInt64.size then some (UInt64.ofNat n.toNat) else none
  | _ => none

def list? (read : Json → Option α) : Json → Option (List α)
  | .list items => items.mapM read
  | _ => none

/-- A variant: its name, and what it carries. -/
def variant? : Json → Option (String × Option Json)
  | .text name => some (name, none)
  | .object [(name, carried)] => some (name, some carried)
  | _ => none

/-- Whether a bare variant may carry this. -/
def isBare (reading : Reading) : Option Json → Bool
  | none => true
  | some .null => true
  | some (.object []) => reading = .again
  | some _ => false

def oneOf? (all : List α) (key : α → String) (reading : Reading) (json : Json) : Option α := do
  let (name, carried) ← variant? json
  if isBare reading carried then all.find? (key · == name) else none

/-- The variant that a tag names, or, from what was set aside, stands at the tagged position. -/
def tag? (all : List α) (key : α → String) (reading : Reading) : Json → Option α
  | .text name => all.find? (key · == name)
  | .int n => if reading ≠ .direct ∧ 0 ≤ n then all[n.toNat]? else none
  | _ => none

/-- The tag of a record, and the members that are left. -/
def tagged? (tag : String) (read : Json → Option α) : Json → Option (α × Members)
  | .object fields => do
    let value ← fields.lookup tag
    return (← read value, .named (fields.filter (·.1 != tag)))
  | .list (value :: rest) => (read value).map (·, .ordered rest)
  | _ => none

end Estate.Serial
