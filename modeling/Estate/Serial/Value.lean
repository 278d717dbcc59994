import Estate.Serial
import Estate.Value

namespace Estate.Value

/-- The machine integer that a whole number is, if it is one. -/
def integer? (n : Int) : Option Int64 :=
  if Int64.minValue.toInt ≤ n ∧ n ≤ Int64.maxValue.toInt then some (Int64.ofInt n) else none

/-- Whole numbers past the machine integers become floats. -/
def ofInt (n : Int) : Value := (integer? n).elim (float (.ofInt n)) int

mutual

def ofPlain : Json → Value
  | .null => null
  | .bool b => bool b
  | .int n => ofInt n
  | .float x => float x
  | .text s => text s
  | .list items => list (ofPlainItems items)
  | .object fields => map (.ofTable (Table.ofList (ofPlainFields fields)))

def ofPlainItems : List Json → List Value
  | [] => []
  | item :: rest => ofPlain item :: ofPlainItems rest

def ofPlainFields : List (String × Json) → List (String × Value)
  | [] => []
  | (key, value) :: rest => (key, ofPlain value) :: ofPlainFields rest

end

mutual

def toPlain : Value → Json
  | null => .null
  | bool b => .bool b
  | int n => .int n.toInt
  | float x => .float x
  | text s => .text s
  | list items => .list (toPlainItems items)
  | map entries => .object (toPlainEntries entries)

def toPlainItems : List Value → List Json
  | [] => []
  | item :: rest => toPlain item :: toPlainItems rest

def toPlainEntries {bound : Option String} : Entries Value bound → List (String × Json)
  | .nil => []
  | .cons key value rest _ => (key, toPlain value) :: toPlainEntries rest

end

def toPlainFields (fields : List (String × Value)) : List (String × Json) :=
  fields.map fun (key, value) => (key, value.toPlain)

inductive Shape where
  | null
  | bool
  | int
  | float
  | text
  | list
  | map
  deriving DecidableEq, Repr

namespace Shape

def all : List Shape := [null, bool, int, float, text, list, map]

def key : Shape → String
  | null => "Null"
  | bool => "Bool"
  | int => "Int"
  | float => "Float"
  | text => "String"
  | list => "List"
  | map => "Map"

end Shape

/-- A value's type and, for all but null, its content. -/
def typed (shape : Shape) (content : Json) : Json :=
  .object [("type", .text shape.key), ("value", content)]

mutual

def toJson : Value → Json
  | null => .object [("type", .text Shape.null.key)]
  | bool b => typed .bool (.bool b)
  | int n => typed .int (.int n.toInt)
  | float x => typed .float (if x.isFinite then .float x else .null)
  | text s => typed .text (.text s)
  | list items => typed .list (.list (toJsonItems items))
  | map entries => typed .map (.object (toJsonEntries entries))

def toJsonItems : List Value → List Json
  | [] => []
  | item :: rest => toJson item :: toJsonItems rest

def toJsonEntries {bound : Option String} : Entries Value bound → List (String × Json)
  | .nil => []
  | .cons key value rest _ => (key, toJson value) :: toJsonEntries rest

end

def toJsonFields (fields : List (String × Value)) : List (String × Json) :=
  fields.map fun (key, value) => (key, value.toJson)

def shape? (reading : Serial.Reading) (fields : List (String × Json)) : Option Shape :=
  (fields.lookup "type").bind (Serial.oneOf? Shape.all Shape.key reading)

mutual

/-- A value may also be the list of its type and content; there the type is given as a tag is. -/
def ofJson? (reading : Serial.Reading) : Json → Option Value
  | .object fields =>
    match shape? reading fields with
    | some shape => ofContentField? reading shape fields
    | none => none
  | .list [tag, content] =>
    match Serial.tag? Shape.all Shape.key reading tag with
    | some shape => ofContent? reading shape content
    | none => none
  | _ => none

/-- Only null needs no content. -/
def ofContentField? (reading : Serial.Reading) (shape : Shape) : List (String × Json) → Option Value
  | [] => if shape = .null then some null else none
  | (key, content) :: rest =>
    if key = "value" then ofContent? reading shape content else ofContentField? reading shape rest

def ofContent? (reading : Serial.Reading) : Shape → Json → Option Value
  | .null, .null => some null
  | .bool, .bool b => some (bool b)
  | .int, .int n => (integer? n).map int
  | .float, .float x => some (float x)
  | .float, .int n => some (float (.ofInt n))
  | .text, .text s => some (text s)
  | .list, .list items => (ofItems? reading items).map list
  | .map, .object fields =>
    (ofFields? reading fields).map fun entries => map (.ofTable (Table.ofList entries))
  | _, _ => none

def ofItems? (reading : Serial.Reading) : List Json → Option (List Value)
  | [] => some []
  | item :: rest => do return (← ofJson? reading item) :: (← ofItems? reading rest)

def ofFields? (reading : Serial.Reading) : List (String × Json) → Option (List (String × Value))
  | [] => some []
  | (key, value) :: rest => do return (key, ← ofJson? reading value) :: (← ofFields? reading rest)

end

end Estate.Value

namespace Estate.Properties

def toJson (properties : Properties) : Json := .object (Value.toJsonFields properties.entries)

def ofJson? (reading : Serial.Reading) : Json → Option Properties
  | .object fields => (Value.ofFields? reading fields).map Table.ofList
  | _ => none

end Estate.Properties
