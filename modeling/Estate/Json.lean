import Estate.Double.Rounding
import Estate.Double.Shortest
import Estate.Table

namespace Estate

inductive Json where
  | null
  | bool (b : Bool)
  | int (n : Int)
  | float (x : Double)
  | text (s : String)
  | list (items : List Json)
  | object (fields : List (String × Json))
  deriving Repr

namespace Json

instance : Inhabited Json := ⟨null⟩

/-- An object of these fields in ascending key order; of several under one key the last stays. -/
def ofFields (fields : List (String × Json)) : Json := object (Table.ofList fields).entries

def field? (key : String) : Json → Option Json
  | object fields => fields.lookup key
  | _ => none

end Json

end Estate
