namespace Estate

structure IdSource where
  /-- the id of each draw, counted from one -/
  name : Nat → String
  drawn : Nat := 0

namespace IdSource

def draw (ids : IdSource) : String × IdSource :=
  (ids.name (ids.drawn + 1), { ids with drawn := ids.drawn + 1 })

/-- A number in the last group of an otherwise fixed id, in at least twelve hexadecimal digits. -/
def counterName (n : Nat) : String :=
  let digits := Nat.toDigits 16 n
  "00000000-0000-4000-8000-" ++ String.ofList (List.replicate (12 - digits.length) '0' ++ digits)

def counter : IdSource := { name := counterName }

end IdSource

end Estate
