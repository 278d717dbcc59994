namespace Estate

/-- Declaration order is the order of kinds. -/
inductive Kind where
  | tenant
  | environment
  | feed
  | resourceType
  | resource
  | metricType
  | metric
  deriving DecidableEq, Repr

namespace Kind

def all : List Kind := [tenant, environment, feed, resourceType, resource, metricType, metric]

/-- The short form used in path text. -/
def code : Kind → String
  | tenant => "t"
  | environment => "e"
  | feed => "f"
  | resourceType => "rt"
  | resource => "r"
  | metricType => "mt"
  | metric => "m"

def ofCode? (text : String) : Option Kind := all.find? (·.code == text)

/-- The form used in messages. -/
def name : Kind → String
  | tenant => "tenant"
  | environment => "environment"
  | feed => "feed"
  | resourceType => "resource type"
  | resource => "resource"
  | metricType => "metric type"
  | metric => "metric"

/-- The form used in serialized data. -/
def key : Kind → String
  | tenant => "tenant"
  | environment => "environment"
  | feed => "feed"
  | resourceType => "resourceType"
  | resource => "resource"
  | metricType => "metricType"
  | metric => "metric"

/-- Kinds that may directly contain this one; only a tenant stands alone. -/
def parents : Kind → List Kind
  | tenant => []
  | environment | resourceType | metricType => [tenant]
  | feed => [environment]
  | resource | metric => [environment, feed]

def rank : Kind → Nat
  | tenant => 0
  | environment => 1
  | feed => 2
  | resourceType => 3
  | resource => 4
  | metricType => 5
  | metric => 6

instance : Ord Kind := ⟨compareOn rank⟩

theorem rank_injective {a b : Kind} (same : a.rank = b.rank) : a = b := by
  cases a <;> cases b <;> simp_all [rank]

instance : Std.TransOrd Kind := inferInstanceAs (Std.TransCmp (compareOn rank))

instance : Std.LawfulEqOrd Kind where
  eq_of_compare h := rank_injective (Std.LawfulEqOrd.eq_of_compare (α := Nat) h)

theorem mem_all (kind : Kind) : kind ∈ all := by cases kind <;> decide

theorem ofCode?_code (kind : Kind) : ofCode? kind.code = some kind := by cases kind <;> decide

theorem code_of_ofCode? {text : String} {kind : Kind} (found : ofCode? text = some kind) :
    kind.code = text := by
  simpa using List.find?_some found

end Kind

/-- What a metric type counts in. -/
inductive Measure where
  | none
  | milliseconds
  | seconds
  | minutes
  | bytes
  | kilobytes
  | megabytes
  | gigabytes
  | percentage
  deriving DecidableEq, Repr

namespace Measure

def all : List Measure :=
  [none, milliseconds, seconds, minutes, bytes, kilobytes, megabytes, gigabytes, percentage]

def key : Measure → String
  | none => "none"
  | milliseconds => "milliseconds"
  | seconds => "seconds"
  | minutes => "minutes"
  | bytes => "bytes"
  | kilobytes => "kilobytes"
  | megabytes => "megabytes"
  | gigabytes => "gigabytes"
  | percentage => "percentage"

def title : Measure → String
  | none => "None"
  | milliseconds => "Milliseconds"
  | seconds => "Seconds"
  | minutes => "Minutes"
  | bytes => "Bytes"
  | kilobytes => "Kilobytes"
  | megabytes => "Megabytes"
  | gigabytes => "Gigabytes"
  | percentage => "Percentage"

end Measure

end Estate
