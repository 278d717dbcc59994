namespace Estate

/-- Which page to show; without a size, everything. -/
structure Pager where
  page : UInt64 := 0
  pageSize : Option UInt64 := none
  deriving DecidableEq, Repr

/-- The items of one page, and the number of items on all pages. -/
structure Page (α : Type u) where
  items : List α
  total : Nat

namespace Page

def empty : Page α := ⟨[], 0⟩

def map (f : α → β) (page : Page α) : Page β := ⟨page.items.map f, page.total⟩

end Page

namespace Pager

def unlimited : Pager := {}

def single : Pager := { page := 0, pageSize := some 1 }

/-- The position of the first item of the page, held within a machine word. -/
def offset (pager : Pager) : Nat :=
  match pager.pageSize with
  | some size => min (pager.page.toNat * size.toNat) (UInt64.size - 1)
  | none => 0

def apply (pager : Pager) (items : List α) : Page α :=
  match pager.pageSize with
  | some size => ⟨(items.drop pager.offset).take size.toNat, items.length⟩
  | none => ⟨items, items.length⟩

end Pager

end Estate
