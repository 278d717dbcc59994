import Estate.Graph

/-!
The store: one committed graph, and transactions that work on a snapshot of it and keep a log. A
commit installs the working graph when nothing was committed meanwhile, and otherwise replays the
log on what was.
-/
namespace Estate

inductive Access where
  | readOnly
  | readWrite
  deriving DecidableEq, Repr

namespace Access

def all : List Access := [readOnly, readWrite]

def isMutating (access : Access) : Bool := access = readWrite

def key : Access → String
  | readOnly => "ReadOnly"
  | readWrite => "ReadWrite"

end Access

structure Transaction where
  number : Nat
  access : Access
  /-- the version of the snapshot it began on -/
  baseVersion : Nat
  working : Graph
  /-- what it wrote, oldest first -/
  log : List Change := []

namespace Transaction

def label (number : Nat) : String := "tx-" ++ toString number

def write (tx : Transaction) (change : Change) : Except Error Transaction :=
  if tx.access.isMutating then
    match tx.working.apply change with
    | .ok graph => .ok { tx with working := graph, log := tx.log ++ [change] }
    | .error why => .error (.conflict why)
  else .error (.readOnly tx.number)

end Transaction

structure Store where
  committed : Graph := {}
  version : Nat := 0
  /-- how many transactions have begun -/
  begun : Nat := 0

namespace Store

def empty : Store := {}

def begin (store : Store) (access : Access) : Transaction × Store :=
  let number := store.begun + 1
  ({ number, access, baseVersion := store.version, working := store.committed },
    { store with begun := number })

/-- A transaction without writes commits without effect. -/
def commit (store : Store) (tx : Transaction) : Except Error Store :=
  if tx.log.isEmpty then .ok store
  else if store.version = tx.baseVersion then
    .ok { store with committed := tx.working, version := store.version + 1 }
  else
    match store.committed.replay tx.log with
    | .ok graph => .ok { store with committed := graph, version := store.version + 1 }
    | .error why => .error (.conflict why)

end Store

end Estate
