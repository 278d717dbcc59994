import Estate.Graph.InPlace
import Estate.Store.Writes

namespace Estate

/-- Applies a change to the working graph in place, and logs it if it is taken. -/
def Transaction.writeInPlace (tx : Transaction) (change : Change) :
    Except Error Unit × Transaction :=
  if tx.access.isMutating then
    match tx.working.applyInPlace change with
    | (.ok (), working) => (.ok (), { tx with working, log := tx.log ++ [change] })
    | (.error why, working) => (.error (.conflict why), { tx with working })
  else (.error (.readOnly tx.number), tx)

def Drafting.writeInPlace (change : Change) : Drafting Unit := do
  let draft ← get
  let (outcome, tx) := draft.tx.writeInPlace change
  set { draft with tx }
  match outcome with
  | .ok () => pure ()
  | .error error => throw error

end Estate
