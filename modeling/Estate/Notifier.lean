import Estate.Notice

/-!
Publication of notices to subscribers. Observers run on the state that holds the notifier, so they
may subscribe and unsubscribe while they are called.
-/
namespace Estate

structure Subscription (ω : Type) where
  number : Nat
  topic : Topic
  observer : ω

/-- Subscriptions in the order they were made; numbers are never used again. -/
structure Notifier (ω : Type) where
  subscriptions : List (Subscription ω) := []
  issued : Nat := 0

inductive Return where
  | normal
  | panic
  deriving DecidableEq, Repr

namespace Notifier

variable {ω σ : Type}

def label (number : Nat) : String := "sub-" ++ toString number

def subscribe (notifier : Notifier ω) (topic : Topic) (observer : ω) : Nat × Notifier ω :=
  let number := notifier.issued + 1
  (number, { subscriptions := notifier.subscriptions ++
    [⟨number, topic, observer⟩], issued := number })

/-- Also tells whether there was anything to remove. -/
def unsubscribe (notifier : Notifier ω) (number : Nat) : Bool × Notifier ω :=
  (notifier.subscriptions.any (·.number == number),
    { notifier with subscriptions := notifier.subscriptions.filter (·.number != number) })

def isObserved (notifier : Notifier ω) (topic : Topic) : Bool :=
  notifier.subscriptions.any (·.topic = topic)

def audience (notifier : Notifier ω) (topic : Topic) : List (Subscription ω) :=
  notifier.subscriptions.filter (·.topic = topic)

abbrev Reaction (ω σ : Type) := ω → Notice → StateM σ Return

/-- Calls each subscriber in turn; a panic stops nobody else. -/
def callAll (react : Reaction ω σ) (notice : Notice) (audience : List (Subscription ω))
    (state : σ) : σ :=
  audience.foldl (fun state subscription => ((react subscription.observer notice).run state).2)
    state

/-- Publishes notices in order; the audience of each is settled when its turn comes. -/
def publish (notifier : σ → Notifier ω) (react : Reaction ω σ) (notices : List Notice) (state : σ) :
    σ :=
  notices.foldl
    (fun state notice => callAll react notice ((notifier state).audience notice.topic) state)
    state

end Notifier

end Estate
