import Estate.Notifier

/-!
Gatherings: a notifier with observers that answer back. While they are called they may subscribe
others, end whatever subscription, look at what they share and change it, and panic at any point. A
chronicle is a gathering where everything is written down as it happens; writing it down changes
nothing.
-/
namespace Estate

/-- What an observer does while it is called, one thing after another, depending on what it learns
on the way. -/
inductive Conduct (ω μ : Type) where
  | leave (how : Return)
  | consult (next : μ → Conduct ω μ)
  | remember (memory : μ) (next : Conduct ω μ)
  | ask (topic : Topic) (next : Bool → Conduct ω μ)
  | subscribe (topic : Topic) (observer : ω) (next : Nat → Conduct ω μ)
  | unsubscribe (number : Nat) (next : Bool → Conduct ω μ)

structure Gathering (ω μ : Type) where
  notifier : Notifier ω := {}
  memory : μ

inductive Gathering.Step (ω : Type) where
  | subscribe (topic : Topic) (observer : ω)
  | unsubscribe (number : Nat)
  | publish (notices : List Notice)

variable {ω μ : Type}

namespace Gathering

def subscribe (topic : Topic) (observer : ω) (gathering : Gathering ω μ) : Nat × Gathering ω μ :=
  let (number, notifier) := gathering.notifier.subscribe topic observer
  (number, { gathering with notifier })

def unsubscribe (number : Nat) (gathering : Gathering ω μ) : Bool × Gathering ω μ :=
  let (found, notifier) := gathering.notifier.unsubscribe number
  (found, { gathering with notifier })

def follow : Conduct ω μ → StateM (Gathering ω μ) Return
  | .leave how => pure how
  | .consult next => do follow (next (← get).memory)
  | .remember memory next => do
    modify ({ · with memory })
    follow next
  | .ask topic next => do follow (next ((← get).notifier.isObserved topic))
  | .subscribe topic observer next => do follow (next (← modifyGet (subscribe topic observer)))
  | .unsubscribe number next => do follow (next (← modifyGet (unsubscribe number)))

variable (conduct : ω → Notice → Conduct ω μ)

def react : Notifier.Reaction ω (Gathering ω μ) :=
  fun observer notice => follow (conduct observer notice)

def publish (notices : List Notice) (gathering : Gathering ω μ) : Gathering ω μ :=
  Notifier.publish notifier (react conduct) notices gathering

def step (gathering : Gathering ω μ) : Step ω → Gathering ω μ
  | .subscribe topic observer => (gathering.subscribe topic observer).2
  | .unsubscribe number => (gathering.unsubscribe number).2
  | .publish notices => gathering.publish conduct notices

def run (steps : List (Step ω)) (gathering : Gathering ω μ) : Gathering ω μ :=
  steps.foldl (step conduct) gathering

end Gathering

/-- An observer under the number of its subscription. -/
structure Listener (ω : Type) where
  number : Nat
  observer : ω

inductive Happening (ω : Type) where
  | subscribed (listener : Listener ω) (topic : Topic)
  | unsubscribed (number : Nat) (found : Bool)
  | asked (topic : Topic) (found : Bool)
  /-- the listener is called, and does what comes next in the record until another is called -/
  | called (listener : Listener ω) (notice : Notice)

structure Chronicle (ω μ : Type) where
  notifier : Notifier (Listener ω) := {}
  memory : μ
  /-- all that has happened, the latest last -/
  record : List (Happening ω) := []

namespace Chronicle

def note (happening : Happening ω) (chronicle : Chronicle ω μ) : Chronicle ω μ :=
  { chronicle with record := chronicle.record ++ [happening] }

def subscribe (topic : Topic) (observer : ω) (chronicle : Chronicle ω μ) : Nat × Chronicle ω μ :=
  let listener := ⟨chronicle.notifier.issued + 1, observer⟩
  let (number, notifier) := chronicle.notifier.subscribe topic listener
  (number, { chronicle with notifier }.note (.subscribed listener topic))

def unsubscribe (number : Nat) (chronicle : Chronicle ω μ) : Bool × Chronicle ω μ :=
  let (found, notifier) := chronicle.notifier.unsubscribe number
  (found, { chronicle with notifier }.note (.unsubscribed number found))

def ask (topic : Topic) (chronicle : Chronicle ω μ) : Bool × Chronicle ω μ :=
  let found := chronicle.notifier.isObserved topic
  (found, chronicle.note (.asked topic found))

def follow : Conduct ω μ → StateM (Chronicle ω μ) Return
  | .leave how => pure how
  | .consult next => do follow (next (← get).memory)
  | .remember memory next => do
    modify ({ · with memory })
    follow next
  | .ask topic next => do follow (next (← modifyGet (ask topic)))
  | .subscribe topic observer next => do follow (next (← modifyGet (subscribe topic observer)))
  | .unsubscribe number next => do follow (next (← modifyGet (unsubscribe number)))

variable (conduct : ω → Notice → Conduct ω μ)

def react : Notifier.Reaction (Listener ω) (Chronicle ω μ) := fun listener notice => do
  modify (note (.called listener notice))
  follow (conduct listener.observer notice)

def publish (notices : List Notice) (chronicle : Chronicle ω μ) : Chronicle ω μ :=
  Notifier.publish notifier (react conduct) notices chronicle

def step (chronicle : Chronicle ω μ) : Gathering.Step ω → Chronicle ω μ
  | .subscribe topic observer => (chronicle.subscribe topic observer).2
  | .unsubscribe number => (chronicle.unsubscribe number).2
  | .publish notices => chronicle.publish conduct notices

def run (steps : List (Gathering.Step ω)) (chronicle : Chronicle ω μ) : Chronicle ω μ :=
  steps.foldl (step conduct) chronicle

def unlisted (entry : Subscription (Listener ω)) : Subscription ω :=
  ⟨entry.number, entry.topic, entry.observer.observer⟩

/-- The gathering without its record. -/
def gathering (chronicle : Chronicle ω μ) : Gathering ω μ where
  notifier :=
    { chronicle.notifier with subscriptions := chronicle.notifier.subscriptions.map unlisted }
  memory := chronicle.memory

variable {conduct} {chronicle : Chronicle ω μ}

theorem subscribe_gathering (topic : Topic) (observer : ω) :
    chronicle.gathering.subscribe topic observer =
      ((chronicle.subscribe topic observer).1,
      (chronicle.subscribe topic observer).2.gathering) := by
  simp [gathering, unlisted, Gathering.subscribe, subscribe, Notifier.subscribe, note]

theorem unsubscribe_gathering (number : Nat) :
    chronicle.gathering.unsubscribe number =
      ((chronicle.unsubscribe number).1, (chronicle.unsubscribe number).2.gathering) := by
  simp [gathering, unlisted, Gathering.unsubscribe, unsubscribe, Notifier.unsubscribe, note,
    List.filter_map, Function.comp_def]

theorem isObserved_gathering (topic : Topic) :
    chronicle.gathering.notifier.isObserved topic = (chronicle.ask topic).1 := List.any_map

theorem follow_gathering (conduct : Conduct ω μ) :
    (Gathering.follow conduct).run chronicle.gathering =
      (((follow conduct).run chronicle).1, ((follow conduct).run chronicle).2.gathering) := by
  induction conduct generalizing chronicle with
  | leave how => rfl
  | consult next ih => exact ih chronicle.memory
  | remember memory next ih => exact @ih { chronicle with memory }
  | ask topic next ih =>
    show (Gathering.follow (next (chronicle.gathering.notifier.isObserved topic))).run
        chronicle.gathering = _
    rw [isObserved_gathering]
    exact @ih _ (chronicle.ask topic).2
  | subscribe topic observer next ih =>
    show (Gathering.follow (next (chronicle.gathering.subscribe topic observer).1)).run
      (chronicle.gathering.subscribe topic observer).2 = _
    rw [subscribe_gathering]
    exact ih _
  | unsubscribe number next ih =>
    show (Gathering.follow (next (chronicle.gathering.unsubscribe number).1)).run
      (chronicle.gathering.unsubscribe number).2 = _
    rw [unsubscribe_gathering]
    exact ih _

theorem callAll_gathering (notice : Notice) (audience : List (Subscription (Listener ω))) :
    Notifier.callAll (Gathering.react conduct) notice
        (audience.map unlisted) chronicle.gathering =
      (Notifier.callAll (react conduct) notice audience chronicle).gathering := by
  induction audience generalizing chronicle with
  | nil => rfl
  | cons entry rest ih =>
    have called := @follow_gathering ω μ (chronicle.note (.called entry.observer notice))
      (conduct entry.observer.observer notice)
    rw [List.map_cons, Notifier.callAll, List.foldl_cons]
    exact (congrArg (Notifier.callAll _ notice _) (congrArg Prod.snd called)).trans ih

theorem publish_gathering (notices : List Notice) :
    chronicle.gathering.publish conduct notices =
      (chronicle.publish conduct notices).gathering := by
  induction notices generalizing chronicle with
  | nil => rfl
  | cons notice rest ih =>
    have audience : chronicle.gathering.notifier.audience notice.topic =
        (chronicle.notifier.audience notice.topic).map unlisted := List.filter_map
    rw [Gathering.publish, Notifier.publish, List.foldl_cons, audience, callAll_gathering]
    exact ih

theorem run_gathering (steps : List (Gathering.Step ω)) :
    chronicle.gathering.run conduct steps = (chronicle.run conduct steps).gathering := by
  induction steps generalizing chronicle with
  | nil => rfl
  | cons step rest ih =>
    rw [Gathering.run, List.foldl_cons, run, List.foldl_cons, ← run, ← ih, ← Gathering.run]
    congr 1
    cases step with
    | subscribe topic observer => rw [Gathering.step, subscribe_gathering, Chronicle.step]
    | unsubscribe number => rw [Gathering.step, unsubscribe_gathering, Chronicle.step]
    | publish notices => exact publish_gathering notices

end Chronicle

end Estate
