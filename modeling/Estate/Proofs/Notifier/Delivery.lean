import Estate.Proofs.Notifier.Gathering
import Mathlib.Data.List.Infix

/-!
Delivery. Who hears of a notice is whoever was registered for its topic when its turn came, whatever
those who are called do and however they come back. Everything is said of the record of a chronicle
alone, so it can be told from what happened without a look at the notifier.
-/
namespace Estate

variable {ω μ : Type} {record more : List (Happening ω)} {happening : Happening ω}
  {listener : Listener ω} {topic : Topic}

def Happening.numbers (record : List (Happening ω)) : List Nat :=
  record.filterMap fun
    | .subscribed listener _ => some listener.number
    | _ => none

def Happening.calls (record : List (Happening ω)) : List (Listener ω × Notice) :=
  record.filterMap fun
    | .called listener notice => some (listener, notice)
    | _ => none

open Happening

/-- Who is registered after all that was recorded: whoever was subscribed, and whose subscription
was not ended since. -/
def Registered (record : List (Happening ω)) (listener : Listener ω) (topic : Topic) : Prop :=
  ∃ before after, record = before ++ .subscribed listener topic :: after ∧
    ∀ found, .unsubscribed listener.number found ∉ after

/-- What is right to happen after all that was recorded: a number is handed out that is greater than
any before; a subscription is found to be ended, or a topic to be observed, just if somebody is
registered so; and nobody is called who was never subscribed. -/
def Happening.Fits (record : List (Happening ω)) : Happening ω → Prop
  | .subscribed listener _ => ∀ number ∈ numbers record, number < listener.number
  | .unsubscribed number found =>
    found = true ↔ ∃ listener topic, listener.number = number ∧ Registered record listener topic
  | .asked topic found => found = true ↔ ∃ listener, Registered record listener topic
  | .called listener _ => listener.number ∈ numbers record

def Truthful (record : List (Happening ω)) : Prop :=
  ∀ before happening after, record = before ++ happening :: after → happening.Fits before

theorem numbers_append : numbers (record ++ more) = numbers record ++ numbers more :=
  List.filterMap_append

theorem mem_numbers_append {number : Nat} :
    number ∈ numbers (record ++ more) ↔ number ∈ numbers record ∨ number ∈ numbers more := by
  rw [numbers_append, List.mem_append]

theorem calls_append : calls (record ++ more) = calls record ++ calls more := List.filterMap_append

theorem cons_of_concat_eq {α : Type} {items before after : List α} {last item : α}
    (split : items ++ [last] = before ++ item :: after) :
    (before = items ∧ item = last ∧ after = []) ∨ ∃ rest, after = rest ++ [last] ∧
      items = before ++ item :: rest := by
  rcases List.eq_nil_or_concat' after with rfl | ⟨rest, other, rfl⟩
  · obtain ⟨rfl, same⟩ := List.append_inj' split rfl
    obtain rfl := (List.cons.inj same).1
    exact .inl ⟨rfl, rfl, rfl⟩
  · rw [← List.cons_append, ← List.append_assoc] at split
    obtain ⟨rfl, same⟩ := List.append_inj' split rfl
    obtain rfl := (List.cons.inj same).1
    exact .inr ⟨rest, rfl, rfl⟩

theorem registered_concat_iff : Registered (record ++ [happening]) listener topic ↔
    happening = .subscribed listener topic ∨
      Registered record listener topic ∧
      ∀ found, happening ≠ .unsubscribed listener.number found := by
  constructor
  · rintro ⟨before, after, split, kept⟩
    rcases cons_of_concat_eq split with ⟨-, rfl, -⟩ | ⟨rest, rfl, rfl⟩
    · exact .inl rfl
    · refine .inr ⟨⟨before, rest, rfl, fun found member => ?_⟩, fun found ended => ?_⟩
      · exact kept found (List.mem_append_left _ member)
      · exact kept found (List.mem_append_right rest (ended ▸ List.mem_singleton_self happening))
  · rintro (rfl | ⟨⟨before, after, rfl, kept⟩, still⟩)
    · exact ⟨record, [], rfl, fun _ => nofun⟩
    · refine ⟨before, after ++ [happening], by simp, fun found member => ?_⟩
      rcases List.mem_append.mp member with earlier | last
      · exact kept found earlier
      · exact still found (List.mem_singleton.mp last).symm

theorem Registered.mem_numbers (registered : Registered record listener topic) :
    listener.number ∈ numbers record := by
  obtain ⟨before, after, rfl, -⟩ := registered
  exact List.mem_filterMap.mpr ⟨_, List.mem_append_right before List.mem_cons_self, rfl⟩

/-- Whoever is registered later was registered before or subscribed in between. -/
theorem Registered.of_append (registered : Registered (record ++ more) listener topic) :
    Registered record listener topic ∨ listener.number ∈ numbers more := by
  induction more using List.reverseRecOn with
  | nil => exact .inl (List.append_nil record ▸ registered)
  | append_singleton more last ih =>
    rw [← List.append_assoc] at registered
    rcases registered_concat_iff.mp registered with rfl | ⟨earlier, -⟩
    · exact .inr (mem_numbers_append.mpr (.inr (List.mem_singleton_self listener.number)))
    · exact (ih earlier).imp_right fun since => mem_numbers_append.mpr (.inl since)

namespace Truthful

theorem nil : Truthful ([] : List (Happening ω)) :=
  fun before _ _ split => by cases before <;> cases split

theorem concat (truthful : Truthful record) (fits : happening.Fits record) :
    Truthful (record ++ [happening]) := by
  intro before other after split
  rcases cons_of_concat_eq split with ⟨rfl, rfl, -⟩ | ⟨rest, -, earlier⟩
  · exact fits
  · exact truthful before other rest earlier

theorem left (truthful : Truthful (record ++ more)) : Truthful record :=
  fun before happening after split =>
  truthful before happening (after ++ more) (by rw [split, List.append_assoc]; rfl)

/-- Numbers are never handed out again. -/
theorem numbers_ascending (truthful : Truthful record) : (numbers record).Pairwise (· < ·) := by
  induction record using List.reverseRecOn with
  | nil => exact .nil
  | append_singleton record last ih =>
    have fits : last.Fits record := truthful record last [] rfl
    rw [numbers_append, List.pairwise_append]
    refine ⟨ih truthful.left, ?_, fun earlier before later new => ?_⟩
    · cases last <;> simp [numbers]
    · cases last with
      | subscribed listener topic =>
        obtain rfl := List.mem_singleton.mp new
        exact fits earlier before
      | unsubscribed | asked | called => cases new

theorem numbers_lt {earlier later : Nat} (truthful : Truthful (record ++ more))
    (before : earlier ∈ numbers record) (since : later ∈ numbers more) : earlier < later := by
  have ascending := truthful.numbers_ascending
  rw [numbers_append, List.pairwise_append] at ascending
  exact ascending.2.2 earlier before later since

/-- Nobody is called who was not subscribed before. -/
theorem mem_numbers_of_called (truthful : Truthful record) {call : Listener ω × Notice}
    (called : call ∈ calls record) :
    call.1.number ∈ numbers record := by
  obtain ⟨happening, member, same⟩ := List.mem_filterMap.mp called
  cases happening with
  | called listener notice =>
    obtain rfl := Option.some.inj same
    obtain ⟨before, after, split⟩ := List.append_of_mem member
    have known : listener.number ∈ numbers before := truthful before _ after split
    exact split ▸ mem_numbers_append.mpr (.inl known)
  | subscribed | unsubscribed | asked => cases same

/-- Once a subscription was ended nobody is registered under its number any more. -/
theorem not_registered_after {number : Nat} {since : List (Happening ω)}
    (truthful : Truthful (record ++ .unsubscribed number true :: since))
    (same : listener.number = number) :
    ¬Registered (record ++ .unsubscribed number true :: since) listener topic := by
  intro registered
  obtain ⟨other, _, rfl, before⟩ := (truthful record _ since rfl).mp rfl
  rw [List.append_cons] at truthful registered
  rcases registered.of_append with still | again
  · rcases registered_concat_iff.mp still with new | ⟨-, kept⟩
    · cases new
    · exact kept true (by rw [same])
  · have known : other.number ∈ numbers (record ++ [.unsubscribed other.number true]) :=
      mem_numbers_append.mpr (.inl before.mem_numbers)
    exact Nat.lt_irrefl _ (truthful.numbers_lt known (same ▸ again))

end Truthful

namespace Chronicle

variable {chronicle : Chronicle ω μ}

/-- The notifier agrees with the record, and the record is right throughout. -/
structure Exact (chronicle : Chronicle ω μ) : Prop where
  registered (entry : Subscription (Listener ω)) : entry ∈ chronicle.notifier.subscriptions ↔
    entry.number = entry.observer.number ∧ Registered chronicle.record entry.observer entry.topic
  ordered : chronicle.notifier.subscriptions.Pairwise (·.number < ·.number)
  issued : ∀ number ∈ numbers chronicle.record, number ≤ chronicle.notifier.issued
  truthful : Truthful chronicle.record

theorem exact_start (memory : μ) : Exact ({ memory } : Chronicle ω μ) where
  registered entry := by
    refine ⟨nofun, fun ⟨_, before, _, split, _⟩ => ?_⟩
    cases before <;> cases split
  ordered := .nil
  issued := nofun
  truthful := .nil

namespace Exact

theorem subscribed_iff (exact : chronicle.Exact) :
    (∃ entry ∈ chronicle.notifier.subscriptions, entry.topic = topic) ↔
    ∃ listener, Registered chronicle.record listener topic := by
  constructor
  · rintro ⟨entry, member, rfl⟩
    exact ⟨entry.observer, ((exact.registered entry).mp member).2⟩
  · rintro ⟨listener, registered⟩
    exact ⟨⟨listener.number, topic, listener⟩, (exact.registered _).mpr ⟨rfl, registered⟩, rfl⟩

theorem subscribe (exact : chronicle.Exact) (topic : Topic) (observer : ω) :
    (chronicle.subscribe topic observer).2.Exact where
  registered entry := by
    show entry ∈ chronicle.notifier.subscriptions ++ [_] ↔
        _ ∧ Registered (chronicle.record ++ [_]) _ _
    rw [List.mem_append, List.mem_singleton, registered_concat_iff, exact.registered entry]
    constructor
    · rintro (⟨same, registered⟩ | rfl)
      · exact ⟨same, .inr ⟨registered, fun _ => nofun⟩⟩
      · exact ⟨rfl, .inl rfl⟩
    · rintro ⟨same, new | ⟨registered, -⟩⟩
      · obtain ⟨number, topic, listener⟩ := entry
        cases new
        exact .inr (by rw [show number = _ from same])
      · exact .inl ⟨same, registered⟩
  ordered := by
    refine List.pairwise_append.mpr ⟨exact.ordered, List.pairwise_singleton _ _,
      fun entry member new added => ?_⟩
    obtain ⟨same, registered⟩ := (exact.registered entry).mp member
    rw [List.mem_singleton.mp added, same]
    exact Nat.lt_succ_of_le (exact.issued _ registered.mem_numbers)
  issued number member := by
    rcases mem_numbers_append.mp member with earlier | new
    · exact Nat.le_succ_of_le (exact.issued number earlier)
    · exact Nat.le_of_eq (List.mem_singleton.mp new)
  truthful :=
    exact.truthful.concat fun number member => Nat.lt_succ_of_le (exact.issued number member)

theorem unsubscribe (exact : chronicle.Exact) (number : Nat) :
    (chronicle.unsubscribe number).2.Exact where
  registered entry := by
    show entry ∈ chronicle.notifier.subscriptions.filter _ ↔
        _ ∧ Registered (chronicle.record ++ [_]) _ _
    rw [List.mem_filter, registered_concat_iff, exact.registered entry, bne_iff_ne]
    constructor
    · rintro ⟨⟨same, registered⟩, other⟩
      refine ⟨same, .inr ⟨registered, fun found ended => other ?_⟩⟩
      rw [same, (Happening.unsubscribed.inj ended).1]
    · rintro ⟨same, new | ⟨registered, still⟩⟩
      · cases new
      · exact ⟨⟨same, registered⟩, fun ended => still _ (by rw [← same, ended])⟩
  ordered := exact.ordered.filter _
  issued earlier member := by
    rcases mem_numbers_append.mp member with earlier | new
    · exact exact.issued _ earlier
    · cases new
  truthful := by
    refine exact.truthful.concat ?_
    show chronicle.notifier.subscriptions.any (·.number == number) = true ↔ _
    rw [List.any_eq_true]
    constructor
    · rintro ⟨entry, member, same⟩
      obtain ⟨listed, registered⟩ := (exact.registered entry).mp member
      exact ⟨entry.observer, entry.topic, by rw [← listed, beq_iff_eq.mp same], registered⟩
    · rintro ⟨listener, topic, same, registered⟩
      exact ⟨⟨listener.number, topic, listener⟩, (exact.registered _).mpr ⟨rfl, registered⟩,
        beq_iff_eq.mpr same⟩

/-- What neither subscribes nor unsubscribes can be recorded when it is right. -/
theorem note (exact : chronicle.Exact) (fits : happening.Fits chronicle.record)
    (adds : ∀ listener topic, happening ≠ .subscribed listener topic)
    (ends : ∀ number found, happening ≠ .unsubscribed number found) :
    (chronicle.note happening).Exact where
  registered entry := by
    show entry ∈ chronicle.notifier.subscriptions ↔ _ ∧ Registered (chronicle.record ++ [_]) _ _
    rw [registered_concat_iff, exact.registered entry]
    constructor
    · rintro ⟨same, registered⟩
      exact ⟨same, .inr ⟨registered, fun found => ends _ found⟩⟩
    · rintro ⟨same, new | ⟨registered, -⟩⟩
      · exact absurd new (adds _ _)
      · exact ⟨same, registered⟩
  ordered := exact.ordered
  issued number member := by
    rcases mem_numbers_append.mp member with earlier | new
    · exact exact.issued number earlier
    · cases happening with
      | subscribed listener topic => exact absurd rfl (adds listener topic)
      | unsubscribed | asked | called => cases new
  truthful := exact.truthful.concat fits

theorem ask (exact : chronicle.Exact) (topic : Topic) : (chronicle.ask topic).2.Exact := by
  show (chronicle.note (.asked topic (chronicle.notifier.isObserved topic))).Exact
  refine exact.note ?_ (fun _ _ => nofun) fun _ _ => nofun
  show chronicle.notifier.subscriptions.any (·.topic = topic) = true ↔ _
  simp only [List.any_eq_true, decide_eq_true_eq, ← exact.subscribed_iff]

/-- Whatever an observer does, it calls nobody. -/
theorem follow (exact : chronicle.Exact) (conduct : Conduct ω μ) :
    ∃ more, ((follow conduct).run chronicle).2.record = chronicle.record ++ more ∧ calls more = [] ∧
      ((follow conduct).run chronicle).2.Exact := by
  -- What an observer learns decides how it goes on, so the chronicle is that of the moment in each
  -- case.
  induction conduct generalizing chronicle with
  | leave how => exact ⟨[], (List.append_nil _).symm, rfl, exact⟩
  | consult next ih => exact ih chronicle.memory exact
  | remember memory next ih =>
    exact @ih { chronicle with memory } ⟨exact.registered, exact.ordered, exact.issued,
      exact.truthful⟩
  | ask topic next ih =>
    obtain ⟨more, recorded, quiet, later⟩ := ih (chronicle.ask topic).1 (exact.ask topic)
    exact ⟨.asked topic (chronicle.ask topic).1 :: more, recorded.trans (List.append_cons ..).symm,
      quiet, later⟩
  | subscribe topic observer next ih =>
    obtain ⟨more, recorded, quiet, later⟩ :=
      ih (chronicle.subscribe topic observer).1 (exact.subscribe topic observer)
    exact ⟨.subscribed ⟨_, observer⟩ topic :: more, recorded.trans (List.append_cons ..).symm,
      quiet, later⟩
  | unsubscribe number next ih =>
    obtain ⟨more, recorded, quiet, later⟩ :=
      ih (chronicle.unsubscribe number).1 (exact.unsubscribe number)
    exact ⟨.unsubscribed number (chronicle.unsubscribe number).1 :: more,
      recorded.trans (List.append_cons ..).symm, quiet, later⟩

/-- All of an audience are called, one after another, even those whose subscription another of them
has ended. -/
theorem callAll (exact : chronicle.Exact) (conduct : ω → Notice → Conduct ω μ) (notice : Notice)
    {audience : List (Subscription (Listener ω))}
    (known : ∀ entry ∈ audience, entry.observer.number ∈ numbers chronicle.record) :
    ∃ more, (Notifier.callAll (react conduct) notice audience chronicle).record =
      chronicle.record ++ more ∧
      calls more = audience.map (fun entry => (entry.observer, notice)) ∧
      (Notifier.callAll (react conduct) notice audience chronicle).Exact := by
  induction audience generalizing chronicle with
  | nil => exact ⟨[], (List.append_nil _).symm, rfl, exact⟩
  | cons entry rest ih =>
    obtain ⟨here, known⟩ := List.forall_mem_cons.mp known
    have noted : (chronicle.note (.called entry.observer notice)).Exact :=
      exact.note here (fun _ _ => nofun) fun _ _ => nofun
    obtain ⟨own, answered, quiet, followed⟩ := noted.follow (conduct entry.observer.observer notice)
    obtain ⟨more, recorded, called, later⟩ := ih followed fun other member => by
      rw [answered, mem_numbers_append]
      exact .inl (mem_numbers_append.mpr (.inl (known other member)))
    refine ⟨.called entry.observer notice :: own ++ more, ?_, ?_, later⟩
    · exact recorded.trans (by rw [answered, Chronicle.note]; simp)
    · rw [List.map_cons, ← called, calls_append]
      show (entry.observer, notice) :: calls own ++ _ = _
      rw [quiet]
      rfl

end Exact

variable (conduct : ω → Notice → Conduct ω μ)

/-- Who was called in the turn of a notice: all that were registered for its topic when it came, and
nobody else, each once and in the order of their numbers. -/
def Heard (record : List (Happening ω)) (notice : Notice) (turn : List (Happening ω)) : Prop :=
  ∃ audience : List (Listener ω), calls turn = audience.map (·, notice) ∧
    audience.Pairwise (·.number < ·.number) ∧
    ∀ listener, listener ∈ audience ↔ Registered record listener notice.topic

theorem Exact.turn (exact : chronicle.Exact) (notice : Notice) :
    ∃ turn, (chronicle.publish conduct [notice]).record = chronicle.record ++ turn ∧
      Heard chronicle.record notice turn ∧ (chronicle.publish conduct [notice]).Exact := by
  have chosen (entry : Subscription (Listener ω)) : entry ∈
      chronicle.notifier.audience notice.topic ↔
      entry ∈ chronicle.notifier.subscriptions ∧ entry.topic = notice.topic := by
    rw [Notifier.audience, List.mem_filter, decide_eq_true_iff]
  have known : ∀ entry ∈ chronicle.notifier.audience notice.topic, entry.observer.number ∈
      numbers chronicle.record :=
    fun entry member => ((exact.registered entry).mp ((chosen entry).mp member).1).2.mem_numbers
  -- The audience is settled before anybody is called: what is done in the turn is seen in the
  -- record only after it.
  obtain ⟨turn, recorded, called, later⟩ := exact.callAll conduct notice known
  refine ⟨turn, recorded, ⟨(chronicle.notifier.audience notice.topic).map (·.observer), ?_, ?_,
    fun listener => ?_⟩, later⟩
  · rw [called, List.map_map]
    rfl
  · refine List.pairwise_map.mpr ((exact.ordered.filter _).imp_of_mem fun first second less => ?_)
    have listed {entry : Subscription (Listener ω)}
        (member : entry ∈ chronicle.notifier.audience notice.topic) :
        entry.number = entry.observer.number :=
          ((exact.registered entry).mp ((chosen entry).mp member).1).1
    rw [← listed first, ← listed second]
    exact less
  · constructor
    · intro member
      obtain ⟨entry, among, rfl⟩ := List.mem_map.mp member
      obtain ⟨subscribed, topic⟩ := (chosen entry).mp among
      exact topic ▸ ((exact.registered entry).mp subscribed).2
    · intro registered
      have subscribed :=
        (exact.registered ⟨listener.number, notice.topic, listener⟩).mpr ⟨rfl, registered⟩
      exact List.mem_map.mpr ⟨_, (chosen _).mpr ⟨subscribed, rfl⟩, rfl⟩

theorem Heard.mem_calls_iff {notice : Notice} {turn : List (Happening ω)}
    (heard : Heard record notice turn) {call : Listener ω × Notice} :
    call ∈ calls turn ↔ call.2 = notice ∧ Registered record call.1 notice.topic := by
  obtain ⟨audience, called, -, chosen⟩ := heard
  rw [called, List.mem_map, ← chosen]
  constructor
  · rintro ⟨listener, member, rfl⟩
    exact ⟨rfl, member⟩
  · rintro ⟨rfl, member⟩
    exact ⟨call.1, member, rfl⟩

/-- What happens from one moment to a later one is added to the record, and all that are called in
between are registered for it at some time until then. -/
def Leads (chronicle later : Chronicle ω μ) : Prop :=
  ∃ more, later.record = chronicle.record ++ more ∧ ∀ call ∈ calls more, ∃ during rest,
    more = during ++ rest ∧
    Registered (chronicle.record ++ during) call.1 call.2.topic

theorem Leads.refl (chronicle : Chronicle ω μ) : chronicle.Leads chronicle :=
  ⟨[], (List.append_nil _).symm, nofun⟩

theorem Leads.trans {middle last : Chronicle ω μ} (first : chronicle.Leads middle)
    (second : middle.Leads last) :
    chronicle.Leads last := by
  obtain ⟨before, recorded, earlier⟩ := first
  obtain ⟨after, further, later⟩ := second
  refine ⟨before ++ after, by rw [further, recorded, List.append_assoc], fun call member => ?_⟩
  rw [calls_append, List.mem_append] at member
  rcases member with member | member
  · obtain ⟨during, rest, rfl, registered⟩ := earlier call member
    exact ⟨during, rest ++ after, List.append_assoc .., registered⟩
  · obtain ⟨during, rest, rfl, registered⟩ := later call member
    rw [recorded, List.append_assoc] at registered
    exact ⟨before ++ during, rest, (List.append_assoc ..).symm, registered⟩

theorem publish_append (before after : List Notice) :
    chronicle.publish conduct (before ++ after) =
      (chronicle.publish conduct before).publish conduct after :=
  List.foldl_append

theorem Exact.publish (exact : chronicle.Exact) (notices : List Notice) :
    (chronicle.publish conduct notices).Exact ∧
      chronicle.Leads (chronicle.publish conduct notices) := by
  induction notices generalizing chronicle with
  | nil => exact ⟨exact, .refl chronicle⟩
  | cons notice rest ih =>
    obtain ⟨turn, recorded, heard, opened⟩ := exact.turn conduct notice
    obtain ⟨closed, led⟩ := ih opened
    rw [← List.singleton_append, publish_append]
    refine ⟨closed, Leads.trans ⟨turn, recorded, fun call member => ?_⟩ led⟩
    obtain ⟨rfl, registered⟩ := heard.mem_calls_iff.mp member
    exact ⟨[], turn, rfl, (List.append_nil chronicle.record).symm ▸ registered⟩

theorem Exact.step (exact : chronicle.Exact) (step : Gathering.Step ω) :
    (chronicle.step conduct step).Exact ∧ chronicle.Leads (chronicle.step conduct step) := by
  cases step with
  | subscribe topic observer => exact ⟨exact.subscribe topic observer, [_], rfl, nofun⟩
  | unsubscribe number => exact ⟨exact.unsubscribe number, [_], rfl, nofun⟩
  | publish notices => exact exact.publish conduct notices

theorem Exact.run (exact : chronicle.Exact) (steps : List (Gathering.Step ω)) :
    (chronicle.run conduct steps).Exact ∧ chronicle.Leads (chronicle.run conduct steps) := by
  induction steps generalizing chronicle with
  | nil => exact ⟨exact, .refl chronicle⟩
  | cons step rest ih =>
    obtain ⟨stepped, first⟩ := exact.step conduct step
    obtain ⟨done, later⟩ := ih stepped
    exact ⟨done, first.trans later⟩

/-- The turn of a notice, from the moment when it comes to the one when it is over. -/
structure Delivers (conduct : ω → Notice → Conduct ω μ) (opened closed : Chronicle ω μ)
    (notice : Notice) (turn : List (Happening ω)) : Prop where
  recorded : closed.record = opened.record ++ turn
  heard : Heard opened.record notice turn
  /-- whoever is subscribed in the turn was not called until it is over, but is in the next, if
  still registered for it -/
  added (listener : Listener ω) (topic : Topic) (new : .subscribed listener topic ∈ turn) :
    (∀ call ∈ calls closed.record, call.1.number ≠ listener.number) ∧
      ∀ next, ∃ following, (closed.publish conduct [next]).record = closed.record ++ following ∧
        ((listener, next) ∈ calls following ↔ Registered closed.record listener next.topic)
  /-- whoever is unsubscribed in the turn is not called once it is over, whatever happens -/
  removed (number : Nat) (ended : .unsubscribed number true ∈ turn)
    (later : List (Gathering.Step ω)) :
    ∃ rest, (closed.run conduct later).record = closed.record ++ rest ∧ ∀ call ∈ calls rest,
      call.1.number ≠ number

theorem Exact.delivers (exact : chronicle.Exact) (notice : Notice) :
    ∃ turn, Delivers conduct chronicle (chronicle.publish conduct [notice]) notice turn := by
  obtain ⟨turn, recorded, heard, closed⟩ := exact.turn conduct notice
  have truthful : Truthful (chronicle.record ++ turn) := recorded ▸ closed.truthful
  refine ⟨turn, recorded, heard, fun listener topic new =>
    ⟨fun call called same => ?_, fun next => ?_⟩, fun number ended later => ?_⟩
  · have fresh : listener.number ∈ numbers turn := List.mem_filterMap.mpr ⟨_, new, rfl⟩
    have known : call.1.number ∈ numbers chronicle.record := by
      rw [recorded, calls_append, List.mem_append] at called
      rcases called with before | during
      · exact exact.truthful.mem_numbers_of_called before
      · exact (heard.mem_calls_iff.mp during).2.mem_numbers
    exact Nat.ne_of_lt (truthful.numbers_lt known fresh) same
  · obtain ⟨following, further, others, -⟩ := closed.turn conduct next
    refine ⟨following, further, ?_⟩
    rw [others.mem_calls_iff]
    exact and_iff_right rfl
  · obtain ⟨earlier, since, rfl⟩ := List.append_of_mem ended
    obtain ⟨done, rest, further, called⟩ := closed.run conduct later
    refine ⟨rest, further, fun call member same => ?_⟩
    obtain ⟨during, after, rfl, registered⟩ := called call member
    have told := done.truthful
    rw [further, ← List.append_assoc] at told
    have whole : (chronicle.publish conduct [notice]).record ++ during =
        (chronicle.record ++ earlier) ++ .unsubscribed number true :: (since ++ during) := by
      rw [recorded]
      simp
    rw [whole] at registered told
    exact told.left.not_registered_after same registered

/--
Delivery is exact. Whatever is asked of a notifier from the start on, and whatever its observers do
while they are called, it all goes as in the chronicle of it; and that is right throughout: numbers
are only ever handed out once, and who asks for an end or whether somebody listens is answered
rightly. At any moment the notifier holds just the subscriptions that are registered, and ending one
takes just that away. Notices have their turns in order, and in each all who were registered for it
when it came are called once, in the order of their subscriptions, whether or not some panic.
Whoever is subscribed in a turn is called first in the next, and whoever is unsubscribed in it is
not called any more after it.
-/
theorem delivery_is_exact (conduct : ω → Notice → Conduct ω μ) (memory : μ)
    (steps : List (Gathering.Step ω)) :
    let chronicle := ({ memory } : Chronicle ω μ).run conduct steps
    ({ memory } : Gathering ω μ).run conduct steps = chronicle.gathering ∧
      Truthful chronicle.record ∧
      (numbers chronicle.record).Pairwise (· < ·) ∧
      (∀ entry, entry ∈ chronicle.notifier.subscriptions ↔
        entry.number = entry.observer.number ∧
        Registered chronicle.record entry.observer entry.topic) ∧
      (∀ number,
        ((chronicle.unsubscribe number).1 = true ↔
          ∃ listener topic, listener.number = number ∧ Registered chronicle.record listener topic) ∧
        ∀ entry, entry ∈ (chronicle.unsubscribe number).2.notifier.subscriptions ↔
          entry ∈ chronicle.notifier.subscriptions ∧ entry.number ≠ number) ∧
      ∀ (before : List Notice) (notice : Notice) (after : List Notice),
        let opened := chronicle.publish conduct before
        let closed := opened.publish conduct [notice]
        chronicle.publish conduct (before ++ notice :: after) = closed.publish conduct after ∧
          ∃ turn, Delivers conduct opened closed notice turn := by
  intro chronicle
  have exact : chronicle.Exact := ((exact_start memory).run conduct steps).1
  refine ⟨@run_gathering ω μ conduct { memory } steps, exact.truthful,
    exact.truthful.numbers_ascending, exact.registered, fun number => ⟨?_, ?_⟩,
    fun before notice after => ⟨?_, (exact.publish conduct before).1.delivers conduct notice⟩⟩
  · exact (exact.unsubscribe number).truthful chronicle.record _ [] rfl
  · intro entry
    show entry ∈ chronicle.notifier.subscriptions.filter _ ↔ _
    rw [List.mem_filter, bne_iff_ne]
  · rw [List.append_cons, publish_append, publish_append]

/-- Observers of tenants that are created: one that lets another in and then panics, one that ends a
subscription, and one that only listens. -/
inductive Guest where
  | usher
  | bouncer (number : Nat)
  | listener

def creations : Topic := ⟨.entity .tenant, .created⟩

def Guest.does : Guest → Notice → Conduct Guest Unit
  | .usher, _ => .subscribe creations .listener fun _ => .leave .panic
  | .bouncer number, _ => .unsubscribe number fun _ => .leave .normal
  | .listener, _ => .leave .normal

/-- The guest that is let in while the mill is announced hears of the inn, and the one that is put
out then does not. -/
theorem newcomer_hears_of_inn :
    let tenant (id : String) (valid : ValidId id) : Notice :=
      .entity .created { path := ⟨_, Path.legal_tenant valid⟩, details := .tenant }
    let mill := tenant "mill" (by decide)
    let inn := tenant "inn" (by decide)
    let arrivals := [Guest.usher, .bouncer 3, .listener].map (Gathering.Step.subscribe creations)
    let closed :=
      (({ memory := () } : Chronicle Guest Unit).run Guest.does arrivals).publish Guest.does [mill]
    (calls closed.record).map (·.1.number) = [1, 2, 3] ∧
      (∀ call ∈ calls closed.record, call.1.number ≠ 4) ∧
      ∃ following, (closed.publish Guest.does [inn]).record = closed.record ++ following ∧
        (⟨4, .listener⟩, inn) ∈ calls following ∧ ∀ call ∈ calls following, call.1.number ≠ 3 := by
  intro tenant mill inn arrivals closed
  obtain ⟨-, -, -, -, -, turns⟩ := delivery_is_exact Guest.does () arrivals
  obtain ⟨-, turn, delivers⟩ := turns [] mill [inn]
  have happened : turn = [.called ⟨1, .usher⟩ mill, .subscribed ⟨4, .listener⟩ creations,
      .called ⟨2, .bouncer 3⟩ mill, .unsubscribed 3 true, .called ⟨3, .listener⟩ mill] :=
    List.append_cancel_left (delivers.recorded.symm.trans rfl)
  obtain ⟨unheard, next⟩ := delivers.added ⟨4, .listener⟩ creations (by simp [happened])
  obtain ⟨following, further, hears⟩ := next inn
  obtain ⟨rest, same, silent⟩ := delivers.removed 3 (by simp [happened]) [.publish [inn]]
  obtain rfl : following = rest := List.append_cancel_left (further.symm.trans same)
  have registered : Registered closed.record ⟨4, .listener⟩ creations :=
    ⟨_, _, delivers.recorded.trans (happened ▸ List.append_cons ..), by simp⟩
  exact ⟨rfl, unheard, following, further, hears.mpr registered, silent⟩

end Chronicle

end Estate
