import Estate.Entity

namespace Estate

inductive EngineName where
  | memory
  | external (name : String)
  deriving DecidableEq, Repr

/-- The id for a feed in an environment, given the id it proposes; without one, an id is generated.
-/
abbrev FeedNaming := Path → Option String → Option String

structure Settings where
  feedNaming : FeedNaming := fun _ proposed => proposed
  /-- what reads may show; without a filter, everything -/
  resultFilter : Option (Element → Bool) := none
  engine : EngineName := .memory
  /-- passed on to the engine unread -/
  properties : Table String String := ∅

namespace Settings

def isVisible (settings : Settings) (element : Element) : Bool :=
  settings.resultFilter.all (· element)

def property? (settings : Settings) (key : String) : Option String := settings.properties.find? key

def withProperty (settings : Settings) (key text : String) : Settings :=
  { settings with properties := settings.properties.insert key text }

end Settings

end Estate
