import Estate.Entity

namespace Estate

inductive Action where
  | created
  | updated
  | deleted
  deriving DecidableEq, Repr

namespace Action

def all : List Action := [created, updated, deleted]

def name : Action → String
  | created => "created"
  | updated => "updated"
  | deleted => "deleted"

end Action

structure Topic where
  category : Category
  action : Action
  deriving DecidableEq, Repr

def Topic.text (topic : Topic) : String := topic.category.name ++ " " ++ topic.action.name

/-- The element as it stands after the action, or stood before its deletion. -/
structure Notice where
  action : Action
  element : Element

namespace Notice

def entity (action : Action) (entity : Entity) : Notice := ⟨action, .entity entity⟩

def relationship (action : Action) (rel : Relationship) : Notice := ⟨action, .relationship rel⟩

def topic (notice : Notice) : Topic := ⟨notice.element.category, notice.action⟩

def text (notice : Notice) : String :=
  match notice.element with
  | .entity entity => entity.kind.name ++ " " ++ entity.path.text ++ " " ++ notice.action.name
  | .relationship rel => "relationship " ++ rel.text ++ " " ++ notice.action.name

end Notice

/-- A result, and the notices to publish once it is committed, in order. -/
structure Announced (α : Type) where
  value : α
  notices : List Notice := []

namespace Announced

def announce (result : Announced α) (notice : Notice) : Announced α :=
  { result with notices := result.notices ++ [notice] }

def map (f : α → β) (result : Announced α) : Announced β := ⟨f result.value, result.notices⟩

end Announced

end Estate
