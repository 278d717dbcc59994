import Estate.Query

namespace Estate.Query

/-- What was added so far stays apart from the seed until `build`. -/
structure Builder where
  seed : Query
  tail : Query
  mode : Mode

def extend (query : Query) : Builder := ⟨query, empty, .path⟩

def startPath : Builder := ⟨empty, empty, .path⟩

def startFilter : Builder := ⟨empty, empty, .filter⟩

namespace Builder

def path (builder : Builder) : Builder := { builder with mode := .path }

def filter (builder : Builder) : Builder := { builder with mode := .filter }

def append (builder : Builder) (query : Query) : Builder :=
  { builder with tail := builder.tail.followedBy query }

/-- Adds filters that must all hold, in the mode in force. -/
def all (builder : Builder) (filters : List Filter) : Builder :=
  builder.append (line builder.mode filters)

/-- The query that any one of several groups of filters may satisfy. -/
def alternatives (mode : Mode) : List (List Filter) → Query
  | [] => Query.empty
  | [only] => line mode only
  | groups => Query.mk [] (groups.map (line mode))

def anyOf (builder : Builder) (groups : List (List Filter)) : Builder :=
  builder.append (alternatives builder.mode groups)

def build (builder : Builder) : Query := builder.seed.followedBy builder.tail

end Builder

end Estate.Query
