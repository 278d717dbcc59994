import Estate.Graph

namespace Estate.Graph

/-- Paths in ascending order, each once. -/
def ascending (paths : List Path) : List Path :=
  (Table.ofList (paths.map fun path => (path, ()))).keys

/-- The relationships at an entity that a hop speaks of. -/
def matching (graph : Graph) (path : Path) (hop : Hop) : List Relationship :=
  (graph.touching path hop.direction (some hop.name)).filter fun rel =>
    hop.otherEnd.all fun other => rel.otherEnd? path = some other

def landings (graph : Graph) (path : Path) (hop : Hop) : List Path :=
  (graph.matching path hop).filterMap fun rel =>
    (rel.otherEnd? path).filter graph.entities.contains

def passes (graph : Graph) (path : Path) : Test → Bool
  | .kinds kinds => kinds.contains path.kind
  | .ids ids => ids.contains path.id
  | .paths paths => paths.contains path
  | .property name values =>
    match (graph.entities.find? path).bind (·.properties.find? name) with
    | some value => values.any value.same
    | none => false

/-- A hop moves in path mode and tests in filter mode; a test tests in both. A move keeps each
entity it lands on once, where it is first met. -/
def step (graph : Graph) (here : List Path) (step : Step) : List Path :=
  match step.filter, step.mode with
  | .related hop, .path => (here.flatMap fun path => graph.landings path hop).eraseDups
  | .related hop, .filter => here.filter fun path => !(graph.matching path hop).isEmpty
  | .passes test, _ => here.filter fun path => graph.passes path test

/-- Where steps lead, one after another; none if nothing is left while there are steps to go. -/
def stepAll? (graph : Graph) : List Path → List Step → Option (List Path)
  | here, [] => some here
  | [], _ :: _ => none
  | here, step :: rest => stepAll? graph (graph.step here step) rest

mutual

/-- Where a query leads from a set of entities. What several branches reach is repeated. -/
def walk (graph : Graph) (here : List Path) : Query → List Path
  | .mk steps [] => (graph.stepAll? here steps).getD []
  | .mk steps (branch :: rest) =>
    match graph.stepAll? here steps with
    | some there => walk graph there branch ++ walkEach graph there rest
    | none => []

def walkEach (graph : Graph) (here : List Path) : List Query → List Path
  | [] => []
  | branch :: rest => walk graph here branch ++ walkEach graph here rest

end

/-- All that a query reaches from anywhere, in ascending order. -/
def evaluate (graph : Graph) (query : Query) : List Path :=
  ascending (graph.walk graph.entities.keys query)

end Estate.Graph
