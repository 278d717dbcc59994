import Estate.Query

namespace Estate

def Test.text : Test → String
  | .kinds listed => "kind in [" ++ ", ".intercalate (listed.map (·.name)) ++ "]"
  | .ids listed => "id in [" ++ ", ".intercalate listed ++ "]"
  | .paths listed => "path in [" ++ ", ".intercalate (listed.map (·.text)) ++ "]"
  | .property name values => name ++ " in [" ++ ", ".intercalate (values.map (·.render)) ++ "]"

def Hop.text (hop : Hop) : String :=
  let line :=
    match hop.direction with
    | .outgoing => "-" ++ hop.name ++ "->"
    | .incoming => "<-" ++ hop.name ++ "-"
    | .both => "-" ++ hop.name ++ "-"
  match hop.otherEnd with
  | some path => line ++ "(" ++ path.text ++ ")"
  | none => line

def Filter.text : Filter → String
  | .related hop => hop.text
  | .passes test => test.text

/-- A slash marks a move, square brackets a condition. -/
def Step.text (step : Step) : String :=
  match step.mode with
  | .path => "/" ++ step.filter.text
  | .filter => "[" ++ step.filter.text ++ "]"

namespace Query

mutual

def text : Query → String
  | mk steps [] => " ".intercalate (steps.map (·.text))
  | mk steps (branch :: rest) =>
    " ".intercalate (steps.map (·.text)) ++ " (" ++ " | ".intercalate (text branch :: texts rest) ++
      ")"

def texts : List Query → List String
  | [] => []
  | branch :: rest => text branch :: texts rest

end

end Query

end Estate
