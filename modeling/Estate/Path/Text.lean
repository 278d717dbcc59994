import Estate.Path

namespace Estate.Path

/-- The stretches between separators, in order; there is always at least one. -/
def pieces (separator : Char) : List Char → List (List Char)
  | [] => [[]]
  | c :: rest =>
    if c = separator then [] :: pieces separator rest
    else
      match pieces separator rest with
      | [] => [[c]]
      | piece :: others => (c :: piece) :: others

/-- What stands before and after the first separator. -/
def cut? (separator : Char) : List Char → Option (List Char × List Char)
  | [] => none
  | c :: rest =>
    if c = separator then some ([], rest)
    else (cut? separator rest).map fun (before, after) => (c :: before, after)

def readSegment (whole : String) (part : List Char) : Except Fault Segment :=
  match cut? ';' part with
  | none => .error (.malformedSegment (String.ofList part) whole)
  | some (code, id) =>
    match Kind.ofCode? (String.ofList code) with
    | none => .error (.unknownCode (String.ofList code) whole)
    | some kind => .ok ⟨kind, String.ofList id⟩

/-- Every segment is read before the first is checked. -/
def parse (text : String) : Except Fault Path :=
  match text.toList with
  | '/' :: rest =>
    match (pieces '/' rest).mapM (readSegment text) with
    | .ok segments => ofSegments segments
    | .error fault => .error fault
  | _ => .error (.noLeadingSlash text)

end Estate.Path
