import Estate.Error
import Estate.Proofs.Path.Text
import Mathlib.Data.List.Induction

namespace Estate.Path

variable {path child : Path} {segment : Segment} {text id : String} {kind : Kind}

/-- The texts of paths, each with the kind that it ends with: a segment of a tenant, and then any
number of segments of kinds that may lie right below what stands before them. -/
inductive Spelled : String → Kind → Prop where
  | tenant {id : String} (named : ValidId id) : Spelled ("/t;" ++ id) .tenant
  | next {text id : String} {above kind : Kind} (spelled : Spelled text above)
      (fits : above ∈ kind.parents)
      (named : ValidId id) : Spelled (text ++ "/" ++ kind.code ++ ";" ++ id) kind

theorem text_append (segments : child.segments = path.segments ++ [segment]) :
    child.text = path.text ++ "/" ++ segment.kind.code ++ ";" ++ segment.id := by
  refine String.toList_inj.mp ?_
  simp [toList_text, segments, Segment.text]

theorem text_top (segments : path.segments = [⟨.tenant, id⟩]) : path.text = "/t;" ++ id := by
  refine String.toList_inj.mp ?_
  simp [toList_text, segments, Segment.text, Kind.code]

theorem kind_append (segments : child.segments = path.segments ++ [segment]) :
    child.kind = segment.kind := by
  simp [Path.kind, last, segments]

theorem spelled_text (path : Path) : Spelled path.text path.kind := by
  generalize whole : path.segments = segments
  induction segments using List.reverseRecOn generalizing path with
  | nil => exact absurd whole path.ne_nil
  | append_singleton above last ih =>
    have named : ValidId last.id := path.legal.named last (by simp [whole])
    by_cases top : above = []
    · subst top
      have tenant : last.kind = .tenant := by simpa [whole] using path.legal.rooted
      have alone : path.segments = [⟨.tenant, last.id⟩] := by rw [whole, ← tenant]; rfl
      rw [text_top alone, show path.kind = .tenant by simp [Path.kind, Path.last, alone]]
      exact .tenant named
    · obtain ⟨parent, rfl⟩ := exists_of_append whole top
      have nested := path.legal.nested
      rw [whole] at nested
      have fits : parent.kind ∈ last.kind.parents :=
        fits_of_nested nested (List.getLast?_eq_some_getLast parent.ne_nil)
      rw [text_append whole, kind_append whole]
      exact .next (ih parent rfl) fits named

theorem Spelled.exists_path (spelled : Spelled text kind) :
    ∃ path : Path, path.text = text ∧ path.kind = kind := by
  induction spelled with
  | tenant named =>
    obtain ⟨path, made⟩ := tenant_isOk named
    have segments := tenant_eq_ok_iff.mp made
    exact ⟨path, text_top segments, by simp [Path.kind, last, segments]⟩
  | next spelled fits named ih =>
    obtain ⟨path, rfl, rfl⟩ := ih
    obtain ⟨child, extended⟩ := extend_isOk named fits
    have segments := extend_eq_ok_iff.mp extended
    have written := text_append segments
    exact ⟨child, written, kind_append segments⟩

/-- Cutting at separators loses nothing. -/
theorem flatMap_pieces (separator : Char) (joined : List Char) :
    (pieces separator joined).flatMap (separator :: ·) = separator :: joined := by
  induction joined with
  | nil => rfl
  | cons c rest ih =>
    rw [pieces]
    split
    · rename_i here
      rw [List.flatMap_cons, ih, here]
      rfl
    · split
      · rename_i nothing
        simp [nothing] at ih
      · rename_i piece others cut
        simpa [cut] using ih

theorem eq_append_of_cut? {separator : Char} {whole before after : List Char}
    (cut : cut? separator whole = some (before, after)) : whole = before ++ separator :: after := by
  induction whole generalizing before with
  | nil => cases cut
  | cons c rest ih =>
    rw [cut?] at cut
    split at cut
    · rename_i here
      cases cut
      rw [here]
      rfl
    · obtain ⟨⟨first, last⟩, found, same⟩ := Option.map_eq_some_iff.mp cut
      cases same
      rw [ih found]
      rfl

theorem text_of_readSegment {whole : String} {part : List Char}
    (read : readSegment whole part = .ok segment) :
    segment.text.toList = part := by
  unfold readSegment at read
  split at read
  · cases read
  · rename_i code id cut
    split at read
    · cases read
    · rename_i kind known
      cases read
      rw [eq_append_of_cut? cut]
      simp [Segment.text, Kind.code_of_ofCode? known]

theorem texts_of_mapM {whole : String} {parts : List (List Char)} {segments : List Segment}
    (read : parts.mapM (readSegment whole) = .ok segments) :
    segments.map (·.text.toList) = parts := by
  induction parts generalizing segments with
  | nil =>
    cases read
    rfl
  | cons part rest ih =>
    rw [List.mapM_cons] at read
    obtain ⟨first, here, read⟩ := bind_eq_ok_iff.mp read
    obtain ⟨others, later, read⟩ := bind_eq_ok_iff.mp read
    cases read
    rw [List.map_cons, text_of_readSegment here, ih later]

theorem text_of_parse (read : parse text = .ok path) : path.text = text := by
  unfold parse at read
  split at read
  · rename_i joined opens
    split at read
    · rename_i segments found
      refine String.toList_inj.mp ?_
      rw [toList_text, ofSegments_eq_ok_iff.mp read, texts_of_mapM found, flatMap_pieces, opens]
    · cases read
  · cases read

theorem parse_eq_ok_iff : parse text = .ok path ↔ path.text = text := by
  constructor
  · exact text_of_parse
  · rintro rfl
    exact parse_text path

/-- A text is read as a path that ends with a kind just where it is spelled so. -/
theorem exists_parse_iff : (∃ path, parse text = .ok path ∧ path.kind = kind) ↔
    Spelled text kind := by
  simp only [parse_eq_ok_iff]
  constructor
  · rintro ⟨path, rfl, rfl⟩
    exact spelled_text path
  · exact Spelled.exists_path

/--
Texts and paths correspond to each other. Every path is read back from its text, and what is read as
a path is the text of just that one. What is read is what is spelled: one segment or more, of a
tenant first and then of kinds that may lie below the one before, with ids that are not empty and
hold no separator. Every other text is refused as no path.
-/
theorem texts_correspond_to_paths :
    (∀ path : Path, parse path.text = .ok path) ∧
      (∀ (text : String) (path : Path), parse text = .ok path → path.text = text) ∧
      (∀ (text : String) (kind : Kind), (∃ path, parse text = .ok path ∧ path.kind = kind) ↔
        Spelled text kind) ∧
      ∀ text : String, (¬∃ kind, Spelled text kind) →
        ∃ fault, parse text = .error fault ∧ (Error.path fault).family = .invalidPath := by
  refine ⟨parse_text, fun _ _ => text_of_parse, fun _ _ => exists_parse_iff,
    fun text unspelled => ?_⟩
  cases read : parse text with
  | ok path => exact absurd ⟨path.kind, exists_parse_iff.mp ⟨path, read, rfl⟩⟩ unspelled
  | error fault => exact ⟨fault, rfl, rfl⟩

end Estate.Path
