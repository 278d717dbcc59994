import Estate.Path.Text
import Estate.Proofs.Path

namespace Estate.Path

theorem cut?_append {separator : Char} {before : List Char} (clear : separator ∉ before)
    (after : List Char) :
    cut? separator (before ++ separator :: after) = some (before, after) := by
  induction before with
  | nil => simp [cut?]
  | cons c rest ih =>
    obtain ⟨differs, clear⟩ := not_or.mp (mt List.mem_cons.mpr clear)
    simp [cut?, Ne.symm differs, ih clear]

theorem pieces_of_clear {separator : Char} {piece : List Char} (clear : separator ∉ piece) :
    pieces separator piece = [piece] := by
  induction piece with
  | nil => rfl
  | cons c rest ih =>
    obtain ⟨differs, clear⟩ := not_or.mp (mt List.mem_cons.mpr clear)
    simp [pieces, Ne.symm differs, ih clear]

theorem pieces_append {separator : Char} {piece : List Char} (clear : separator ∉ piece)
    (rest : List Char) :
    pieces separator (piece ++ separator :: rest) = piece :: pieces separator rest := by
  induction piece with
  | nil => simp [pieces]
  | cons c more ih =>
    obtain ⟨differs, clear⟩ := not_or.mp (mt List.mem_cons.mpr clear)
    simp [pieces, Ne.symm differs, ih clear]

theorem pieces_of_joined {separator : Char} {pieces : List (List Char)} {joined : List Char}
    (clear : ∀ piece ∈ pieces, separator ∉ piece)
    (whole : separator :: joined = pieces.flatMap (separator :: ·)) :
    Path.pieces separator joined = pieces := by
  induction pieces generalizing joined with
  | nil => simp at whole
  | cons piece rest ih =>
    obtain ⟨here, clear⟩ := List.forall_mem_cons.mp clear
    simp only [List.flatMap_cons, List.cons_append, List.cons.injEq, true_and] at whole
    cases rest with
    | nil => simpa [whole] using pieces_of_clear here
    | cons next others =>
      simp only [List.flatMap_cons, List.cons_append] at whole
      rw [whole, pieces_append here, ih clear (by simp)]

theorem code_clear (kind : Kind) : '/' ∉ kind.code.toList ∧ ';' ∉ kind.code.toList := by
  cases kind <;> decide

theorem segment_text_clear {segment : Segment} (valid : ValidId segment.id) :
    '/' ∉ segment.text.toList := by
  simp [Segment.text, (code_clear segment.kind).1, valid.2.1]

theorem readSegment_text (whole : String) (segment : Segment) :
    readSegment whole segment.text.toList = .ok segment := by
  have cut : cut? ';' segment.text.toList = some (segment.kind.code.toList, segment.id.toList) := by
    simpa [Segment.text] using cut?_append (code_clear segment.kind).2 segment.id.toList
  simp [readSegment, cut, Kind.ofCode?_code]

theorem mapM_readSegment_text (whole : String) (segments : List Segment) :
    (segments.map fun segment => segment.text.toList).mapM (readSegment whole) = .ok segments := by
  induction segments with
  | nil => rfl
  | cons segment rest ih =>
    simp only [List.map_cons, List.mapM_cons, readSegment_text, ih]
    rfl

theorem toList_text (path : Path) :
    path.text.toList = (path.segments.map fun segment => segment.text.toList).flatMap
    ('/' :: ·) := by
  simp [text, List.flatMap_map]

/-- Reading undoes writing. -/
theorem parse_text (path : Path) : parse path.text = .ok path := by
  have clear : ∀ piece ∈ path.segments.map fun segment => segment.text.toList, '/' ∉ piece := by
    intro piece member
    obtain ⟨segment, stands, rfl⟩ := List.mem_map.mp member
    exact segment_text_clear (path.legal.named segment stands)
  obtain ⟨first, rest, whole⟩ := List.exists_cons_of_ne_nil path.ne_nil
  have opens : ∃ joined, path.text.toList = '/' :: joined := by simp [toList_text, whole]
  obtain ⟨joined, opens⟩ := opens
  have cut := pieces_of_joined clear (by rw [← opens, toList_text])
  simp only [parse, opens, cut, mapM_readSegment_text]
  exact ofSegments_eq_ok_iff.mpr rfl

end Estate.Path
