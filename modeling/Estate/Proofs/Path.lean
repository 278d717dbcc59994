import Estate.Path

namespace Estate.Path

variable {path child : Path} {kind : Kind} {id : String}

theorem segments_extend (extended : path.extend kind id = .ok child) :
    child.segments = path.segments ++ [⟨kind, id⟩] := by
  unfold extend at extended
  split at extended
  · cases extended
  · split at extended
    · obtain rfl := Except.ok.inj extended
      rfl
    · cases extended

theorem up?_of_segments {segment : Segment}
    (segments : child.segments = path.segments ++ [segment]) :
    child.up? = some path := by
  have long : 1 < child.length := by
    have rooted := List.length_pos_iff.mpr path.ne_nil
    simp only [length, segments, List.length_append, List.length_singleton]
    omega
  simp [up?, long, segments]

theorem up?_extend (extended : path.extend kind id = .ok child) : child.up? = some path :=
  up?_of_segments (segments_extend extended)

theorem up?_tenant (made : tenant id = .ok path) : path.up? = none := by
  unfold tenant at made
  split at made
  · cases made
  · obtain rfl := Except.ok.inj made
    rfl

theorem up?_eq_some (below : path.kind ≠ .tenant) : ∃ parent, path.up? = some parent := by
  have long : 1 < path.length := by
    have rooted := List.length_pos_iff.mpr path.ne_nil
    refine Nat.lt_of_le_of_ne rooted fun single => below ?_
    obtain ⟨segment, only⟩ := List.length_eq_one_iff.mp single.symm
    have tenant := path.legal.rooted
    simp only [only, List.head?_cons, Option.map_some, Option.some.injEq] at tenant
    simp [kind, last, only, tenant]
  exact ⟨_, dif_pos long⟩

/-- What lies further down a path begins with the same tenant. -/
theorem first_append {rest : List Segment} (segments : child.segments = path.segments ++ rest) :
    child.first = path.first := by
  have first : some child.first = some path.first := by
    rw [first, ← List.head?_eq_some_head, segments, List.head?_append,
      List.head?_eq_some_head path.ne_nil]
    rfl
  exact Option.some.inj first

theorem tenantId_append {rest : List Segment} (segments : child.segments = path.segments ++ rest) :
    child.tenantId = path.tenantId := congrArg Segment.id (first_append segments)

theorem root_append {rest : List Segment} (segments : child.segments = path.segments ++ rest) :
    child.root = path.root := by
  simp only [root, first_append segments]

theorem tenantId_extend (extended : path.extend kind id = .ok child) :
    child.tenantId = path.tenantId :=
  tenantId_append (segments_extend extended)

theorem tenantId_root (path : Path) : path.root.tenantId = path.tenantId := rfl

theorem segments_up? (up : child.up? = some path) :
    child.segments = path.segments ++ [child.last] := by
  unfold up? at up
  split at up
  · obtain rfl := Option.some.inj up
    exact (List.dropLast_concat_getLast child.ne_nil).symm
  · cases up

theorem tenantId_up? (up : child.up? = some path) : path.tenantId = child.tenantId :=
  (tenantId_append (segments_up? up)).symm

theorem ne_of_up? (up : child.up? = some path) : child ≠ path := by
  rintro rfl
  have longer := congrArg List.length (segments_up? up)
  simp at longer

theorem kind_root (path : Path) : path.root.kind = .tenant := by
  have rooted := path.legal.rooted
  rw [List.head?_eq_some_head path.ne_nil] at rooted
  exact Option.some.inj rooted

theorem eq_of_segments (same : path.segments = child.segments) : path = child := by
  cases path
  cases child
  cases same
  rfl

/-- What is directly below something may be contained in it. -/
theorem fits_of_nested {segments : List Segment} {last above : Segment}
    (nested : Nested (segments ++ [last])) (found : segments.getLast? = some above) :
    above.kind ∈ last.kind.parents := by
  induction segments with
  | nil => cases found
  | cons first rest ih =>
    cases rest with
    | nil =>
      obtain rfl := Option.some.inj found
      exact nested.1
    | cons second rest => exact ih nested.2 (by simpa using found)

theorem up?_eq_none (top : path.kind = .tenant) : path.up? = none := by
  cases up : path.up? with
  | none => rfl
  | some parent =>
    have segments := segments_up? up
    have nested := path.legal.nested
    rw [segments] at nested
    have fits := fits_of_nested nested (List.getLast?_eq_some_getLast parent.ne_nil)
    rw [show path.last.kind = .tenant from top] at fits
    cases fits

theorem segments_of_top (top : path.kind = .tenant) : path.segments = [path.last] := by
  have short : ¬1 < path.length := by simpa [up?] using up?_eq_none top
  have rooted := List.length_pos_iff.mpr path.ne_nil
  obtain ⟨segment, only⟩ :=
    List.length_eq_one_iff.mp (show path.segments.length = 1 by unfold length at short; omega)
  simp [last, only]

theorem tenantId_tenant (top : path.kind = .tenant) : path.tenantId = path.id := by
  simp only [tenantId, first, segments_of_top top, List.head_cons, id]

theorem extend_eq_ok_iff :
    path.extend kind id = .ok child ↔ child.segments = path.segments ++ [⟨kind, id⟩] := by
  constructor
  · exact segments_extend
  · intro segments
    have valid : idFault? kind id = none := by
      refine idFault?_eq_none_iff.mpr (child.legal.named ⟨kind, id⟩ ?_)
      simp [segments]
    have fits : path.kind ∈ kind.parents := by
      have nested := child.legal.nested
      rw [segments] at nested
      exact fits_of_nested nested (List.getLast?_eq_some_getLast path.ne_nil)
    unfold extend
    split
    · rename_i fault bad
      simp [valid] at bad
    · rw [dif_pos fits]
      cases child
      cases segments
      rfl

theorem tenant_eq_ok_iff : tenant id = .ok path ↔ path.segments = [⟨.tenant, id⟩] := by
  constructor
  · intro made
    unfold tenant at made
    split at made
    · cases made
    · obtain rfl := Except.ok.inj made
      rfl
  · intro segments
    have valid : idFault? .tenant id = none := by
      refine idFault?_eq_none_iff.mpr (path.legal.named ⟨.tenant, id⟩ ?_)
      simp [segments]
    unfold tenant
    split
    · rename_i fault bad
      simp [valid] at bad
    · cases path
      cases segments
      rfl

theorem extend_isOk (named : ValidId id) (fits : path.kind ∈ kind.parents) :
    ∃ child, path.extend kind id = .ok child :=
  ⟨⟨path.segments ++ [⟨kind, id⟩], legal_append named fits⟩, extend_eq_ok_iff.mpr rfl⟩

theorem tenant_isOk (named : ValidId id) : ∃ path, tenant id = .ok path :=
  ⟨⟨[⟨.tenant, id⟩], legal_tenant named⟩, tenant_eq_ok_iff.mpr rfl⟩

theorem nested_of_append {segments rest : List Segment} (nested : Nested (segments ++ rest)) :
    Nested segments := by
  induction segments with
  | nil => trivial
  | cons above below ih =>
    cases below with
    | nil => trivial
    | cons next others => exact ⟨nested.1, ih nested.2⟩

theorem exists_of_append {segments rest : List Segment} (whole : path.segments = segments ++ rest)
    (some : segments ≠ []) : ∃ above : Path, above.segments = segments := by
  have legal := path.legal
  rw [whole] at legal
  refine ⟨⟨segments, ?_, nested_of_append legal.nested, fun segment member => ?_⟩, rfl⟩
  · obtain ⟨first, others, rfl⟩ := List.exists_cons_of_ne_nil some
    exact legal.rooted
  · exact legal.named segment (List.mem_append_left _ member)

theorem extendAll_eq_ok_iff {segments : List Segment} :
    path.extendAll segments = .ok child ↔ child.segments = path.segments ++ segments := by
  induction segments generalizing path with
  | nil =>
    rw [extendAll, List.append_nil, Except.ok.injEq]
    constructor
    · rintro rfl
      rfl
    · exact fun same => (eq_of_segments same).symm
  | cons segment rest ih =>
    rw [extendAll]
    constructor
    · intro extended
      split at extended
      · rename_i next first
        rw [ih.mp extended, segments_extend first, List.append_assoc]
        rfl
      · cases extended
    · intro whole
      obtain ⟨next, first⟩ :=
        @exists_of_append child (path.segments ++ [segment]) rest (by simpa using whole) (by simp)
      rw [extend_eq_ok_iff.mpr first]
      exact ih.mpr (by simpa [first] using whole)

theorem ofSegments_eq_ok_iff {segments : List Segment} :
    ofSegments segments = .ok path ↔ path.segments = segments := by
  cases segments with
  | nil =>
    constructor
    · nofun
    · exact fun none => absurd none path.ne_nil
  | cons segment rest =>
    rw [ofSegments]
    constructor
    · intro built
      split at built
      · rename_i top
        split at built
        · rename_i tenant made
          rw [extendAll_eq_ok_iff.mp built, tenant_eq_ok_iff.mp made, ← top]
          rfl
        · cases built
      · cases built
    · intro whole
      have top : segment.kind = .tenant := by
        have rooted := path.legal.rooted
        simpa [whole] using rooted
      obtain ⟨tenant, made⟩ := @exists_of_append path [segment] rest whole (by simp)
      have first : Path.tenant segment.id = .ok tenant := tenant_eq_ok_iff.mpr (by rw [made, ← top])
      rw [if_pos top, first]
      exact extendAll_eq_ok_iff.mpr (by rw [whole, made]; rfl)

end Estate.Path
