import Estate.Path.Text
import Estate.Proofs.Path.Bytes
import Estate.Proofs.Path.Text
import Mathlib.Data.List.Induction
import Mathlib.Data.List.Infix
import Mathlib.Logic.Relation

namespace Estate

section Lists

variable {α : Type} [Ord α] [Std.LawfulEqOrd α]

theorem compare_append {xs ys : List α} (more : ys ≠ []) : compare xs (xs ++ ys) = .lt := by
  induction xs with
  | nil =>
    obtain ⟨y, ys, rfl⟩ := List.exists_cons_of_ne_nil more
    rfl
  | cons x xs ih =>
    have same : compare x x = .eq := Std.ReflCmp.compare_self
    rw [List.cons_append, List.compare_cons_cons, same, Ordering.eq_then, ih]

/-- What comes between two lists that begin alike begins like them. -/
theorem prefix_of_between [Std.TransOrd α] {top low middle high : List α}
    (beginsLow : top <+: low) (beginsHigh : top <+: high)
    (lower : (compare low middle).isLE) (higher : (compare middle high).isLE) : top <+: middle := by
  induction top generalizing low middle high with
  | nil => exact List.nil_prefix
  | cons first rest ih =>
    obtain ⟨low, rfl⟩ := beginsLow
    obtain ⟨high, rfl⟩ := beginsHigh
    cases middle with
    | nil => cases lower
    | cons next middle =>
      rw [List.cons_append, List.compare_cons_cons, Ordering.isLE_then_iff_and] at lower higher
      obtain ⟨upwards, lower⟩ := lower
      obtain ⟨downwards, higher⟩ := higher
      obtain rfl : first = next :=
        Std.LawfulEqOrd.eq_of_compare (Std.OrientedCmp.isLE_antisymm upwards downwards)
      have same : compare first first = .eq := Std.ReflCmp.compare_self
      rw [same] at lower higher
      have within := ih (List.prefix_append rest low) (List.prefix_append rest high)
        (lower.resolve_left nofun) (higher.resolve_left nofun)
      exact List.cons_prefix_cons.mpr ⟨rfl, within⟩

end Lists

section Ranges

variable {α : Type} {follows : α → α → Prop} {holds : α → Bool}

/-- What satisfies a condition stands together in a list in order, if all does that comes between
any two that do. -/
theorem filter_infix
    (between : ∀ low middle high, follows low middle → follows middle high → holds low →
      holds high → holds middle)
    {items : List α} (sorted : items.Pairwise follows) : items.filter holds <:+: items := by
  -- Once there was one, the others follow one upon another.
  have onwards {first : α} {rest : List α} (met : holds first)
      (sorted : (first :: rest).Pairwise follows) :
      rest.filter holds <+: rest := by
    induction rest with
    | nil => exact List.nil_prefix
    | cons next rest ih =>
      obtain ⟨after, sorted⟩ := List.pairwise_cons.mp sorted
      obtain ⟨later, ordered⟩ := List.pairwise_cons.mp sorted
      by_cases here : holds next
      · have skipping : (first :: rest).Pairwise follows :=
          List.pairwise_cons.mpr
            ⟨fun other member => after other (List.mem_cons_of_mem next member), ordered⟩
        rw [List.filter_cons_of_pos here]
        exact List.cons_prefix_cons.mpr ⟨rfl, ih skipping⟩
      · have none : (next :: rest).filter holds = [] := by
          refine List.filter_eq_nil_iff.mpr fun other member satisfied => here ?_
          rcases List.mem_cons.mp member with rfl | member
          · exact satisfied
          · exact between first next other (after next List.mem_cons_self)
              (later other member) met satisfied
        rw [none]
        exact List.nil_prefix
  induction items with
  | nil => exact List.infix_rfl
  | cons first rest ih =>
    by_cases here : holds first
    · rw [List.filter_cons_of_pos here]
      exact (List.cons_prefix_cons.mpr ⟨rfl, onwards here sorted⟩).isInfix
    · rw [List.filter_cons_of_neg here]
      exact List.infix_cons (ih (List.pairwise_cons.mp sorted).2)

end Ranges

/-- A segment of an earlier kind comes first; of one kind, the segment whose id has the lesser
bytes. -/
def Segment.Precedes (a b : Segment) : Prop :=
  a.kind.rank < b.kind.rank ∨ a.kind = b.kind ∧ Text.bytes a.id < Text.bytes b.id

theorem Segment.compare_eq_lt_iff {a b : Segment} : compare a b = .lt ↔ a.Precedes b := by
  have parts : compare a b = (compare a.kind.rank b.kind.rank).then (compare a.id b.id) := rfl
  have kinds : a.kind.rank = b.kind.rank ↔ a.kind = b.kind :=
    ⟨Kind.rank_injective, congrArg Kind.rank⟩
  rw [parts, Ordering.then_eq_lt, Nat.compare_eq_lt, Nat.compare_eq_eq,
    Text.compare_eq_lt_iff_bytes, kinds, Precedes]

namespace Path

variable {path child above below : Path} {kind : Kind} {id : String}

theorem compare_eq_lt_iff {a b : Path} :
    compare a b = .lt ↔ List.Lex Segment.Precedes a.segments b.segments := by
  have lists (as bs : List Segment) : compare as bs = .lt ↔ List.Lex Segment.Precedes as bs := by
    induction as generalizing bs with
    | nil =>
      cases bs with
      | nil => exact ⟨nofun, nofun⟩
      | cons b bs => exact ⟨fun _ => .nil, fun _ => rfl⟩
    | cons a as ih =>
      cases bs with
      | nil => exact ⟨nofun, nofun⟩
      | cons b bs =>
        rw [List.compare_cons_cons, Ordering.then_eq_lt, ih, Std.LawfulEqOrd.compare_eq_iff_eq,
          Segment.compare_eq_lt_iff, List.cons_lex_cons_iff]
  exact lists a.segments b.segments

theorem extend_eq_ok_iff_up? :
    path.extend kind id = .ok child ↔ child.up? = some path ∧ child.last = ⟨kind, id⟩ := by
  rw [extend_eq_ok_iff]
  constructor
  · intro whole
    exact ⟨up?_of_segments whole, by simp [last, whole]⟩
  · rintro ⟨up, ends⟩
    rw [segments_up? up, ends]

/-- From a tenant's segment on, a path is built by extending the path of the tenant. -/
theorem ofSegments_tenant (id : String) (rest : List Segment) : ofSegments (⟨.tenant, id⟩ :: rest) =
    (tenant id >>= fun top => rest.foldlM (fun above next => above.extend next.kind next.id)
      top) := by
  have extended (top : Path) :
      top.extendAll rest = rest.foldlM (fun above next => above.extend next.kind next.id) top := by
    induction rest generalizing top with
    | nil => rfl
    | cons segment rest ih =>
      rw [extendAll, List.foldlM_cons]
      cases top.extend segment.kind segment.id with
      | error fault => rfl
      | ok next => exact ih next
  rw [ofSegments, if_pos rfl]
  cases tenant id with
  | error fault => rfl
  | ok top => exact extended top

theorem isAncestorOf_iff :
    above.isAncestorOf below ↔ ∃ rest ≠ [], below.segments = above.segments ++ rest := by
  rw [isAncestorOf, Bool.and_eq_true, decide_eq_true_iff, List.isPrefixOf_iff_prefix]
  constructor
  · rintro ⟨longer, rest, whole⟩
    refine ⟨rest, fun none => ?_, whole.symm⟩
    simp [length, ← whole, none] at longer
  · rintro ⟨rest, some, whole⟩
    refine ⟨?_, rest, whole.symm⟩
    rw [length, length, whole, List.length_append]
    exact Nat.lt_add_of_pos_right (List.length_pos_iff.mpr some)

theorem isParentOf_iff : above.isParentOf below ↔ below.up? = some above := by
  rw [isParentOf, Bool.and_eq_true, beq_iff_eq, isAncestorOf_iff]
  constructor
  · rintro ⟨longer, rest, -, whole⟩
    rw [length, length, whole, List.length_append, Nat.add_left_cancel_iff] at longer
    obtain ⟨segment, rfl⟩ := List.length_eq_one_iff.mp longer.symm
    exact up?_of_segments whole
  · intro up
    have whole := segments_up? up
    refine ⟨?_, [below.last], List.cons_ne_nil _ _, whole⟩
    rw [length, length, whole, List.length_append]
    rfl

/-- What is above a path is what going up from it leads to. -/
theorem isAncestorOf_iff_transGen :
    above.isAncestorOf below ↔ Relation.TransGen
    (fun lower upper : Path => lower.up? = some upper) below above := by
  rw [isAncestorOf_iff]
  constructor
  · rintro ⟨rest, some, whole⟩
    induction rest using List.reverseRecOn generalizing below with
    | nil => exact absurd rfl some
    | append_singleton rest last ih =>
      by_cases direct : rest = []
      · subst direct
        exact .single (up?_of_segments whole)
      · rw [← List.append_assoc] at whole
        obtain ⟨middle, between⟩ := exists_of_append whole (by simp [direct])
        rw [← between] at whole
        exact .head (up?_of_segments whole) (ih direct between)
  · intro climbed
    induction climbed with
    | single up => exact ⟨_, List.cons_ne_nil _ _, segments_up? up⟩
    | tail _ up ih =>
      obtain ⟨rest, -, whole⟩ := ih
      exact ⟨_, List.cons_ne_nil _ _, by rw [whole, segments_up? up, List.append_assoc]; rfl⟩

theorem compare_of_isAncestorOf (ancestor : above.isAncestorOf below) :
    compare above below = .lt := by
  obtain ⟨rest, some, whole⟩ := isAncestorOf_iff.mp ancestor
  show compare above.segments below.segments = .lt
  rw [whole]
  exact compare_append some

def covers (top path : Path) : Bool := top = path || top.isAncestorOf path

theorem covers_iff {top : Path} : top.covers path ↔ top.segments <+: path.segments := by
  rw [covers, Bool.or_eq_true, decide_eq_true_iff, isAncestorOf_iff]
  constructor
  · rintro (rfl | ⟨rest, -, whole⟩)
    · exact List.prefix_rfl
    · exact ⟨rest, whole.symm⟩
  · rintro ⟨rest, whole⟩
    by_cases none : rest = []
    · subst none
      exact .inl (eq_of_segments (by simpa using whole))
    · exact .inr ⟨rest, none, whole.symm⟩

theorem covers_of_between {top low middle high : Path} (lower : (compare low middle).isLE)
    (higher : (compare middle high).isLE) (coversLow : top.covers low)
    (coversHigh : top.covers high) :
    top.covers middle :=
  covers_iff.mpr (prefix_of_between (covers_iff.mp coversLow)
    (covers_iff.mp coversHigh) lower higher)

theorem filter_covers_infix {top : Path} {listing : List Path}
    (sorted : listing.Pairwise fun a b => (compare a b).isLE) :
    listing.filter top.covers <:+: listing := by
  refine filter_infix (fun low middle high lower higher => ?_) sorted
  exact covers_of_between lower higher

/--
The hierarchy of paths agrees with their order. Every path is what its segments are built into;
building from segments is extending the path of their tenant by one after another, and going up
undoes extending. The ancestors of a path are what going up leads to, its parent what one step up
leads to. Paths are in lexicographic order, by kinds and then by the bytes of ids; an ancestor comes
before what is below it, and what comes between two paths of one subtree belongs to it. So in every
sorted listing a subtree stands together.
-/
theorem hierarchy_agrees_with_order :
    (∀ path : Path, ofSegments path.segments = .ok path) ∧
      (∀ (segments : List Segment) (path : Path), ofSegments segments = .ok path ↔
        ∃ id rest, segments = ⟨.tenant, id⟩ :: rest ∧
          (tenant id >>= fun top => rest.foldlM (fun above next => above.extend next.kind next.id)
            top) = .ok path) ∧
      (∀ (path child : Path) (kind : Kind) (id : String),
        path.extend kind id = .ok child ↔ child.up? = some path ∧ child.last = ⟨kind, id⟩) ∧
      (∀ above below : Path, above.isAncestorOf below ↔
        Relation.TransGen (fun lower upper : Path => lower.up? = some upper) below above) ∧
      (∀ above below : Path, above.isParentOf below ↔ below.up? = some above) ∧
      (∀ a b : Path, compare a b = .lt ↔ List.Lex Segment.Precedes a.segments b.segments) ∧
      (∀ above below : Path, above.isAncestorOf below → compare above below = .lt) ∧
      (∀ top low middle high : Path, (compare low middle).isLE → (compare middle high).isLE →
        top.covers low → top.covers high → top.covers middle) ∧
      ∀ (top : Path) (listing : List Path), (listing.Pairwise fun a b => (compare a b).isLE) →
        listing.filter top.covers <:+: listing := by
  refine ⟨fun path => ofSegments_eq_ok_iff.mpr rfl, fun segments path => ⟨fun built => ?_, ?_⟩,
    fun _ _ _ _ => extend_eq_ok_iff_up?, fun _ _ => isAncestorOf_iff_transGen,
      fun _ _ => isParentOf_iff,
    fun _ _ => compare_eq_lt_iff, fun _ _ => compare_of_isAncestorOf,
      fun _ _ _ _ => covers_of_between,
    fun _ _ => filter_covers_infix⟩
  · have whole : path.segments = segments := ofSegments_eq_ok_iff.mp built
    have rooted : segments = ⟨.tenant, path.first.id⟩ :: segments.tail := by
      rw [← whole, ← kind_root path]
      exact (List.cons_head_tail path.ne_nil).symm
    exact ⟨path.first.id, segments.tail, rooted, by rw [← ofSegments_tenant, ← rooted, built]⟩
  · rintro ⟨id, rest, rfl, folded⟩
    rw [ofSegments_tenant, folded]

/-- Of two tenants, one has an id that begins the other's; all that the first contains stands
between them. -/
theorem mill_stands_together :
    let listing :=
      ["/t;inn", "/t;mill", "/t;mill/e;yard", "/t;mill/e;yard/f;shed", "/t;mill/rt;clock",
        "/t;millet", "/t;millet/e;yard"].filterMap fun text => (parse text).toOption
    ∃ mill ∈ listing, ∃ shed ∈ listing, mill.isAncestorOf shed ∧ compare mill shed = .lt ∧
      (∃ yard ∈ listing, (compare mill yard).isLE ∧ (compare yard shed).isLE ∧ mill.covers yard) ∧
      (listing.filter mill.covers).map text =
        ["/t;mill", "/t;mill/e;yard", "/t;mill/e;yard/f;shed", "/t;mill/rt;clock"] ∧
      listing.filter mill.covers <:+: listing := by
  intro listing
  have facts : (listing.Pairwise fun a b => (compare a b).isLE) ∧
      ∃ mill ∈ listing, ∃ yard ∈ listing, ∃ shed ∈ listing,
        mill.isAncestorOf shed ∧ mill.covers mill ∧ mill.covers shed ∧
        (compare mill yard).isLE ∧ (compare yard shed).isLE ∧
        (listing.filter mill.covers).map text =
          ["/t;mill", "/t;mill/e;yard", "/t;mill/e;yard/f;shed", "/t;mill/rt;clock"] := by
            decide +kernel
  obtain ⟨sorted, mill, first, yard, second, shed, third, above, itself, within, lower, higher,
      texts⟩ := facts
  obtain ⟨-, -, -, -, -, -, ordered, between, together⟩ := hierarchy_agrees_with_order
  exact ⟨mill, first, shed, third, above, ordered mill shed above,
    ⟨yard, second, lower, higher, between mill mill yard shed lower higher itself within⟩, texts,
    together mill listing sorted⟩

end Path

end Estate
