import Estate.Kind

/-!
Canonical paths: the place of an entity, from its tenant down. A path is legal by construction, so
every operation that could leave the legal paths reports a `Path.Fault` instead.
-/
namespace Estate

structure Segment where
  kind : Kind
  id : String
  deriving DecidableEq, Repr

namespace Segment

instance : Ord Segment := ⟨compareLex (compareOn kind) (compareOn id)⟩

instance : Std.TransOrd Segment :=
  inferInstanceAs (Std.TransCmp (compareLex (compareOn kind) (compareOn id)))

instance : Std.LawfulEqOrd Segment where
  eq_of_compare {a b} h := by
    obtain ⟨kinds, ids⟩ :=
      Ordering.then_eq_eq.1 (h : (compare a.kind b.kind).then (compare a.id b.id) = .eq)
    have sameKind : a.kind = b.kind := Std.LawfulEqOrd.eq_of_compare kinds
    have sameId : a.id = b.id := Std.LawfulEqOrd.eq_of_compare ids
    cases a
    cases b
    simp_all

def text (segment : Segment) : String := segment.kind.code ++ ";" ++ segment.id

end Segment

/-- Ids fill their place in a path text without disturbing its separators. -/
def ValidId (id : String) : Prop := id ≠ "" ∧ '/' ∉ id.toList ∧ ';' ∉ id.toList

instance (id : String) : Decidable (ValidId id) := inferInstanceAs (Decidable (_ ∧ _))

/-- Every segment lies under one of a kind that may contain it. -/
def Nested : List Segment → Prop
  | [] => True
  | [_] => True
  | above :: below :: rest => above.kind ∈ below.kind.parents ∧ Nested (below :: rest)

instance instDecidableNested : (segments : List Segment) → Decidable (Nested segments)
  | [] => .isTrue trivial
  | [_] => .isTrue trivial
  | above :: below :: rest =>
    have := instDecidableNested (below :: rest)
    inferInstanceAs (Decidable (above.kind ∈ below.kind.parents ∧ Nested (below :: rest)))

/-- What makes a list of segments a canonical path. -/
structure Legal (segments : List Segment) : Prop where
  rooted : segments.head?.map (·.kind) = some .tenant
  nested : Nested segments
  named : ∀ segment ∈ segments, ValidId segment.id

structure Path where
  segments : List Segment
  legal : Legal segments
  deriving DecidableEq

namespace Path

instance : Ord Path := ⟨compareOn segments⟩

instance : Std.TransOrd Path := inferInstanceAs (Std.TransCmp (compareOn segments))

instance : Std.LawfulEqOrd Path where
  eq_of_compare {a b} h := by
    have same : a.segments = b.segments := Std.LawfulEqOrd.eq_of_compare (α := List Segment) h
    cases a
    cases b
    simp_all

theorem ne_nil (path : Path) : path.segments ≠ [] := by
  intro empty
  simpa [empty] using path.legal.rooted

def length (path : Path) : Nat := path.segments.length

def first (path : Path) : Segment := path.segments.head path.ne_nil

def last (path : Path) : Segment := path.segments.getLast path.ne_nil

def id (path : Path) : String := path.last.id

def kind (path : Path) : Kind := path.last.kind

def idAt? (path : Path) (kind : Kind) : Option String :=
  (path.segments.find? (·.kind = kind)).map (·.id)

def tenantId (path : Path) : String := path.first.id

def environmentId? (path : Path) : Option String := path.idAt? .environment

def feedId? (path : Path) : Option String := path.idAt? .feed

def text (path : Path) : String :=
  String.join (path.segments.map fun segment => "/" ++ segment.text)

inductive Fault where
  | emptyId (kind : Kind)
  | separatorInId (kind : Kind) (id : String)
  | misplaced (kind : Kind) (under : Path)
  | noSegments
  | notRootedAtTenant (kind : Kind)
  | noLeadingSlash (text : String)
  | malformedSegment (part text : String)
  | unknownCode (code text : String)
  deriving DecidableEq

def Fault.message : Fault → String
  | .emptyId kind => "empty " ++ kind.name ++ " id"
  | .separatorInId kind id => kind.name ++ " id '" ++ id ++ "' must not contain '/' or ';'"
  | .misplaced kind under =>
    kind.name ++ " cannot be contained in " ++ under.kind.name ++ " (at '" ++ under.text ++ "')"
  | .noSegments => "a canonical path needs at least a tenant"
  | .notRootedAtTenant kind => "a canonical path must start with a tenant, not " ++ kind.name
  | .noLeadingSlash text => "'" ++ text ++ "' does not start with '/'"
  | .malformedSegment part text => "malformed segment '" ++ part ++ "' in '" ++ text ++ "'"
  | .unknownCode code text => "unknown entity code '" ++ code ++ "' in '" ++ text ++ "'"

def idFault? (kind : Kind) (id : String) : Option Fault :=
  if id = "" then some (.emptyId kind)
  else if '/' ∈ id.toList ∨ ';' ∈ id.toList then some (.separatorInId kind id)
  else none

theorem idFault?_eq_none_iff {kind : Kind} {id : String} :
    idFault? kind id = none ↔ ValidId id := by
  unfold idFault? ValidId
  by_cases empty : id = "" <;> by_cases slash : '/' ∈ id.toList <;> by_cases semicolon : ';' ∈
    id.toList <;>
    simp [empty, slash, semicolon]

theorem nested_append {segments : List Segment} {next : Segment} (nested : Nested segments)
    (fits : ∀ above, segments.getLast? = some above → above.kind ∈ next.kind.parents) :
    Nested (segments ++ [next]) := by
  induction segments with
  | nil => trivial
  | cons above rest ih =>
    cases rest with
    | nil => exact ⟨fits above rfl, trivial⟩
    | cons below rest => exact ⟨nested.1, ih nested.2 (by simpa using fits)⟩

theorem legal_append {path : Path} {next : Segment} (valid : ValidId next.id)
    (fits : path.kind ∈ next.kind.parents) : Legal (path.segments ++ [next]) where
  rooted := by
    have rooted := path.legal.rooted
    rw [List.head?_eq_some_head path.ne_nil] at rooted
    simpa [List.head?_append, List.head?_eq_some_head path.ne_nil] using rooted
  nested := nested_append path.legal.nested fun above found => by
    rw [List.getLast?_eq_some_getLast path.ne_nil] at found
    exact Option.some.inj found ▸ fits
  named segment member := by
    rcases List.mem_append.1 member with earlier | here
    · exact path.legal.named segment earlier
    · exact List.mem_singleton.1 here ▸ valid

/-- The path of an entity directly below this one. The id is looked at before the kind. -/
def extend (path : Path) (kind : Kind) (id : String) : Except Fault Path :=
  match bad : idFault? kind id with
  | some fault => .error fault
  | none =>
    if fits : path.kind ∈ kind.parents then
      .ok ⟨path.segments ++ [⟨kind, id⟩], legal_append (idFault?_eq_none_iff.1 bad) fits⟩
    else .error (.misplaced kind path)

theorem legal_tenant {id : String} (valid : ValidId id) : Legal [⟨.tenant, id⟩] where
  rooted := rfl
  nested := trivial
  named := by simpa using valid

def tenant (id : String) : Except Fault Path :=
  match bad : idFault? .tenant id with
  | some fault => .error fault
  | none => .ok ⟨[⟨.tenant, id⟩], legal_tenant (idFault?_eq_none_iff.1 bad)⟩

def extendAll (path : Path) : List Segment → Except Fault Path
  | [] => .ok path
  | segment :: rest =>
    match path.extend segment.kind segment.id with
    | .ok next => next.extendAll rest
    | .error fault => .error fault

/-- The path with exactly these segments, checked from the tenant down. -/
def ofSegments : List Segment → Except Fault Path
  | [] => .error .noSegments
  | segment :: rest =>
    if segment.kind = .tenant then
      match tenant segment.id with
      | .ok path => path.extendAll rest
      | .error fault => .error fault
    else .error (.notRootedAtTenant segment.kind)

theorem nested_dropLast {segments : List Segment} (nested : Nested segments) :
    Nested segments.dropLast := by
  induction segments with
  | nil => trivial
  | cons above rest ih =>
    match rest, nested with
    | [], _ => trivial
    | [_], _ => trivial
    | _ :: _ :: _, nested => exact ⟨nested.1, ih nested.2⟩

theorem legal_dropLast {segments : List Segment} (legal : Legal segments)
    (long : 1 < segments.length) :
    Legal segments.dropLast where
  rooted := by
    match segments, long with
    | _ :: _ :: _, _ => simpa using legal.rooted
  nested := nested_dropLast legal.nested
  named segment member := legal.named segment (List.dropLast_subset _ member)

/-- The path of the containing entity; a tenant has none. -/
def up? (path : Path) : Option Path :=
  if long : 1 < path.length then some ⟨path.segments.dropLast, legal_dropLast path.legal long⟩
    else none

theorem legal_first (path : Path) : Legal [path.first] where
  rooted := by
    have rooted := path.legal.rooted
    rw [List.head?_eq_some_head path.ne_nil] at rooted
    exact rooted
  nested := trivial
  named segment member :=
    path.legal.named segment (List.mem_singleton.1 member ▸ List.head_mem path.ne_nil)

def root (path : Path) : Path := ⟨[path.first], path.legal_first⟩

/-- Strictly above `other`. -/
def isAncestorOf (path other : Path) : Bool :=
  path.length < other.length && path.segments.isPrefixOf other.segments

def isParentOf (path other : Path) : Bool :=
  path.length + 1 == other.length && path.isAncestorOf other

end Path

end Estate
