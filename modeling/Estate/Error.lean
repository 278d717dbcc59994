import Estate.Entity
import Estate.Query.Text

namespace Estate

/-- Why a graph does not admit a change. -/
inductive Refusal where
  | entityExists (path : Path)
  | entityGone (path : Path)
  | stillRelated (path : Path) (count : Nat)
  | endGone (path : Path)
  | relationshipExists (source : Path) (name : String) (target : Path)
  | relationshipGone (id : String)
  deriving DecidableEq

def Refusal.message : Refusal → String
  | .entityExists path => "entity '" ++ path.text ++ "' already exists"
  | .entityGone path => "entity '" ++ path.text ++ "' no longer exists"
  | .stillRelated path count =>
    "entity '" ++ path.text ++ "' gained " ++ toString count ++ " relationships concurrently"
  | .endGone path => "cannot relate '" ++ path.text ++ "': entity no longer exists"
  | .relationshipExists source name target =>
    "relationship " ++ Relationship.arrow source.text name target.text ++ " already exists"
  | .relationshipGone id => "relationship '" ++ id ++ "' no longer exists"

inductive Misuse where
  | blueprintElsewhere (blueprint : Kind) (path : Path)
  | noVersion (kind : Kind)
  | noUnit (kind : Kind)
  | propertiesOnly (id : String)
  | notAnEntityHandle (id : String)
  | wrongCategory (actual wanted : Category)
  | notAnEntity (id : String)
  | notARelationship (path : Path)
  | notOfKind (wanted actual : Kind)
  | typeMissing (type : Path)
  | notAssociable (actual wanted : Kind) (name : Reserved)
  | acrossTenants (source target : Path)
  | linkBothWays
  | linkContains
  | containsStays (id : String) (target : Path)

def Misuse.message : Misuse → String
  | .blueprintElsewhere blueprint path =>
    blueprint.name ++ " blueprint cannot be stored at " ++ path.kind.name ++ " path '" ++
      path.text ++ "'"
  | .noVersion kind => "a " ++ kind.name ++ " has no version"
  | .noUnit kind => "a " ++ kind.name ++ " has no unit"
  | .propertiesOnly id => "relationship '" ++ id ++ "' only accepts property updates"
  | .notAnEntityHandle id => "expected an entity handle, found relationship '" ++ id ++ "'"
  | .wrongCategory actual wanted => "cannot convert " ++ actual.name ++ " to " ++ wanted.name
  | .notAnEntity id => "expected an entity, found relationship '" ++ id ++ "'"
  | .notARelationship path =>
    "expected a relationship, found " ++ path.kind.name ++ " '" ++ path.text ++ "'"
  | .notOfKind wanted actual => "expected a " ++ wanted.name ++ ", found a " ++ actual.name
  | .typeMissing type =>
    type.kind.name ++ " '" ++ type.id ++ "' does not exist in tenant '" ++ type.tenantId ++ "'"
  | .notAssociable actual wanted name =>
    "a " ++ actual.name ++ " cannot be associated as " ++ wanted.name ++ " by '" ++ name.name ++ "'"
  | .acrossTenants source target =>
    "cannot associate '" ++ source.text ++ "' with '" ++ target.text ++ "' across tenants"
  | .linkBothWays => "cannot link in both directions at once"
  | .linkContains => "'contains' relationships are created together with the contained entity"
  | .containsStays id target =>
    "'contains' relationship " ++ id ++ " can only be removed by deleting '" ++ target.text ++ "'"

inductive Missing where
  | entity (path : Path)
  | relationship (id : String)
  | between (source : Path) (name : String) (target : Path)
  deriving DecidableEq

def Missing.message : Missing → String
  | .entity path => path.text
  | .relationship id => "relationship '" ++ id ++ "'"
  | .between source name target => Relationship.arrow source.text name target.text

inductive Error where
  | path (fault : Path.Fault)
  /-- a position that reaches nothing of the kind asked for -/
  | nothingReached (kind : Option Kind) (query : Query)
  | entityAbsent (path : Path)
  | entityPresent (path : Path)
  | relationshipAbsent (id : String)
  /-- a relationship that exists, but not on this side of the entity -/
  | relationshipElsewhere (id : String) (direction : Direction) (path : Path)
  | notAssociated (name : Reserved) (source : Query) (target : Path)
  | notAssociatedId (name : Reserved) (source : Query) (kind : Kind) (id : String)
  | associated (source : Path) (name : Reserved) (target : Path)
  | linked (sourceId name targetId : String)
  | missing (what : Missing)
  | misuse (why : Misuse)
  | stillContains (path : Path)
  | conflict (why : Refusal)
  | readOnly (transaction : Nat)
  /-- a fault of the storage engine, in its own words -/
  | storage (report : String)
  | notBuiltIn (engine : String)

namespace Error

/-- The families that callers tell errors apart by. -/
inductive Family where
  | invalidPath
  | entityNotFound
  | entityAlreadyExists
  | relationNotFound
  | relationAlreadyExists
  | elementNotFound
  | invalidArgument
  | constraintViolation
  | conflict
  | transaction
  | storage
  deriving DecidableEq, Repr

def family : Error → Family
  | path _ => .invalidPath
  | nothingReached .. | entityAbsent _ => .entityNotFound
  | entityPresent _ => .entityAlreadyExists
  | relationshipAbsent _ | relationshipElsewhere .. | notAssociated .. | notAssociatedId .. =>
    .relationNotFound
  | associated .. | linked .. => .relationAlreadyExists
  | missing _ => .elementNotFound
  | misuse _ => .invalidArgument
  | stillContains _ => .constraintViolation
  | conflict _ => .conflict
  | readOnly _ => .transaction
  | storage _ | notBuiltIn _ => .storage

def Family.heading : Family → String
  | invalidPath => "Invalid canonical path: "
  | entityNotFound => "Entity not found: "
  | entityAlreadyExists => "Entity already exists: "
  | relationNotFound => "Relationship not found: "
  | relationAlreadyExists => "Relationship already exists: "
  | elementNotFound => "Element not found: "
  | invalidArgument => "Invalid argument: "
  | constraintViolation => "Constraint violation: "
  | conflict => "Transaction conflict: "
  | transaction => "Transaction error: "
  | storage => "Storage error: "

def detail : Error → String
  | path fault => fault.message
  | nothingReached (some kind) query => "no " ++ kind.name ++ " at " ++ query.text
  | nothingReached none query => "nothing at " ++ query.text
  | entityAbsent place => place.text
  | entityPresent place => place.text
  | relationshipAbsent id => id
  | relationshipElsewhere id direction place =>
    id ++ " (" ++ direction.title ++ " of " ++ place.text ++ ")"
  | notAssociated name source target =>
    name.name ++ " from " ++ source.text ++ " to " ++ target.text
  | notAssociatedId name source kind id =>
    name.name ++ " from " ++ source.text ++ " to " ++ kind.name ++ " '" ++ id ++ "'"
  | associated source name target => Relationship.arrow source.text name.name target.text
  | linked sourceId name targetId => Relationship.arrow sourceId name targetId
  | missing what => what.message
  | misuse why => why.message
  | stillContains place => "cannot delete '" ++ place.text ++ "': it still contains other entities"
  | conflict why => why.message
  | readOnly number => "tx-" ++ toString number ++ " is read-only"
  | storage report => report
  | notBuiltIn engine =>
    "'" ++ engine ++ "' is not a built-in backend; construct it and use Inventory::with_config"

def message (error : Error) : String := error.family.heading ++ error.detail

end Error

/-- Steps in sequence succeed when each does. -/
theorem bind_eq_ok_iff {α β ε : Type} {first : Except ε α} {next : α → Except ε β} {value : β} :
    first >>= next = .ok value ↔ ∃ middle, first = .ok middle ∧ next middle = .ok value := by
  cases first <;> simp [bind, Except.bind]

theorem map_eq_ok_iff {α β ε : Type} {outcome : Except ε α} {f : α → β} {value : β} :
    outcome.map f = .ok value ↔ ∃ found, outcome = .ok found ∧ f found = value := by
  cases outcome <;> simp [Except.map]

theorem mapError_eq_ok_iff {ε ε' α : Type} {outcome : Except ε α} {wrap : ε → ε'} {value : α} :
    outcome.mapError wrap = .ok value ↔ outcome = .ok value := by
  cases outcome with
  | ok found =>
    show (.ok found : Except ε' α) = .ok value ↔ _
    simp
  | error error =>
    show (.error (wrap error) : Except ε' α) = .ok value ↔ _
    simp

end Estate
