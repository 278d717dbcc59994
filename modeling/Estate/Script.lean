import Estate.Inventory

/-!
Scripted sessions: steps to try on an inventory, with observers that answer back, faults that can be
switched on, and rival transactions that commit first. This module holds what scripts are made of.
-/
namespace Estate.Script

inductive Move where
  | get (id : String)
  | getAll (groups : List (List Filter))
  | all
  | follow (facet : Facet)

/-- A view by the way to it: from the tenants, or from a view saved under a name. -/
structure Chain where
  saved : Option String
  moves : List Move

inductive AnyView where
  | listing (listing : Listing)
  | single (single : Single)
  | multiple (multiple : Multiple)

namespace AnyView

def position : AnyView → Position
  | listing view => view.position
  | single view => view.position
  | multiple view => view.position

/-- Where a move leads, if views of this sort allow it. -/
def move? : AnyView → Move → Option AnyView
  | listing view, .get id => some (single (view.get id))
  | listing view, .getAll groups => some (multiple (view.getAll groups))
  | listing view, .all => some (multiple view.all)
  | single view, .follow facet => (view.follow? facet).map listing
  | multiple view, .follow facet => (view.follow? facet).map listing
  | _, _ => none

end AnyView

/-- Changes of a bare position. -/
inductive Shift where
  | refine (refinements : List Position.Refinement)
  | proceedTo (name : Reserved) (kind : Kind)
  | anchor (path : Path)

def Shift.apply (position : Position) : Shift → Position
  | .refine refinements => position.refine refinements
  | .proceedTo name kind => position.proceedTo name kind
  | .anchor path => .anchor path

/-- What an observer does after it has noted a notice. -/
inductive Behavior where
  | log
  | panic
  /-- notes whether an entity is committed, or how many relationships are -/
  | committed
  /-- counts the environments through the inventory itself -/
  | count
  /-- ends the subscription of another observer, or its own -/
  | unsubscribe (other : String)
  /-- subscribes one more observer to the same topic, named with a plus sign -/
  | subscribe

structure Observer where
  name : String
  topic : Topic
  behavior : Behavior

inductive Event where
  | heard (observer : String) (notice : Notice)
  | entityCommitted (observer : String) (found : Bool)
  | relationshipsCommitted (observer : String) (count : Nat)
  | counted (observer : String) (total : Option Nat)
  /-- nothing is known of a name that never subscribed -/
  | unsubscribed (observer : String) (found : Option Bool)

inductive StoreStep where
  | begin (tx : String) (access : Access)
  | commit (tx : String)
  | rollback (tx : String)
  | query (tx : String) (query : Query) (pager : Pager)
  | find (tx : String) (path : Path)
  | findRelationship (tx id : String)
  | getRelationship (tx : String) (source target : Handle) (name : String)
  | hasRelationship (tx : String) (source target : Handle) (name : String)
  | getRelationships (tx : String) (handle : Handle) (direction : Direction) (name : Option String)
  | persist (tx : String) (path : Path) (blueprint : Blueprint)
  | relate (tx : String) (source target : Handle) (name : String) (properties : Properties)
  | delete (tx : String) (handle : Handle)
  | update (tx : String) (handle : Handle) (update : Update)
  | extract (handle : Handle)
  | convert (tx : String) (handle : Handle) (category : Category)
  | convertEntity (tx : String) (handle : Handle)
  | convertRelationship (tx : String) (handle : Handle)
  | committed (path : Path)
  | dump

/-- Steps on the inventory and on the circumstances of the session. -/
inductive Step where
  | create (chain : Chain) (blueprint : Blueprint) (save : Option String)
  | update (chain : Chain) (id : String) (update : Update)
  | delete (chain : Chain) (id : String)
  | associate (chain : Chain) (target : Path)
  | disassociate (chain : Chain) (target : Path)
  | association (chain : Chain) (id : String)
  | entity (chain : Chain)
  | isThere (chain : Chain)
  | entities (chain : Chain) (pager : Pager) (full : Bool)
  | relationships (chain : Chain) (direction : Direction) (name : Option String)
  | relationship (chain : Chain) (direction : Direction) (id : String)
  | link (chain : Chain) (direction : Direction) (name : String) (other : Path)
      (properties : Properties)
  | updateRelationship (chain : Chain) (direction : Direction) (id : String) (update : Update)
  | deleteRelationship (chain : Chain) (direction : Direction) (id : String)
  | position (chain : Chain) (shifts : List Shift) (save : Option String)
  | setting (chain : Chain) (key : String)
  | observe (observer : Observer)
  | unobserve (name : String)
  | hasObservers (topic : Topic)
  | failCommits (on : Bool)
  /-- changes nothing that a session reports -/
  | failRollbacks (on : Bool)
  /-- steps that were misread count as steps that fail -/
  | race (steps : List (Except Error StoreStep))
  | close
  | store (step : StoreStep)

inductive Answer where
  | done
  | flag (value : Bool)
  | maybeFlag (value : Option Bool)
  | view (query : Query)
  | entity (entity : Entity)
  | maybeEntity (entity : Option Entity)
  | relationship (rel : Relationship)
  | relationships (rels : List Relationship)
  | element (element : Element)
  | page (page : Page Entity) (full : Bool)
  | positions (start : Position) (reached : List Position) (listing : Option Listing)
  | settings (texts : List (Option String))
  | subscribed (number : Nat)
  | begun (number : Nat) (mutating : Bool)
  | handle (handle : Handle)
  | handles (handles : List Handle)
  | handlePage (page : Page Handle)
  | extracted (handle : Handle)
  | dump (entities : List Entity) (relationships : List String)

/-- How a step ended; an unusable one asks for what its view or the session does not have. -/
inductive Outcome where
  | ok (answer : Answer)
  | error (error : Error)
  | unusable

def Outcome.ofExcept (wrap : α → Answer) : Except Error α → Outcome
  | .ok value => .ok (wrap value)
  | .error why => .error why

end Estate.Script
