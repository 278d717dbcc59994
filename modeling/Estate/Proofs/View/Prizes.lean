import Estate.Proofs.View.Hindrances
import Estate.Proofs.View.Ledger

/-!
Prizes: an entity that several mutations would create, or an ownership that several would establish.
Who asks for a prize that its snapshot holds is told so; who asks for one that it does not hold
drafts a log that makes it, and that goes through on every graph where the prize is still free and
what it needs is there.
-/
namespace Estate

/-- A body whose result does not matter still ends as it does. -/
theorem Mutation.performed_of_forget {α : Type} {body : Drafting (Announced α)}
    {draft later : Draft} {outcome : Except Error (Announced Unit)}
    (performed : (forget body).perform draft = (outcome, later)) :
    ∃ inner, body.perform draft = (inner, later) ∧ outcome = inner.map (·.map fun _ => ()) := by
  rw [forget, Drafting.perform_bind] at performed
  rcases first : body.perform draft with ⟨error | value, left⟩
  all_goals
    rw [first] at performed
    cases performed
    exact ⟨_, rfl, rfl⟩

inductive Prize where
  | entity (path : Path)
  | ownership (source target : Path)

namespace Prize

def isMetBy : Prize → Element → Bool
  | .entity path, .entity found => found.path = path
  | .ownership source target, .relationship rel => rel.edge = ⟨Reserved.owns.name, source, target⟩
  | _, _ => false

def isHeldBy (graph : Graph) : Prize → Bool
  | .entity path => graph.entities.contains path
  | .ownership source target => (graph.between? source target Reserved.owns.name).isSome

def isAnnouncedBy (prize : Prize) (notice : Notice) : Bool :=
  notice.action = .created && prize.isMetBy notice.element

/-- What a mutation is told that asks for the prize where it is held. -/
def taken : Prize → Error.Family
  | .entity _ => .entityAlreadyExists
  | .ownership .. => .relationAlreadyExists

/-- Whether a mutation asks on a graph for the prize and nothing but the prize being held can hinder
it. All that it needs to be there is among `needs`. -/
def isSoughtBy (needs : List Path) (settings : Settings) (graph : Graph) : Prize → Mutation → Bool
  | .entity path, .create listing blueprint =>
    decide (∃ parent ∈ listing.parent? graph, listing.wanted? settings parent blueprint =
      some path.id ∧
      path ∈ (listing.place parent path.id).toOption ∧ (∀ container ∈ parent, container.2 ∈ needs) ∧
      ∃ entity ∈ (Entity.ofBlueprint path blueprint).toOption, ∀ type ∈ entity.type?,
        type ∈ needs ∧ graph.entities.contains type)
  | .ownership source target, .associate view path =>
    decide (path = target ∧ view.kind = target.kind ∧ view.name = .owns ∧
      source.tenantId = target.tenantId ∧
      (graph.evaluate view.sourceQuery).head? = some source ∧ graph.entities.contains target ∧
      source ∈ needs ∧ target ∈ needs)
  | _, _ => false

/-- A log that makes the prize, and its notices: it only inserts, and all that it relates to the
prize is among `needs` and stored. -/
inductive Claims (needs : List Path) (graph : Graph) :
    Prize → List Change → List Notice → Prop where
  | entity {entity : Entity} {rels : List Relationship}
      (tied : ∀ rel ∈ rels, rel.source ∈ needs ∧ graph.entities.contains rel.source ∧
        rel.target = entity.path)
      (apart : (rels.map (·.edge)).Nodup) :
      Claims needs graph (.entity entity.path) (.insertEntity entity ::
        rels.map .insertRelationship)
        (.entity .created entity :: rels.map (.relationship .created))
  | ownership {rel : Relationship} (named : rel.name = Reserved.owns.name)
      (starts : rel.source ∈ needs ∧ graph.entities.contains rel.source)
      (ends : rel.target ∈ needs ∧ graph.entities.contains rel.target) :
      Claims needs graph (.ownership rel.source rel.target) [.insertRelationship rel]
        [.relationship .created rel]

variable {needs : List Path} {settings : Settings} {graph next : Graph} {prize : Prize}
  {log : List Change} {notices : List Notice}

theorem isMetBy_entity_iff {path : Path} {element : Element} :
    isMetBy (.entity path) element ↔ ∃ entity : Entity, element = .entity entity ∧
      entity.path = path := by
  cases element <;> simp [isMetBy]

theorem isMetBy_ownership_iff {source target : Path} {element : Element} :
    isMetBy (.ownership source target) element ↔
      ∃ rel : Relationship, element = .relationship rel ∧
        rel.edge = ⟨Reserved.owns.name, source, target⟩ := by
  cases element <;> simp [isMetBy]

theorem isHeldBy_iff (wellFormed : graph.WellFormed) :
    prize.isHeldBy graph ↔ ∃ handle element, graph.element? handle = some element ∧
      prize.isMetBy element := by
  cases prize with
  | entity path =>
    simp only [isHeldBy, Table.contains_iff]
    constructor
    · rintro ⟨entity, found⟩
      have met := isMetBy_entity_iff.mpr ⟨entity, rfl, wellFormed.entity found⟩
      exact ⟨.entity path, .entity entity, Graph.element?_entity_iff.mpr found, met⟩
    · rintro ⟨handle, element, found, met⟩
      obtain rfl := wellFormed.toKeyed.handle_eq found
      obtain ⟨entity, rfl, rfl⟩ := isMetBy_entity_iff.mp met
      exact ⟨entity, Graph.element?_entity_iff.mp found⟩
  | ownership source target =>
    have absent_iff :=
      @Graph.WellFormed.between?_eq_none_iff graph source target Reserved.owns.name wellFormed
    rw [isHeldBy, Option.isSome_iff_ne_none, Ne, absent_iff]
    constructor
    · intro present
      push Not at present
      obtain ⟨id, rel, found, edge⟩ := present
      have met := isMetBy_ownership_iff.mpr ⟨rel, rfl, edge⟩
      exact ⟨.relationship id, .relationship rel, Graph.element?_relationship_iff.mpr found, met⟩
    · rintro ⟨handle, element, found, met⟩ absent
      obtain rfl := wellFormed.toKeyed.handle_eq found
      obtain ⟨rel, rfl, edge⟩ := isMetBy_ownership_iff.mp met
      exact absent rel.id rel (Graph.element?_relationship_iff.mp found) edge

/-- Where the prize is held, one element alone is it. -/
theorem existsUnique_of_isHeldBy (wellFormed : graph.WellFormed) (exclusive : graph.Exclusive)
    (held : prize.isHeldBy graph) :
    ∃! handle, ∃ element, graph.element? handle = some element ∧ prize.isMetBy element := by
  obtain ⟨handle, element, found, met⟩ := (isHeldBy_iff wellFormed).mp held
  refine ⟨handle, ⟨element, found, met⟩, ?_⟩
  rintro other ⟨twin, present, equal⟩
  obtain rfl := wellFormed.toKeyed.handle_eq found
  obtain rfl := wellFormed.toKeyed.handle_eq present
  cases prize with
  | entity path =>
    obtain ⟨entity, rfl, here⟩ := isMetBy_entity_iff.mp met
    obtain ⟨twin, rfl, there⟩ := isMetBy_entity_iff.mp equal
    exact congrArg Handle.entity (there.trans here.symm)
  | ownership source target =>
    obtain ⟨rel, rfl, edge⟩ := isMetBy_ownership_iff.mp met
    obtain ⟨twin, rfl, same⟩ := isMetBy_ownership_iff.mp equal
    have found := Graph.element?_relationship_iff.mp found
    have present := Graph.element?_relationship_iff.mp present
    have reserved : Reserved.isReserved rel.name := by
      rw [show rel.name = Reserved.owns.name from congrArg Edge.name edge]
      decide
    exact congrArg Handle.relationship
      (exclusive found present (edge.trans same.symm) reserved).symm

theorem Claims.later (claims : Claims needs graph prize log notices)
    (kept : ∀ path ∈ needs, graph.entities.contains path → next.entities.contains path) :
    Claims needs next prize log notices := by
  cases claims with
  | entity tied apart =>
    refine .entity (fun rel member => ?_) apart
    obtain ⟨needed, stored, target⟩ := tied rel member
    exact ⟨needed, kept _ needed stored, target⟩
  | ownership named starts ends =>
    exact .ownership named ⟨starts.1, kept _ starts.1 starts.2⟩ ⟨ends.1, kept _ ends.1 ends.2⟩

theorem Claims.announced (claims : Claims needs graph prize log notices) :
    (notices.filter prize.isAnnouncedBy).length = 1 := by
  cases claims with
  | entity tied apart =>
    simp [isAnnouncedBy, isMetBy, Notice.entity, Notice.relationship]
  | @ownership rel named starts ends =>
    simp [isAnnouncedBy, isMetBy, Notice.relationship, Relationship.edge, named]

/-- Relationships with edges of their own, none of which a graph has, can be stored one after
another. -/
theorem replay_insertions {rels : List Relationship}
    (ends : ∀ rel ∈ rels, graph.entities.contains rel.source ∧ graph.entities.contains rel.target)
    (apart : (rels.map (·.edge)).Nodup)
    (free : ∀ rel ∈ rels, ∀ id other, graph.relationships.find? id = some other →
      other.edge ≠ rel.edge) :
    ∃ next, graph.replay (rels.map .insertRelationship) = .ok next ∧
      next.entities = graph.entities := by
  induction rels generalizing graph with
  | nil => exact ⟨graph, rfl, rfl⟩
  | cons rel rest ih =>
    simp only [List.map_cons, List.nodup_cons, List.mem_map, not_exists, not_and] at apart
    have entities := Graph.entities_insertRelationship graph rel
    obtain ⟨next, replayed, same⟩ := @ih (graph.after (.insertRelationship rel))
      (fun other member => by
        rw [entities]
        exact ends other (List.mem_cons_of_mem _ member))
      apart.2 (fun other member id stored found => by
        rcases Graph.relationship_after found with old | ⟨-, new | new⟩
        · exact free other (List.mem_cons_of_mem _ member) id stored old
        · cases new
          exact fun edge => apart.1 other member edge.symm
        · cases new)
    obtain ⟨starts, stops⟩ := ends rel List.mem_cons_self
    have single := Graph.between?_eq_none_of_edges (free rel List.mem_cons_self)
    have admitted : graph.Admits (.insertRelationship rel) := ⟨starts, stops, fun _ => single⟩
    exact ⟨next, Graph.replay_cons_eq_ok_iff.mpr ⟨admitted, replayed⟩, same.trans entities⟩

theorem entities_replay_insertions {rels : List Relationship}
    (replayed : graph.replay (rels.map .insertRelationship) = .ok next) :
    next.entities = graph.entities := by
  induction rels generalizing graph with
  | nil =>
    obtain rfl := Except.ok.inj replayed
    rfl
  | cons rel rest ih =>
    obtain ⟨-, rest⟩ := Graph.replay_cons_eq_ok_iff.mp replayed
    rw [ih rest, Graph.entities_insertRelationship]

/-- A claim goes through where the prize is free, and takes nothing away. -/
theorem Claims.replays (claims : Claims needs graph prize log notices)
    (wellFormed : graph.WellFormed) (free : prize.isHeldBy graph = false) :
    ∃ next, graph.replay log = .ok next ∧ ∀ path, graph.entities.contains path →
      next.entities.contains path := by
  cases claims with
  | @entity entity rels tied apart =>
    have absent : graph.entities.find? entity.path = none :=
      (Table.contains_eq_false_iff _ _).mp free
    have grown {path : Path} (stored : graph.entities.contains path) :
        (graph.after (.insertEntity entity)).entities.contains path := by
      simp [Graph.after, stored]
    obtain ⟨next, replayed, same⟩ := @replay_insertions (graph.after (.insertEntity entity)) rels
      (fun rel member => by
        obtain ⟨-, stored, target⟩ := tied rel member
        exact ⟨grown stored, by simp [Graph.after, target]⟩)
      apart (fun rel member id other found edge => by
        have ends := (wellFormed.ends (show graph.relationships.find? id = some other from found)).2
        rw [show other.target = entity.path from (congrArg Edge.target edge).trans
          (tied rel member).2.2] at ends
        simp [(Table.contains_eq_false_iff _ _).mpr absent] at ends)
    refine ⟨next, Graph.replay_cons_eq_ok_iff.mpr ⟨absent, replayed⟩, fun path stored => ?_⟩
    rw [same]
    exact grown stored
  | @ownership rel named starts ends =>
    have single : graph.between? rel.source rel.target rel.name = none := by
      rw [named]
      simpa [isHeldBy] using free
    have admitted : graph.Admits (.insertRelationship rel) := ⟨starts.2, ends.2, fun _ => single⟩
    refine ⟨_, Graph.replay_cons_eq_ok_iff.mpr ⟨admitted, rfl⟩, fun path stored => ?_⟩
    rw [Graph.entities_insertRelationship]
    exact stored

/-- A deed that announces the prize makes it where it was free. -/
theorem made_of_announced {planned : Graph} {mutation : Mutation}
    (deed : Deed planned mutation log notices) (replayed : graph.replay log = .ok next)
    (wellFormed : next.WellFormed) {notice : Notice} (told : notice ∈ notices)
    (announced : prize.isAnnouncedBy notice) :
    prize.isHeldBy graph = false ∧ prize.isHeldBy next := by
  obtain ⟨created, met⟩ : notice.action = .created ∧ prize.isMetBy notice.element := by
    simpa [isAnnouncedBy] using announced
  have related {rel : Relationship} (replayed : graph.replay [.insertRelationship rel] = .ok next)
      (met : prize.isMetBy (.relationship rel)) : prize.isHeldBy graph = false ∧
        prize.isHeldBy next := by
    cases prize with
    | entity path => cases met
    | ownership source target =>
      obtain ⟨named, rfl, rfl⟩ : rel.name = Reserved.owns.name ∧ rel.source = source ∧
          rel.target = target := by
        simpa [isMetBy, Relationship.edge] using met
      obtain ⟨⟨-, -, single⟩, last⟩ := Graph.replay_cons_eq_ok_iff.mp replayed
      cases last
      have absent := single (by rw [named]; decide)
      rw [named] at absent
      refine ⟨by simp [isHeldBy, absent], ?_⟩
      refine (isHeldBy_iff wellFormed).mpr ⟨.relationship rel.id, .relationship rel, ?_, met⟩
      simp [Graph.element?, Graph.after]
  cases deed with
  | @create _ _ entity rels made wired =>
    rcases List.mem_cons.mp told with rfl | tied
    · cases prize with
      | ownership source target => cases met
      | entity path =>
        obtain rfl : entity.path = path := by simpa [isMetBy, Notice.entity] using met
        obtain ⟨absent, rest⟩ := Graph.replay_cons_eq_ok_iff.mp replayed
        refine ⟨(Table.contains_eq_false_iff _ _).mpr absent, ?_⟩
        rw [isHeldBy, entities_replay_insertions rest]
        simp [Graph.after]
    · -- what ties the entity in is no ownership
      obtain ⟨rel, member, rfl⟩ := List.mem_map.mp tied
      have wire : rel.edge ∈ entity.wiring := wired ▸ List.mem_map_of_mem member
      cases prize with
      | entity path => cases met
      | ownership source target =>
        have edge : rel.edge = ⟨Reserved.owns.name, source, target⟩ := by
          simpa [isMetBy, Notice.relationship] using met
        rw [edge] at wire
        simp [Entity.wiring, Edge.containment, Reserved.name] at wire
  | update stored revises | updateRelationship stored revises | disassociate stored named
  | deleteRelationship stored apart =>
    obtain rfl := List.mem_singleton.mp told
    cases created
  | delete stored bare detached =>
    rcases List.mem_append.mp told with released | removed
    · obtain ⟨rel, -, rfl⟩ := List.mem_map.mp released
      cases created
    · obtain rfl := List.mem_singleton.mp removed
      cases created
  | associate named within | link apart =>
    obtain rfl := List.mem_singleton.mp told
    exact related replayed met

section

variable {path : Path} {listing : Listing} {blueprint : Blueprint} {error : Error}

theorem toOption_eq_some_iff {ε α : Type} {outcome : Except ε α} {value : α} :
    outcome.toOption = some value ↔ outcome = .ok value := by
  cases outcome <;> simp [Except.toOption]

theorem isSoughtBy_create_iff :
    isSoughtBy needs settings graph (.entity path) (.create listing blueprint) ↔
      ∃ parent entity, listing.parent? graph = some parent ∧
        listing.wanted? settings parent blueprint = some path.id ∧
        listing.place parent path.id = .ok path ∧
        (∀ container ∈ parent, container.2 ∈ needs) ∧
        Entity.ofBlueprint path blueprint = .ok entity ∧
        ∀ type, entity.type? = some type → type ∈ needs ∧ graph.entities.contains type := by
  simp only [isSoughtBy, decide_eq_true_eq, Option.mem_def, toOption_eq_some_iff]
  constructor
  · rintro ⟨parent, reached, asked, placed, needed, entity, made, typed⟩
    exact ⟨parent, entity, reached, asked, placed, needed, made, typed⟩
  · rintro ⟨parent, entity, reached, asked, placed, needed, made, typed⟩
    exact ⟨parent, reached, asked, placed, needed, entity, made, typed⟩

theorem eq_of_sites
    (sought : isSoughtBy needs settings graph (.entity path) (.create listing blueprint))
    {other : Path} (sited : listing.Sites settings blueprint graph other) : other = path := by
  obtain ⟨parent, entity, reached, asked, placed, -⟩ := isSoughtBy_create_iff.mp sought
  obtain ⟨_, id, same, named, put⟩ := sited
  obtain rfl := Option.some.inj (reached.symm.trans same)
  rw [named _ asked, placed] at put
  exact (Except.ok.inj put).symm

/-- Nothing but the prize being held hinders who asks for it. -/
theorem present_of_hinders
    (sought : isSoughtBy needs settings graph (.entity path) (.create listing blueprint))
    (hinders : listing.Hinders settings blueprint graph error) :
    error = .entityPresent path ∧ graph.entities.contains path := by
  obtain ⟨parent, entity, reached, asked, placed, -, made, typed⟩ := isSoughtBy_create_iff.mp sought
  cases hinders with
  | unreached nowhere => simp [reached] at nowhere
  | misplaced same named misfit =>
    obtain rfl := Option.some.inj (reached.symm.trans same)
    rw [named _ asked, placed] at misfit
    cases misfit
  | present sited stored =>
    obtain rfl := eq_of_sites sought sited
    exact ⟨rfl, stored⟩
  | unmade sited unmade =>
    rw [eq_of_sites sought sited, made] at unmade
    cases unmade
  | untyped sited same given absent =>
    rw [eq_of_sites sought sited, made] at same
    cases same
    have present := (typed _ given).2
    rw [(Table.contains_eq_false_iff _ _).mpr absent] at present
    cases present

/-- What ties in an entity that was asked for is among what was needed. -/
theorem claims_of_wired
    (sought : isSoughtBy needs settings graph (.entity path) (.create listing blueprint))
    {entity : Entity} (here : entity.path = path)
    (made : Entity.ofBlueprint path blueprint = .ok entity) {rels : List Relationship}
    (wired : rels.map (·.edge) = entity.wiring) :
    Claims needs graph (.entity path) (.insertEntity entity :: rels.map .insertRelationship)
      (.entity .created entity :: rels.map (.relationship .created)) := by
  obtain ⟨parent, _, reached, -, placed, needed, same, typed⟩ := isSoughtBy_create_iff.mp sought
  obtain rfl := Except.ok.inj (made.symm.trans same)
  subst here
  refine .entity (fun rel member => ?_) ?_
  · have wire : rel.edge ∈ entity.wiring := wired ▸ List.mem_map_of_mem member
    rcases List.mem_append.mp wire with above | defined
    · obtain ⟨container, up, edge⟩ := Option.map_eq_some_iff.mp (Option.mem_toList.mp above)
      rw [Listing.up?_of_place placed] at up
      obtain ⟨⟨handle, container⟩, rfl, rfl⟩ := Option.map_eq_some_iff.mp up
      have source : rel.source = container := (congrArg Edge.source edge).symm
      obtain ⟨-, stored⟩ := Listing.stored_of_parent? reached
      exact ⟨source ▸ needed _ rfl, source ▸ stored, (congrArg Edge.target edge).symm⟩
    · obtain ⟨type, given, edge⟩ := Option.map_eq_some_iff.mp (Option.mem_toList.mp defined)
      have source : rel.source = type := (congrArg Edge.source edge).symm
      obtain ⟨known, stored⟩ := typed type given
      exact ⟨source ▸ known, source ▸ stored, (congrArg Edge.target edge).symm⟩
  · rw [wired, Entity.wiring]
    cases entity.path.up? <;> cases entity.type? <;> simp [Edge.containment, Reserved.name]

end

theorem isSoughtBy_associate_iff {source target path : Path} {view : Associations} :
    isSoughtBy needs settings graph (.ownership source target) (.associate view path) ↔
      path = target ∧ view.kind = target.kind ∧ view.name = .owns ∧
      source.tenantId = target.tenantId ∧
        (graph.evaluate view.sourceQuery).head? = some source ∧ graph.entities.contains target ∧
        source ∈ needs ∧ target ∈ needs := by
  simp [isSoughtBy]

theorem held_of_hinders {source target path : Path} {view : Associations} {error : Error}
    (sought : isSoughtBy needs settings graph (.ownership source target) (.associate view path))
    (hinders : view.Hinders path graph error) :
    error.family = .relationAlreadyExists ∧
      (graph.between? source target Reserved.owns.name).isSome := by
  obtain ⟨rfl, kind, named, within, first, stored, -⟩ := isSoughtBy_associate_iff.mp sought
  cases hinders with
  | strays strays =>
    cases strays with
    | unreached nowhere => simp [nowhere] at first
    | misfit other => exact absurd kind.symm other
    | absent missing => simp [missing] at stored
  | across reached apart =>
    obtain rfl := Option.some.inj (first.symm.trans reached)
    exact absurd within apart
  | held reached twin =>
    obtain rfl := Option.some.inj (first.symm.trans reached)
    rw [named] at twin
    exact ⟨rfl, by rw [twin]; rfl⟩

/-- Who asks for a prize drafts a claim to it, or is told that it is held. -/
theorem drafts {mutation : Mutation} {draft later : Draft} {outcome : Except Error (Announced Unit)}
    (access : draft.tx.access = .readWrite) (blank : draft.tx.log = [])
    (wellFormed : draft.tx.working.WellFormed)
    (sought : prize.isSoughtBy needs settings draft.tx.working mutation)
    (performed : (mutation.body settings).perform draft = (outcome, later)) :
    match outcome with
    | .ok result => Claims needs draft.tx.working prize later.tx.log result.notices
    | .error error => error.family = prize.taken ∧ prize.isHeldBy draft.tx.working := by
  cases prize with
  | entity path =>
    cases mutation with
    | create listing blueprint =>
      obtain ⟨inner, created, rfl⟩ := Mutation.performed_of_forget performed
      cases inner with
      | error error =>
        obtain ⟨rfl, stored⟩ :=
          present_of_hinders sought ((Listing.create_meets access wellFormed).of_error created)
        exact ⟨rfl, stored⟩
      | ok result =>
        obtain ⟨entity, sited, made, -, more, told⟩ :=
          (Listing.create_meets access wellFormed).of_ok created
        obtain ⟨written, wrote, deed⟩ := listing.create_does settings blueprint wellFormed created
        obtain here := eq_of_sites sought sited
        show Claims needs draft.tx.working (.entity path) later.tx.log result.notices
        rw [wrote.log, blank, List.nil_append]
        generalize result.notices = notices at told deed ⊢
        cases deed with
        | create _ wired =>
          cases told
          exact claims_of_wired sought here (here ▸ made) wired
    | _ => cases sought
  | ownership source target =>
    cases mutation with
    | associate view path =>
      obtain ⟨rfl, -, named, -, first, stored, known, wanted⟩ := isSoughtBy_associate_iff.mp sought
      obtain ⟨inner, associated, rfl⟩ := Mutation.performed_of_forget performed
      cases inner with
      | error error =>
        exact held_of_hinders sought
          ((Associations.associate_meets access wellFormed).of_error associated)
      | ok result =>
        obtain ⟨start, makes⟩ := (Associations.associate_meets access wellFormed).of_ok associated
        obtain rfl := Option.some.inj (first.symm.trans makes.regards.first)
        have value : result.value = draft.relation source path Reserved.owns.name ∅ :=
          named ▸ makes.value
        show Claims needs draft.tx.working (.ownership source path) later.tx.log result.notices
        rw [makes.wrote.log, blank, List.nil_append, makes.notices, value]
        exact @Claims.ownership _ _ (draft.relation source path Reserved.owns.name ∅) rfl
          ⟨known, Graph.contains_of_head? first⟩ ⟨wanted, stored⟩
    | _ => cases sought

end Prize

end Estate
