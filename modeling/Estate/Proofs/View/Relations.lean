import Estate.Proofs.View.Picking
import Estate.Proofs.View.Rush
import Estate.Proofs.View.Undisturbed

namespace Estate

variable {graph : Graph} {settings : Settings} {tx : Transaction} {path : Path} {rel : Relationship}
  {name : Option String} {id : String}

/-- What an entity shows on one side: what is stored there, of a name if that is asked for, as far
as it is visible. -/
structure Graph.Shows (graph : Graph) (settings : Settings) (path : Path) (direction : Direction)
    (name : Option String) (rel : Relationship) : Prop where
  stored : graph.relationships.find? rel.id = some rel
  touches : rel.touches path direction
  named : ∀ wanted, name = some wanted → rel.name = wanted
  visible : settings.isVisible (.relationship rel)

namespace Relations

variable {view : Relations}

def shown (graph : Graph) (settings : Settings) (path : Path) (direction : Direction)
    (name : Option String) :
    List Relationship :=
  (Transaction.byId (graph.touching path direction name)).filter fun rel =>
    settings.isVisible (.relationship rel)

theorem mem_shown_iff (wellFormed : graph.WellFormed) {direction : Direction} :
    rel ∈ shown graph settings path direction name ↔
      graph.Shows settings path direction name rel := by
  rw [shown, List.mem_filter, Transaction.byId, (List.mergeSort_perm _ _).mem_iff,
    wellFormed.mem_touching_iff]
  constructor
  · rintro ⟨⟨stored, touches, named⟩, visible⟩
    exact ⟨stored, touches, named, visible⟩
  · rintro ⟨stored, touches, named, visible⟩
    exact ⟨⟨stored, touches, named⟩, visible⟩

theorem shown_ascending (wellFormed : graph.WellFormed) (settings : Settings) (path : Path)
    (direction : Direction) (name : Option String) :
    (shown graph settings path direction name).Pairwise fun a b => compare a.id b.id = .lt :=
  (Transaction.byId_ascending (wellFormed.nodup_touching path direction name)).filter _

theorem list_of_first (wellFormed : tx.working.WellFormed)
    (first : (tx.working.evaluate view.position.query).head? = some path) :
    view.list settings name tx = .ok (shown tx.working settings path view.direction name) := by
  have entity : view.entity tx = .ok (.entity path) :=
    Reading.first_eq_ok_iff.mpr ⟨path, first, rfl⟩
  have listed :=
    Transaction.getRelationships_entity (Graph.contains_of_head? first) view.direction name
  have loaded := wellFormed.load_listed path view.direction name
  simp only [list, entity, bind, Except.bind, listed, loaded]
  rfl

/-- What is stored under an id is the entity's own if it is on the side that the view shows. -/
theorem own_of_first (wellFormed : tx.working.WellFormed)
    (first : (tx.working.evaluate view.position.query).head? = some path) :
    view.own id tx =
      match tx.working.relationships.find? id with
      | some rel =>
        if rel.touches path view.direction then .ok (.relationship id, rel)
        else .error (.relationshipElsewhere id view.direction path)
      | none => .error (.relationshipAbsent id) := by
  have entity : view.entity tx = .ok (.entity path) :=
    Reading.first_eq_ok_iff.mpr ⟨path, first, rfl⟩
  obtain ⟨source, -, rfl, loaded⟩ := wellFormed.load_first first
  cases found : tx.working.relationships.find? id with
  | none =>
    have absent := (Table.contains_eq_false_iff _ _).mpr found
    simp [own, entity, loaded, Transaction.findRelationship, absent, bind, Except.bind]
  | some rel =>
    have present : tx.working.relationships.contains id := (Table.contains_iff _ _).mpr ⟨rel, found⟩
    have read := Transaction.convertRelationship_eq_ok_iff.mpr found
    simp only [own, entity, loaded, Transaction.findRelationship, present, if_true, read, bind,
      Except.bind]
    rfl

/-- The relationship under an id is found just when it is among those shown. -/
theorem get_of_first (wellFormed : tx.working.WellFormed)
    (first : (tx.working.evaluate view.position.query).head? = some path) :
    view.get settings id tx = .ok rel ↔ rel ∈ shown tx.working settings path view.direction none ∧
      rel.id = id := by
  rw [mem_shown_iff wellFormed]
  constructor
  · intro got
    obtain ⟨⟨handle, found⟩, owned, shows⟩ := bind_eq_ok_iff.mp got
    rw [own_of_first wellFormed first] at owned
    dsimp only at shows
    split at shows
    · rename_i visible
      obtain rfl := Except.ok.inj shows
      split at owned
      · rename_i stored
        split at owned
        · rename_i touches
          cases owned
          obtain rfl := wellFormed.relationship stored
          exact ⟨⟨stored, touches, by simp, visible⟩, rfl⟩
        · cases owned
      · cases owned
    · cases shows
  · rintro ⟨⟨stored, touches, -, visible⟩, rfl⟩
    have owned := @own_of_first _ _ rel.id view wellFormed first
    rw [stored] at owned
    simp only [touches, if_true] at owned
    simp [get, owned, visible, bind, Except.bind, pure, Except.pure]

/-- Where nothing is reached there is nothing to show. -/
theorem list_of_none (nowhere : tx.working.evaluate view.position.query = []) :
    view.list settings name tx = .error (.nothingReached none view.position.query) :=
  bind_eq_error_iff.mpr (.inl (Reading.first_eq_error_iff.mpr ⟨nowhere, rfl⟩))

theorem get_of_none (nowhere : tx.working.evaluate view.position.query = []) :
    view.get settings id tx = .error (.nothingReached none view.position.query) :=
  bind_eq_error_iff.mpr (.inl
    (bind_eq_error_iff.mpr (.inl (Reading.first_eq_error_iff.mpr ⟨nowhere, rfl⟩))))

end Relations

namespace Office

/--
Whatever has happened at an office, and as long as no id is given to two relationships: every view
of an entity lists on each side just what the entity that it reaches shows there, in ascending order
of the ids, and what is looked up under an id is what the list of all holds under it; where no
entity is reached, none of these is found. Every relationship that may be shown is on the outgoing
side wherever its source is reached and on the incoming side wherever its target is, and there are
views that reach them.
-/
theorem relationships_are_listed (settings : Settings) (ids : IdSource) (events : List Event)
    (distinct : ((start settings ids).trace drawn events).Nodup) :
    let inventory := ((start settings ids).undergoAll events).inventory
    let graph := inventory.store.committed
    let reply (inquiry : Inquiry) := (inventory.carryOut (.inquiry inquiry)).1
    let reached (single : Single) := (graph.evaluate single.position.query).head?
    (∀ (single : Single) (direction : Direction),
      let view := single.relations direction
      (reached single = none → ∃ error, error.family = .entityNotFound ∧
        (∀ name, reply (.relationships view name) = .replied (.error error)) ∧
        ∀ id, reply (.relationship view id) = .replied (.error error)) ∧
      ∀ path, reached single = some path → ∃ lists : Option String → List Relationship,
        (∀ name, reply (.relationships view name) = .replied (.ok (.relationships (lists name))) ∧
          (lists name).Pairwise (fun a b => compare a.id b.id = .lt) ∧
          ∀ rel, rel ∈ lists name ↔ graph.Shows settings path direction name rel) ∧
        ∀ id rel, reply (.relationship view id) = .replied (.ok (.relationship rel)) ↔
          rel ∈ lists none ∧ rel.id = id) ∧
    ∀ id rel, graph.relationships.find? id = some rel → settings.isVisible (.relationship rel) →
      (∃ start, reached start = some rel.source) ∧ (∃ finish, reached finish = some rel.target) ∧
      ∀ single, let holds (direction : Direction) :=
          ∃ rels, reply (.relationships (single.relations direction) none) =
            .replied (.ok (.relationships rels)) ∧ rel ∈ rels
        (reached single = some rel.source → holds .outgoing) ∧
          (reached single = some rel.target → holds .incoming) := by
  intro inventory graph reply reached
  obtain ⟨registry, notices, kept, -⟩ := soberly settings ids events distinct
  have wellFormed : graph.WellFormed := kept.consistent.committed.toWellFormed
  have same : inventory.settings = settings := settings_undergoAll _ _
  let tx := (inventory.store.begin .readOnly).1
  have listed (view : Relations) (name : Option String) :
      reply (.relationships view name) =
        .replied ((view.list settings name tx).map .relationships) := by
    simp only [reply, Inventory.carryOut_inquiry, Inquiry.answer, same, tx]
  have got (view : Relations) (id : String) :
      reply (.relationship view id) = .replied ((view.get settings id tx).map .relationship) := by
    simp only [reply, Inventory.carryOut_inquiry, Inquiry.answer, same, tx]
  have lists {single : Single} {path : Path} (direction : Direction) (name : Option String)
      (first : reached single = some path) : reply
        (.relationships (single.relations direction) name) =
        .replied (.ok (.relationships (Relations.shown graph settings path direction name))) := by
    rw [listed, @Relations.list_of_first settings tx path name
      (single.relations direction) wellFormed first]
    rfl
  constructor
  · intro single direction view
    refine ⟨fun first => ?_, fun path first => ?_⟩
    · have nowhere : tx.working.evaluate view.position.query = [] := List.head?_eq_none_iff.mp first
      refine ⟨.nothingReached none view.position.query, rfl, fun name => ?_, fun id => ?_⟩
      · rw [listed, Relations.list_of_none nowhere]
        rfl
      · rw [got, Relations.get_of_none nowhere]
        rfl
    · refine ⟨Relations.shown graph settings path direction,
        fun name => ⟨lists direction name first, Relations.shown_ascending wellFormed _ _ _ _,
          fun rel => Relations.mem_shown_iff wellFormed⟩, fun id rel => ?_⟩
      simp only [got, Conclusion.replied.injEq, map_eq_ok_iff, Reply.relationship.injEq,
        exists_eq_right]
      exact @Relations.get_of_first settings tx path rel id view wellFormed first
  · intro id rel found visible
    obtain rfl := wellFormed.relationship found
    obtain ⟨starts, ends⟩ := wellFormed.ends found
    have picked {path : Path} (stored : graph.entities.contains path) : ∃ single, reached single =
        some path := by
      obtain ⟨single, picks⟩ := Single.Picks.exists_of_path path
      exact ⟨single, (picks.first_iff kept.mirrored wellFormed).mpr ⟨stored, rfl⟩⟩
    have shown {path : Path} {direction : Direction} (touches : rel.touches path direction) :
        rel ∈ Relations.shown graph settings path direction none :=
      (Relations.mem_shown_iff wellFormed).mpr ⟨found, touches, by simp, visible⟩
    refine ⟨picked starts, picked ends, fun single => ⟨fun first => ?_, fun first => ?_⟩⟩
    · exact ⟨_, lists .outgoing none first, shown (by simp [Relationship.touches])⟩
    · exact ⟨_, lists .incoming none first, shown (by simp [Relationship.touches])⟩

def discreet (name : String) : Settings :=
  { resultFilter := some fun
      | .entity _ => true
      | .relationship rel => rel.name != name }

/-- A tenant that contains two types is related to itself. -/
def echoing : List Event :=
  let single : Single := tenants.get "inn"
  founding ++ [.begin ⟨.link (single.relations .outgoing) "echoes" tenantPath ∅, rfl, single,
      @Script.AnyView.Reached.move _ _ (.get "inn") .tenants rfl, rfl⟩,
    .draft 4, .settle 4].map .step

/-- What relates the tenant to itself is listed on both its sides, and that it contains the types on
neither. -/
theorem echo_is_listed :
    let inventory :=
      ((start (discreet Reserved.contains.name) .counter).undergoAll echoing).inventory
    let listed (direction : Direction) (rel : Relationship) :=
      ∃ rels,
        (inventory.carryOut (.inquiry
          (.relationships ((tenants.get "inn").relations direction) none))).1 =
        .replied (.ok (.relationships rels)) ∧ rel ∈ rels
    ((start (discreet Reserved.contains.name) .counter).trace drawn echoing).Nodup ∧
      (∃ rel, rel.edge = ⟨"echoes", tenantPath, tenantPath⟩ ∧ listed .outgoing rel ∧
        listed .incoming rel) ∧
      ∀ direction rel, listed direction rel → rel.name ≠ Reserved.contains.name := by
  intro inventory listed
  have facts : ((start (discreet Reserved.contains.name) .counter).trace drawn echoing).Nodup ∧
      (inventory.store.committed.evaluate (tenants.get "inn").position.query).head? =
        some tenantPath ∧
      ∃ entry ∈ inventory.store.committed.relationships.entries,
        entry.2.edge = ⟨"echoes", tenantPath, tenantPath⟩ ∧
        (discreet Reserved.contains.name).isVisible (.relationship entry.2) := by decide +kernel
  obtain ⟨distinct, reached, ⟨id, rel⟩, member, edge, visible⟩ := facts
  obtain ⟨agree, seen⟩ :=
    relationships_are_listed (discreet Reserved.contains.name) .counter echoing distinct
  obtain ⟨-, -, sides⟩ := seen id rel ((Table.mem_entries_iff _ id rel).mp member) visible
  have starts : rel.source = tenantPath := congrArg Edge.source edge
  have ends : rel.target = tenantPath := congrArg Edge.target edge
  refine ⟨distinct, ⟨rel, edge, (sides _).1 (starts ▸ reached), (sides _).2 (ends ▸ reached)⟩, ?_⟩
  rintro direction other ⟨rels, replied, listed⟩ hidden
  obtain ⟨lists, all, -⟩ := (agree (tenants.get "inn") direction).2 tenantPath reached
  obtain ⟨answered, -, shows⟩ := all none
  have same : Conclusion.replied (.ok (.relationships (lists none))) =
      .replied (.ok (.relationships rels)) :=
    Eq.trans answered.symm replied
  cases same
  simpa [discreet, Settings.isVisible, hidden] using ((shows other).mp listed).visible

end Office

end Estate
