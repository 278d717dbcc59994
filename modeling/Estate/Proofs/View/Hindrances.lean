import Estate.Proofs.View.Meeting

namespace Estate

variable {draft : Draft}

namespace Listing

variable {settings : Settings} {listing : Listing} {blueprint : Blueprint}

def parent? (listing : Listing) (graph : Graph) : Option (Option (Handle × Path)) :=
  if listing.kind = .tenant then some none
  else (graph.evaluate listing.position.source).head?.map fun path => some (.entity path, path)

theorem stored_of_parent? {graph : Graph} {container : Handle} {path : Path}
    (reached : listing.parent? graph = some (some (container, path))) :
    container = .entity path ∧ graph.entities.contains path := by
  unfold parent? at reached
  split at reached
  · cases reached
  · obtain ⟨first, found, same⟩ := Option.map_eq_some_iff.mp reached
    cases same
    exact ⟨rfl, Graph.contains_of_head? found⟩

def wanted? (settings : Settings) (listing : Listing) (parent : Option (Handle × Path))
    (blueprint : Blueprint) :
    Option String :=
  match parent, listing.kind with
  | some (_, environment), .feed => settings.feedNaming environment blueprint.id
  | _, _ => blueprint.id

theorem chooseId_eq (parent : Option (Handle × Path)) :
    listing.chooseId settings parent blueprint =
      match listing.wanted? settings parent blueprint with
      | some id => pure id
      | none => Drafting.draw := rfl

def Sites (settings : Settings) (listing : Listing) (blueprint : Blueprint) (graph : Graph)
    (path : Path) : Prop :=
  ∃ parent id, listing.parent? graph = some parent ∧
    (∀ wanted, listing.wanted? settings parent blueprint = some wanted → id = wanted) ∧
    listing.place parent id = .ok path

/-- Why a creation fails. -/
inductive Hinders (settings : Settings) (listing : Listing) (blueprint : Blueprint)
    (graph : Graph) : Error → Prop where
  | unreached (nowhere : listing.parent? graph = none) :
      Hinders settings listing blueprint graph (.nothingReached none listing.position.source)
  | misplaced {parent : Option (Handle × Path)} {id : String} {fault : Path.Fault}
      (reached : listing.parent? graph = some parent)
      (named : ∀ wanted, listing.wanted? settings parent blueprint = some wanted → id = wanted)
      (misfit : listing.place parent id = .error fault) : Hinders settings listing blueprint graph
        (.path fault)
  | present {path : Path} (sited : listing.Sites settings blueprint graph path)
      (stored : graph.entities.contains path) :
      Hinders settings listing blueprint graph (.entityPresent path)
  | unmade {path : Path} {error : Error} (sited : listing.Sites settings blueprint graph path)
      (unmade : Entity.ofBlueprint path blueprint = .error error) : Hinders settings listing
        blueprint graph error
  | untyped {path type : Path} {entity : Entity}
      (sited : listing.Sites settings blueprint graph path)
      (made : Entity.ofBlueprint path blueprint = .ok entity) (typed : entity.type? = some type)
      (absent : graph.entities.find? type = none) :
      Hinders settings listing blueprint graph (.misuse (.typeMissing type))

theorem meets_parent {fails : Error → Prop} {wanted : Option (Handle × Path) → Draft → Prop}
    (wellFormed : draft.tx.working.WellFormed)
    (unreached : listing.parent? draft.tx.working = none →
      fails (.nothingReached none listing.position.source))
    (reached : ∀ parent, listing.parent? draft.tx.working = some parent → wanted parent draft) :
    listing.parent.Meets draft fails wanted := by
  unfold Listing.parent
  by_cases top : listing.kind = .tenant
  · rw [if_pos top]
    exact Drafting.meets_pure (reached none (if_pos top))
  · rw [if_neg top]
    simp only [parent?, if_neg top] at unreached reached
    refine Drafting.meets_first (fun nothing => unreached (by simp [nothing])) fun path first => ?_
    obtain ⟨entity, -, rfl, loaded⟩ := wellFormed.load_first first
    exact Drafting.meets_look_ok loaded (Drafting.meets_pure (reached _ (by simp [first])))

/-- Only the source of ids is touched by choosing an id. -/
theorem meets_chooseId {fails : Error → Prop} {wanted : String → Draft → Prop}
    {parent : Option (Handle × Path)}
    (chosen : ∀ id ids, (∀ asked, listing.wanted? settings parent blueprint = some asked →
      id = asked) →
      wanted id { draft with ids }) : (listing.chooseId settings parent blueprint).Meets draft fails
        wanted := by
  rw [chooseId_eq]
  cases asked : listing.wanted? settings parent blueprint with
  | some id => exact Drafting.meets_pure (chosen id draft.ids (by simp [asked]))
  | none => exact chosen draft.ids.draw.1 draft.ids.draw.2 (by simp [asked])

/-- An entity is related to its type, unless that is missing. Until then only containment leads to
it. -/
theorem meets_relateType {fails : Error → Prop} {result : Announced Path} {entity : Entity}
    {path : Path} (access : draft.tx.access = .readWrite)
    (stored : draft.tx.working.entities.contains path)
    (apart : ∀ id rel, draft.tx.working.relationships.find? id = some rel → rel.target = path →
      rel.name = Reserved.contains.name)
    (untyped : ∀ type, entity.type? = some type → draft.tx.working.entities.find? type = none →
      fails (.misuse (.typeMissing type))) :
    (relateType result entity (.entity path)).Meets draft fails fun value _ =>
      value.value = result.value ∧ ∃ more, value.notices = result.notices ++ more := by
  unfold relateType
  split
  · exact Drafting.meets_pure ⟨rfl, [], by simp⟩
  · rename_i type typed
    refine Drafting.meets_look? (fun error refused => ?_) fun definer found => ?_
    · obtain ⟨absent, rfl⟩ := Transaction.find_eq_error_iff.mp refused
      exact ⟨⟨_, rfl⟩, Drafting.meets_throw (untyped type typed absent)⟩
    · obtain ⟨present, rfl⟩ := Transaction.find_eq_ok_iff.mp found
      have single : draft.tx.working.between? type path Reserved.defines.name = none := by
        refine Graph.between?_eq_none_of_edges fun id rel found edge => ?_
        have contains := apart id rel found (congrArg Edge.target edge)
        rw [show rel.name = Reserved.defines.name from congrArg Edge.name edge] at contains
        exact absurd contains (by decide)
      exact Drafting.meets_relate access present stored (fun _ => single) fun later _ =>
        Drafting.meets_pure ⟨rfl, _, rfl⟩

/-- The rest of a creation, once its entity is stored and before anything leads to it. -/
theorem meets_wiring {fails : Error → Prop} {parent : Option (Handle × Path)}
    {result : Announced Path} {entity : Entity} (access : draft.tx.access = .readWrite)
    (stored : draft.tx.working.entities.contains entity.path)
    (untouched : ∀ id rel, draft.tx.working.relationships.find? id = some rel →
      rel.target ≠ entity.path)
    (above : ∀ container path, parent = some (container, path) →
      container = .entity path ∧ draft.tx.working.entities.contains path)
    (untyped : ∀ type, entity.type? = some type → draft.tx.working.entities.find? type = none →
      fails (.misuse (.typeMissing type))) :
    (do
      let result ←
        match parent with
        | some (container, _) => relateAnnounced result container (.entity entity.path) .contains
        | none => pure result
      relateType result entity (.entity entity.path)).Meets draft fails fun value _ =>
        value.value = result.value ∧ ∃ more, value.notices = result.notices ++ more := by
  cases parent with
  | none =>
    exact Drafting.meets_bind (Drafting.meets_pure (meets_relateType access stored
      (fun id rel found target => absurd target (untouched id rel found)) untyped))
  | some parent =>
    obtain ⟨container, path⟩ := parent
    obtain ⟨rfl, present⟩ := above _ _ rfl
    have single : draft.tx.working.between? path entity.path Reserved.contains.name = none :=
      Graph.between?_eq_none_of_edges fun id rel found edge =>
        untouched id rel found (congrArg Edge.target edge)
    refine Drafting.meets_bind ?_
    refine Drafting.meets_relate access present stored (fun _ => single) fun later wrote => ?_
    have entities : later.tx.working.entities = draft.tx.working.entities := by
      rw [wrote.working_single, Graph.entities_insertRelationship]
    have apart : ∀ id other, later.tx.working.relationships.find? id = some other →
        other.target = entity.path →
        other.name = Reserved.contains.name := by
      intro id other found target
      rw [wrote.working_single] at found
      rcases Graph.relationship_after found with old | ⟨-, new | new⟩
      · exact absurd target (untouched id other old)
      · cases new
        rfl
      · cases new
    refine Drafting.meets_pure ((meets_relateType (wrote.access.trans access) ?_ apart ?_).mono
      fun value _ kept => ?_)
    · rw [entities]
      exact stored
    · rw [entities]
      exact untyped
    · obtain ⟨same, more, told⟩ := kept
      exact ⟨same, _, told.trans (List.append_assoc _ _ _)⟩

/-- A creation puts its entity where it may, or is hindered. -/
theorem create_meets (access : draft.tx.access = .readWrite)
    (wellFormed : draft.tx.working.WellFormed) :
    (listing.create settings blueprint).Meets draft
      (listing.Hinders settings blueprint draft.tx.working)
      fun result _ => ∃ entity, listing.Sites settings blueprint draft.tx.working entity.path ∧
        Entity.ofBlueprint entity.path blueprint = .ok entity ∧ result.value = entity.path ∧
        ∃ more, result.notices = .entity .created entity :: more := by
  refine Drafting.meets_bind (meets_parent wellFormed .unreached fun parent reached => ?_)
  refine Drafting.meets_bind (meets_chooseId fun id ids named => ?_)
  refine Drafting.meets_look (fun error misfit => ?_) fun path sited => ?_
  · cases placed : listing.place parent id with
    | ok path =>
      rw [placed] at misfit
      cases misfit
    | error fault =>
      rw [placed] at misfit
      cases misfit
      exact .misplaced reached named placed
  · have sited : listing.Sites settings blueprint draft.tx.working path :=
      ⟨parent, id, reached, named, mapError_eq_ok_iff.mp sited⟩
    refine Drafting.meets_look? (fun error refused => ?_) fun handle found => ?_
    · obtain ⟨absent, rfl⟩ := Transaction.find_eq_error_iff.mp refused
      refine ⟨⟨_, rfl⟩, Drafting.meets_unless (absurd · Bool.false_ne_true)
        fun _ => Drafting.meets_bind ?_⟩
      refine (@Drafting.meets_persist { draft with ids } _ access path blueprint absent
        fun error => .unmade sited).mono
        fun handle between persisted => ?_
      obtain ⟨rfl, entity, made, wrote⟩ := persisted
      obtain rfl := Entity.path_ofBlueprint made
      refine Drafting.meets_look_ok
        (Transaction.convertEntity_eq_ok_iff.mpr wrote.find?_insertEntity) ?_
      have access : between.tx.access = .readWrite := wrote.access.trans access
      have stored : between.tx.working.entities.contains entity.path :=
        (Table.contains_iff _ _).mpr ⟨entity, wrote.find?_insertEntity⟩
      have entities : between.tx.working.entities =
          draft.tx.working.entities.insert entity.path entity := by
        rw [wrote.working_single]
        rfl
      refine (meets_wiring access stored ?_ ?_ ?_).mono fun value _ finished => ?_
      · intro id rel found target
        rw [wrote.working_single] at found
        have ends := (wellFormed.ends found).2
        rw [target, (Table.contains_eq_false_iff _ _).mpr absent] at ends
        cases ends
      · rintro container path rfl
        obtain ⟨same, present⟩ := stored_of_parent? reached
        exact ⟨same, by simp [entities, present]⟩
      · intro type typed missing
        rw [entities, Table.find?_insert] at missing
        split at missing
        · cases missing
        · exact .untyped sited made typed missing
      · obtain ⟨same, more, told⟩ := finished
        exact ⟨entity, sited, made, same, more, told⟩
    · obtain ⟨stored, rfl⟩ := Transaction.find_eq_ok_iff.mp found
      exact Drafting.meets_unless (fun _ => .present sited stored) fun fine => absurd rfl fine

end Listing

theorem Transaction.getRelationship_entities (tx : Transaction) (source target : Path)
    (name : String) :
    tx.getRelationship (.entity source) (.entity target) name =
      match tx.working.between? source target name with
      | some rel => .ok (.relationship rel.id)
      | none => .error (.missing (.between source name target)) := rfl

theorem Transaction.hasRelationship_entities (tx : Transaction) (source target : Path)
    (name : String) :
    tx.hasRelationship (.entity source) (.entity target) name =
      .ok (tx.working.between? source target name).isSome := by
  rw [hasRelationship, getRelationship_entities]
  cases tx.working.between? source target name <;> rfl

theorem Reading.entityAt_eq (path : Path) (tx : Transaction) :
    Reading.entityAt path tx =
      if tx.working.entities.contains path then .ok (.entity path)
        else .error (.entityAbsent path) := by
  by_cases stored : tx.working.entities.contains path <;> simp [entityAt, Transaction.find, stored]

namespace Associations

variable {view : Associations} {path : Path}

/-- Why an association is neither made nor ended, whatever there is between its ends. -/
inductive Strays (view : Associations) (path : Path) (graph : Graph) : Error → Prop where
  | unreached (nowhere : graph.evaluate view.sourceQuery = []) :
      Strays view path graph (.nothingReached (some view.source) view.sourceQuery)
  | misfit (other : path.kind ≠ view.kind) :
      Strays view path graph (.misuse (.notAssociable path.kind view.kind view.name))
  | absent (missing : graph.entities.contains path = false) :
      Strays view path graph (.entityAbsent path)

/-- Why an association fails. -/
inductive Hinders (view : Associations) (path : Path) (graph : Graph) : Error → Prop where
  | strays {error : Error} (strays : view.Strays path graph error) : Hinders view path graph error
  | across {source : Path} (first : (graph.evaluate view.sourceQuery).head? = some source)
      (apart : source.tenantId ≠ path.tenantId) : Hinders view path graph
        (.misuse (.acrossTenants source path))
  | held {source : Path} {rel : Relationship}
      (first : (graph.evaluate view.sourceQuery).head? = some source)
      (twin : graph.between? source path view.name.name = some rel) :
      Hinders view path graph (.associated source view.name path)

/-- Why an association is not ended. -/
inductive Keeps (view : Associations) (path : Path) (graph : Graph) : Error → Prop where
  | strays {error : Error} (strays : view.Strays path graph error) : Keeps view path graph error
  | apart {source : Path} (first : (graph.evaluate view.sourceQuery).head? = some source)
      (none : graph.between? source path view.name.name = none) :
      Keeps view path graph (.notAssociated view.name view.sourceQuery path)

/-- What an association is about: the source that is reached first, and a target of the view's kind
that is stored. -/
structure Regards (view : Associations) (path : Path) (graph : Graph) (source : Path) : Prop where
  first : (graph.evaluate view.sourceQuery).head? = some source
  kind : path.kind = view.kind
  stored : graph.entities.contains path

/-- What an association between two entities is made of, and what is told of it. -/
structure Makes (view : Associations) (path : Path) (draft : Draft) (source : Path)
    (result : Announced Relationship) (later : Draft) : Prop where
  regards : view.Regards path draft.tx.working source
  within : source.tenantId = path.tenantId
  free : draft.tx.working.between? source path view.name.name = none
  value : result.value = draft.relation source path view.name.name ∅
  wrote : draft.tx.Wrote later.tx [.insertRelationship result.value]
  notices : result.notices = [.relationship .created result.value]

/-- What ending an association takes away, and what is told of it. -/
structure Ends (view : Associations) (path : Path) (draft : Draft) (source : Path)
    (result : Announced Relationship) (later : Draft) : Prop where
  regards : view.Regards path draft.tx.working source
  held : draft.tx.working.between? source path view.name.name = some result.value
  wrote : draft.tx.Wrote later.tx [.removeRelationship result.value.id]
  notices : result.notices = [.relationship .deleted result.value]

/-- The looks with which associations are made and ended: for the source, and for the target. -/
theorem meets_regards {α : Type} {fails : Error → Prop} {wanted : α → Draft → Prop}
    {next : Handle → Handle → Drafting α}
    (strays : ∀ error, view.Strays path draft.tx.working error → fails error)
    (rest : ∀ source, view.Regards path draft.tx.working source →
      (next (.entity source) (.entity path)).Meets draft fails wanted) :
    (do
      let source ← Drafting.look view.sourceEntity
      let target ← Drafting.look (view.target path)
      next source target).Meets draft fails wanted := by
  refine Drafting.meets_first (fun nowhere => strays _ (.unreached nowhere)) fun source first => ?_
  by_cases fits : path.kind = view.kind
  · by_cases stored : draft.tx.working.entities.contains path
    · have found : view.target path draft.tx = .ok (.entity path) := by
        simp [target, fits, Reading.entityAt_eq, stored]
      exact Drafting.meets_look_ok found (rest source ⟨first, fits, stored⟩)
    · have missing : view.target path draft.tx = .error (.entityAbsent path) := by
        simp [target, fits, Reading.entityAt_eq, stored]
      refine Drafting.meets_look (fun error refused => ?_) fun handle found => by simp [missing]
        at found
      obtain rfl := Except.error.inj (missing.symm.trans refused)
      exact strays _ (.absent (by simpa using stored))
  · have misfit : view.target path draft.tx =
        .error (.misuse (.notAssociable path.kind view.kind view.name)) := by
      simp [target, fits]
    refine Drafting.meets_look (fun error refused => ?_) fun handle found => by simp [misfit]
      at found
    obtain rfl := Except.error.inj (misfit.symm.trans refused)
    exact strays _ (.misfit fits)

/-- An association is made from the source that is reached first, or is hindered. -/
theorem associate_meets (access : draft.tx.access = .readWrite)
    (wellFormed : draft.tx.working.WellFormed) :
    (view.associate path).Meets draft (view.Hinders path draft.tx.working) fun result later =>
      ∃ source, view.Makes path draft source result later := by
  refine meets_regards (fun _ => .strays) fun source regards => ?_
  obtain ⟨entity, -, rfl, loaded⟩ := wellFormed.load_first regards.first
  refine Drafting.meets_look_ok loaded (Drafting.meets_unless (.across regards.first)
    fun within => ?_)
  refine Drafting.meets_look_ok (draft.tx.hasRelationship_entities _ _ _) ?_
  cases twin : draft.tx.working.between? entity.path path view.name.name with
  | some rel =>
    exact Drafting.meets_unless (fun _ => .held regards.first twin) fun free => absurd rfl free
  | none =>
    refine Drafting.meets_unless (absurd · Bool.false_ne_true) fun _ => ?_
    have starts := Graph.contains_of_head? regards.first
    refine Drafting.meets_relate access starts regards.stored (fun _ => twin) fun later wrote => ?_
    exact Drafting.meets_pure ⟨entity.path, regards, by simpa using within, twin, rfl, wrote, rfl⟩

/-- What associates two entities is taken away, unless there is none or they stray. -/
theorem disassociate_meets (access : draft.tx.access = .readWrite)
    (wellFormed : draft.tx.working.WellFormed) :
    (view.disassociate path).Meets draft (view.Keeps path draft.tx.working) fun result later =>
      ∃ source, view.Ends path draft source result later := by
  refine meets_regards (fun _ => .strays) fun source regards => ?_
  refine Drafting.meets_look? (fun error refused => ?_) fun handle got => ?_
  · rw [Transaction.getRelationship_entities] at refused
    split at refused
    · cases refused
    · rename_i none
      cases refused
      exact ⟨⟨_, rfl⟩, Drafting.meets_throw (.apart regards.first none)⟩
  · rw [Transaction.getRelationship_entities] at got
    split at got
    · rename_i rel held
      cases got
      obtain ⟨found, -⟩ := wellFormed.between?_eq_some held
      have stored : draft.tx.working.relationships.contains rel.id :=
        (Table.contains_iff _ _).mpr ⟨rel, found⟩
      refine Drafting.meets_look_ok (Transaction.convertRelationship_eq_ok_iff.mpr found)
        (Drafting.meets_bind ?_)
      exact (Drafting.meets_deleteRelationship access stored).mono fun _ later wrote =>
        Drafting.meets_pure ⟨source, regards, held, wrote, rfl⟩
    · cases got

end Associations

namespace Relations

variable {view : Relations} {name : String} {path : Path} {properties : Properties}

/-- The source and the target of a link from an entity to another: seen from the incoming side, the
other is the source. -/
def ends (view : Relations) (entity other : Path) : Path × Path :=
  if view.direction = .incoming then (other, entity) else (entity, other)

/-- Why a link fails. -/
inductive Hinders (view : Relations) (name : String) (path : Path) (graph : Graph) :
    Error → Prop where
  | unreached (nowhere : graph.evaluate view.position.query = []) :
      Hinders view name path graph (.nothingReached none view.position.query)
  | absent (missing : graph.entities.contains path = false) :
      Hinders view name path graph (.entityAbsent path)
  | held {entity source target : Path} {rel : Relationship}
      (first : (graph.evaluate view.position.query).head? = some entity)
      (oriented : view.ends entity path = (source, target)) (reserved : Reserved.isReserved name)
      (twin : graph.between? source target name = some rel) :
      Hinders view name path graph (.linked source.id name target.id)
  | contained {entity source target : Path}
      (first : (graph.evaluate view.position.query).head? = some entity)
      (oriented : view.ends entity path = (source, target)) (named : name = Reserved.contains.name)
      (free : graph.between? source target name = none) : Hinders view name path graph
        (.misuse .linkContains)

/-- What a link between two entities is made of, and what is told of it. -/
structure Makes (view : Relations) (name : String) (path : Path) (properties : Properties)
    (draft : Draft) (source target : Path) (result : Announced Relationship) (later : Draft) :
    Prop where
  oriented : ∃ entity, (draft.tx.working.evaluate view.position.query).head? = some entity ∧
    view.ends entity path = (source, target)
  free : Reserved.isReserved name → draft.tx.working.between? source target name = none
  other : name ≠ Reserved.contains.name
  value : result.value = draft.relation source target name properties
  wrote : draft.tx.Wrote later.tx [.insertRelationship result.value]
  notices : result.notices = [.relationship .created result.value]

/-- The entity that is reached first is linked, or the link is hindered. -/
theorem link_meets (access : draft.tx.access = .readWrite) :
    (view.link name path properties).Meets draft (view.Hinders name path draft.tx.working)
      fun result later =>
        ∃ source target, view.Makes name path properties draft source target result later := by
  refine Drafting.meets_first .unreached fun entity first => ?_
  by_cases stored : draft.tx.working.entities.contains path
  case neg =>
    have missing : Reading.entityAt path draft.tx = .error (.entityAbsent path) := by
      simp [Reading.entityAt_eq, stored]
    refine Drafting.meets_look (fun error refused => ?_) fun handle found => by simp [missing]
      at found
    obtain rfl := Except.error.inj (missing.symm.trans refused)
    exact .absent (by simpa using stored)
  refine Drafting.meets_look_ok (by rw [Reading.entityAt_eq, if_pos stored]) ?_
  have present := Graph.contains_of_head? first
  obtain ⟨source, target, oriented, handles, starts, ends⟩ : ∃ source target,
      view.ends entity path = (source, target) ∧
      (if view.direction = .incoming then (Handle.entity path, Handle.entity entity)
        else (.entity entity, .entity path)) = (.entity source, .entity target) ∧
      draft.tx.working.entities.contains source ∧ draft.tx.working.entities.contains target := by
    unfold Relations.ends
    split
    · exact ⟨path, entity, rfl, rfl, stored, present⟩
    · exact ⟨entity, path, rfl, rfl, present, stored⟩
  rw [handles]
  dsimp only
  -- what is left once no reserved twin is in the way
  have linked (free : Reserved.isReserved name →
      draft.tx.working.between? source target name = none) :
      (do
        if name = Reserved.contains.name then throw (.misuse .linkContains)
        let handle ← Drafting.relate (.entity source) (.entity target) name properties
        let rel ← Drafting.look (·.convertRelationship handle)
        return { value := rel, notices := [.relationship .created rel] } : Drafting
          (Announced Relationship)).Meets draft
        (view.Hinders name path draft.tx.working) fun result later =>
          ∃ source target, view.Makes name path properties draft source target result later := by
    refine Drafting.meets_unless (fun named => .contained first oriented named (free ?_))
      fun other => ?_
    · rw [named]
      decide
    · refine Drafting.meets_relate access starts ends free fun later wrote => ?_
      exact Drafting.meets_pure ⟨source, target, ⟨entity, first, oriented⟩, free, other, rfl,
        wrote, rfl⟩
  by_cases reserved : Reserved.isReserved name
  · rw [if_pos reserved]
    refine Drafting.meets_look_ok (draft.tx.hasRelationship_entities _ _ _) ?_
    cases twin : draft.tx.working.between? source target name with
    | some rel =>
      exact Drafting.meets_unless (fun _ => .held first oriented reserved twin) fun free =>
        absurd rfl free
    | none =>
      exact Drafting.meets_unless (absurd · Bool.false_ne_true) fun _ => linked fun _ => twin
  · rw [if_neg reserved]
    exact linked fun holds => absurd holds reserved

end Relations

end Estate
