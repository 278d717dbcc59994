import Estate.Proofs.View.Creation

namespace Estate

open Script (AnyView)

namespace Graph

variable {graph next last : Graph} {entity : Entity} {rels : List Relationship} {path child : Path}

/-- Whether a path is right below another. -/
def IsParent (graph : Graph) (path : Path) : Prop :=
  ∃ child, graph.entities.contains child ∧ child.up? = some path

theorem Mirrored.hasContents_iff (mirrored : graph.Mirrored none) (wellFormed : graph.WellFormed) :
    graph.hasContents path = true ↔ graph.IsParent path := by
  rw [← Bool.not_eq_false, wellFormed.hasContents_eq_false_iff]
  constructor
  · intro full
    refine Classical.byContradiction fun bare => full fun id rel found named source => bare ?_
    exact ⟨rel.target, (wellFormed.ends found).2, source ▸ mirrored.edges found named⟩
  · rintro ⟨child, stored, up⟩ bare
    obtain ⟨id, rel, found, edge⟩ := mirrored.nested stored up nofun
    exact bare id rel found (congrArg Edge.name edge) (congrArg Edge.source edge)

theorem Gains.not_isParent (gains : graph.Gains entity rels next) (mirrored : graph.Mirrored none)
    (wellFormed : graph.WellFormed) (absent : graph.entities.find? entity.path = none) :
    ¬next.IsParent entity.path := by
  rintro ⟨child, stored, up⟩
  obtain ⟨found, held⟩ := (Table.contains_iff _ _).mp stored
  rw [gains.entities, Table.find?_insert] at held
  split at held
  · rename_i here
    exact Path.ne_of_up? up (by simpa using here)
  · have above := mirrored.stored_above wellFormed ((Table.contains_iff _ _).mpr ⟨found, held⟩) up
    rw [(Table.contains_eq_false_iff _ _).mpr absent] at above
    cases above

end Graph

namespace Listing

variable {listing : Listing} {draft : Draft} {graph next : Graph} {id : String} {entity : Entity}
  {rels : List Relationship}

/-- Why a deletion fails. -/
inductive Retains (listing : Listing) (id : String) (graph : Graph) : Error → Prop where
  | unreached (nowhere : graph.evaluate (listing.get id).position.query = []) :
      Retains listing id graph (.nothingReached (some listing.kind) (listing.get id).position.query)
  | full {path : Path} (first : (graph.evaluate (listing.get id).position.query).head? = some path)
      (above : graph.IsParent path) : Retains listing id graph (.stillContains path)

/-- What a deletion leaves: all that was there, but for the entity that it reaches first, which
nothing lies right below, and the relationships at that. -/
structure Releases (listing : Listing) (id : String) (graph : Graph) (entity : Entity)
    (rels : List Relationship) (next : Graph) : Prop where
  first : (graph.evaluate (listing.get id).position.query).head? = some entity.path
  stored : graph.entities.find? entity.path = some entity
  bare : ¬graph.IsParent entity.path
  lacks : graph.Lacks entity.path next
  released : ∀ rel, rel ∈ rels ↔
    graph.relationships.find? rel.id = some rel ∧
    (rel.source = entity.path ∨ rel.target = entity.path)
  ascending : rels.Pairwise fun a b => compare a.id b.id = .lt

/-- A deletion takes away what it reaches first, unless that is retained. -/
theorem delete_releases (access : draft.tx.access = .readWrite)
    (wellFormed : draft.tx.working.WellFormed) (mirrored : draft.tx.working.Mirrored none)
    (id : String) :
    (listing.delete id).Meets draft (listing.Retains id draft.tx.working) fun result later =>
      ∃ entity rels, listing.Releases id draft.tx.working entity rels later.tx.working ∧
        later.tx.working.WellFormed ∧
        result.notices = rels.map (.relationship .deleted) ++ [.entity .deleted entity] := by
  refine Drafting.meets_first .unreached fun path first => ?_
  obtain ⟨entity, stored, rfl, loaded⟩ := wellFormed.load_first first
  have present := Graph.contains_of_head? first
  refine Drafting.meets_look_ok loaded
    (Drafting.meets_look_ok (Transaction.getRelationships_entity present .both none)
    (Drafting.meets_look_ok (wellFormed.load_listed _ _ _) (Drafting.meets_bind ?_)))
  cases full : draft.tx.working.hasContents entity.path with
  | true =>
    have failed : (Drafting.delete (.entity entity.path)).perform draft =
        (.error (.stillContains entity.path), draft) := by
      simp [Drafting.delete, Drafting.deleteBy, Drafting.deleteEntityBy, Drafting.perform_bind,
        present, full]
    exact Drafting.meets_of_error failed
      (.full first ((mirrored.hasContents_iff wellFormed).mp full))
  | false =>
    have allowed : (Act.delete (.entity entity.path)).changes draft ≠ [] := by
      simp [Act.changes, Act.removals, present, full]
    obtain ⟨later, deleted, -⟩ := Act.perform_delete wellFormed access allowed
    have deleted : (Drafting.delete (.entity entity.path)).perform draft = (.ok (), later) :=
      deleted
    refine Drafting.meets_of_ok deleted (Drafting.meets_pure ?_)
    have wrote := (Drafting.wrote_of_deleteEntity deleted).2
    rw [wellFormed.releases_eq] at wrote
    obtain ⟨lacks, wellFormed'⟩ := wellFormed.lacks_of_replay wrote.replayed
    refine ⟨entity, _, ⟨first, stored, ?_, lacks, fun rel => ?_, ?_⟩, wellFormed', rfl⟩
    · rw [← mirrored.hasContents_iff wellFormed, full]
      exact Bool.false_ne_true
    · rw [Transaction.byId, (List.mergeSort_perm _ _).mem_iff, wellFormed.mem_touching_iff,
        Graph.touches_both_iff]
      simp
    · refine Transaction.byId_ascending ?_
      rw [wellFormed.touching_ids]
      exact wellFormed.distinct _

/-- A deletion that reaches nothing finds nothing, and one of what others lie below breaks a
constraint. -/
theorem Retains.family {error : Error} (retains : listing.Retains id graph error) :
    graph.evaluate (listing.get id).position.query = [] ∧ error.family = .entityNotFound ∨
      ∃ path, (graph.evaluate (listing.get id).position.query).head? = some path ∧
        graph.IsParent path ∧
        error.family = .constraintViolation := by
  cases retains with
  | unreached nowhere => exact .inl ⟨nowhere, rfl⟩
  | full first above => exact .inr ⟨_, first, above, rfl⟩

end Listing

namespace Office

namespace Passage.Undisturbed

variable {settings : Settings} {ids : IdSource} {before : List Event} {listing : Listing}
  {id : String} {passage : Passage}

/-- What comes of a deletion that nothing else is committed beside. -/
theorem releases (offered : (Mutation.delete listing id).Offered) :
    let office := (start settings ids).undergoAll before
    let offer : Offer := ⟨.delete listing id, offered⟩
    let graph := office.inventory.store.committed
    let after := passage.aftermath office offer
    passage.Undisturbed office offer →
    ((start settings ids).trace drawn (before ++ passage.events office offer)).Nodup →
    (∃ error, listing.Retains id graph error ∧ after.outcome = .error error ∧ after.published = [] ∧
        after.store.committed = graph) ∨
      ∃ entity rels, listing.Releases id graph entity rels after.store.committed ∧
        after.store.committed.WellFormed ∧
        after.outcome = .ok .done ∧
        after.published = rels.map (.relationship .deleted) ++ [.entity .deleted entity] := by
  intro office offer graph after undisturbed distinct
  obtain ⟨wellFormed, mirrored, -⟩ := undisturbed.grounds distinct
  obtain ⟨outcome, later, performed, -, -, fails, succeeds⟩ := undisturbed.comes distinct rfl
  have meets := @Listing.delete_releases listing ⟨(office.inventory.store.begin .readWrite).1,
    (passage.opened office offer).inventory.ids⟩ rfl wellFormed mirrored id
  cases outcome with
  | error error => exact .inl ⟨error, meets.of_error performed, fails error rfl⟩
  | ok result =>
    obtain ⟨entity, rels, releases, wellFormed', notices⟩ := meets.of_ok performed
    obtain ⟨yielded, published, left⟩ := succeeds result rfl
    exact .inr ⟨entity, rels, left ▸ releases, left ▸ wellFormed', yielded, published.trans notices⟩

end Passage.Undisturbed

/--
A deletion that nothing else is committed beside is exact, as long as no id is given to two
relationships. Where it reaches nothing, or something that others lie right below, it fails as is
due, and nothing is committed or published. Otherwise it succeeds; the entity that it reaches first
and the relationships at that are all that is gone, and it tells of these in the order of their ids
and of the entity last. If the entity had just been created, and nothing was committed since, then
what is left is what was committed before.
-/
theorem deletion_is_exact (settings : Settings) (ids : IdSource) (before : List Event)
    {listing : Listing} (id : String) (obtained : AnyView.Obtained (.listing listing))
    (managed : listing.scope = .manage) (passage : Passage) :
    let office := (start settings ids).undergoAll before
    let offer : Offer := ⟨.delete listing id, obtained.reached, managed⟩
    let graph := office.inventory.store.committed
    let reached := graph.evaluate (listing.get id).position.query
    let drafted := passage.drafted office offer
    let answer := drafted.answer? (.settle office.upcoming)
    let next := (drafted.step (.settle office.upcoming)).inventory.store.committed
    passage.Undisturbed office offer →
    ((start settings ids).trace drawn (before ++ passage.events office offer)).Nodup →
    ((reached = [] ∧ ∃ error, error.family = .entityNotFound ∧ answer = some (.error error, []) ∧
      next = graph) ∨
      (∃ path error, reached.head? = some path ∧ graph.IsParent path ∧
        error.family = .constraintViolation ∧
        answer = some (.error error, []) ∧ next = graph) ∨
      ∃ entity rels, listing.Releases id graph entity rels next ∧
        answer = some (.ok (), rels.map (.relationship .deleted) ++ [.entity .deleted entity])) ∧
    ∀ (earlier between : List Event) (maker : Listing) (blueprint : Blueprint)
      (offered : (Mutation.create maker blueprint).Offered) (creating : Passage) (view : Single),
      let origin := (start settings ids).undergoAll earlier
      let made : Offer := ⟨.create maker blueprint, offered⟩
      let founded := (creating.drafted origin made).step (.settle origin.upcoming)
      before = earlier ++ creating.events origin made ++ .step (.settle origin.upcoming) ::
        between →
      creating.Undisturbed origin made →
      office.inventory.store.version = founded.inventory.store.version →
      (creating.aftermath origin made).outcome = .ok (.view view) →
      reached.head? = (graph.evaluate view.position.query).head? →
      (∃ published, answer = some (.ok (), published)) ∧
      next = origin.inventory.store.committed := by
  intro office offer graph reached drafted answer next undisturbed distinct
  obtain ⟨answered, committed⟩ := undisturbed.settles
  change answer = _ at answered
  change next = _ at committed
  have comes := Passage.Undisturbed.releases ⟨obtained.reached, managed⟩ undisturbed distinct
  constructor
  · rcases comes with ⟨error, retains, outcome, published, same⟩ | ⟨entity, rels, releases, -,
      outcome, published⟩
    · have failed : answer = some (.error error, []) := by
        rw [answered, outcome, published]
        rfl
      rcases retains.family with ⟨nowhere, family⟩ | ⟨path, first, above, family⟩
      · exact .inl ⟨nowhere, error, family, failed, committed.trans same⟩
      · exact .inr (.inl ⟨path, error, first, above, family, failed, committed.trans same⟩)
    · refine .inr (.inr ⟨entity, rels, committed ▸ releases, ?_⟩)
      rw [answered, outcome, published]
      rfl
  · intro earlier between maker blueprint offered creating view origin made founded shape alone
      still handed first
    have distinct' : ((start settings ids).trace drawn (earlier ++
        creating.events origin made)).Nodup := by
      rw [shape, List.append_assoc, trace_append] at distinct
      exact (List.nodup_append.mp distinct).1
    obtain ⟨wellFormed, mirrored, -⟩ := alone.grounds distinct'
    obtain ⟨entity, rels, rfl, absent, tied, gains, -⟩ :=
      Passage.Undisturbed.gained offered alone distinct' view handed
    have same : graph = (creating.aftermath origin made).store.committed := by
      have whole : office =
          origin.undergoAll (creating.events origin made ++ .step (.settle origin.upcoming) ::
            between) := by
        show (start settings ids).undergoAll before = _
        rw [shape, List.append_assoc, undergoAll_append]
      rw [whole] at still
      exact (congrArg (·.inventory.store.committed) whole).trans (alone.stands still)
    rw [← same] at gains
    have stored : graph.entities.contains entity.path := by simp [gains.entities]
    rw [maker.evaluate_created stored] at first
    have bare := gains.not_isParent mirrored wellFormed absent
    rcases comes with ⟨error, retains, -⟩ | ⟨gone, others, releases, wellFormed', outcome,
      published⟩
    · rcases retains.family with ⟨nowhere, -⟩ | ⟨path, here, above, -⟩
      · rw [show reached = [] from nowhere] at first
        cases first
      · obtain rfl := Option.some.inj (here.symm.trans first)
        exact absurd above bare
    · have here : gone.path = entity.path := Option.some.inj (releases.first.symm.trans first)
      refine ⟨⟨_, answered.trans (by rw [outcome]; rfl)⟩, committed.trans ?_⟩
      exact gains.lacks (here ▸ releases.lacks) wellFormed wellFormed' absent tied

def quiet : Passage := { first := [.read], second := [.read] }

/-- An environment is created under a tenant, and deleted again. -/
theorem shed_leaves_no_trace :
    let origin := (start {} .counter).undergoAll (household.take 3)
    let made : Offer :=
      ⟨.create (environments "mill") { id := some "shed", details := .environment },
        (obtained_environments "mill").reached, rfl, rfl⟩
    let before := household.take 3 ++ quiet.events origin made ++ [.step (.settle origin.upcoming)]
    let office := (start {} .counter).undergoAll before
    let offer : Offer :=
      ⟨.delete (environments "mill") "shed", (obtained_environments "mill").reached, rfl⟩
    quiet.Undisturbed office offer ∧
      ((start {} .counter).trace drawn (before ++ quiet.events office offer)).Nodup ∧
      ((quiet.drafted office offer).step (.settle office.upcoming)).inventory.store.committed =
        origin.inventory.store.committed := by
  intro origin made before office offer
  have undisturbed : quiet.Undisturbed office offer := ⟨by decide +kernel, by decide +kernel⟩
  have distinct : ((start {} .counter).trace drawn (before ++
      quiet.events office offer)).Nodup := by decide +kernel
  have alone : quiet.Undisturbed origin made := ⟨by decide +kernel, by decide +kernel⟩
  have still : office.inventory.store.version =
      ((quiet.drafted origin made).step (.settle origin.upcoming)).inventory.store.version := by
        decide +kernel
  -- what is deleted is what the view of the new environment reaches
  have first : (quiet.aftermath origin made).outcome.toOption.bind (fun
      | .view view => (office.inventory.store.committed.evaluate view.position.query).head?
      | _ => none) =
        (office.inventory.store.committed.evaluate
          ((environments "mill").get "shed").position.query).head? := by
    decide +kernel
  have reached : (office.inventory.store.committed.evaluate
      ((environments "mill").get "shed").position.query).head?.isSome := by decide +kernel
  have restored :=
    (deletion_is_exact {} .counter before "shed" (obtained_environments "mill") rfl quiet
      undisturbed
    distinct).2 (household.take 3) [] (environments "mill") { id := some "shed", details :=
      .environment } made.2 quiet
  refine ⟨undisturbed, distinct, ?_⟩
  rcases handed : (quiet.aftermath origin made).outcome with error | (view | rel | _)
  case ok.view =>
    rw [handed] at first
    subst offer office before made origin
    exact (restored view rfl alone still handed first.symm).2
  all_goals
    rw [handed] at first
    rw [← first] at reached
    cases reached

end Office

end Estate
