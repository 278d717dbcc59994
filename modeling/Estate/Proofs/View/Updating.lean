import Estate.Proofs.Graph.Replacing
import Estate.Proofs.View.Deletion

/-!
Updates are exact. One goes through just when it reaches something that has the fields it sets; what
it gives then takes their place, and all else stays as it was. Views lead from kind to kind upwards,
so how they reach an entity never depends on its own fields: the same update comes again to the same
entity, and changes nothing further.
-/
namespace Estate

open Script (AnyView)

/-- Ways lead to kinds of a higher rank. -/
theorem Facet.rank_lt {facet : Facet} {kind target : Kind} {name : Reserved}
    (way : facet.from? kind = some (name, target)) : kind.rank < target.rank := by
  cases kind <;> cases facet <;> simp only [Facet.from?, Option.some.injEq, Prod.mk.injEq,
    reduceCtorEq] at way
  all_goals
    obtain ⟨-, rfl⟩ := way
    decide

/-- Whether the way to a view passes over the fields of entities of a kind. Only a view of several
may be narrowed by them, so a listing and a view of one overlook their own kind too. -/
def Script.AnyView.Overlooks (kind : Kind) : AnyView → Prop
  | listing view => view.kind.rank ≤ kind.rank
  | single view => view.kind.rank ≤ kind.rank
  | multiple view => view.kind.rank < kind.rank

/-- A view that overlooks the kind of an entity leads the same ways when that is replaced. -/
theorem Script.AnyView.Obtained.leads_replaced {graph next : Graph} {entity revised : Entity}
    {view : AnyView} (obtained : view.Obtained) (replaced : graph.Replaced entity revised next)
    (overlooks : view.Overlooks entity.kind) {start target : Path} :
    next.Leads view.position.query start target ↔ graph.Leads view.position.query start target := by
  induction obtained generalizing target with
  | tenants => exact Position.leads_tenants_iff.trans Position.leads_tenants_iff.symm
  | created obtained kind ih => exact Position.leads_anchor_iff.trans Position.leads_anchor_iff.symm
  | move obtained moved ih =>
    have followed {position : Position} {name : Reserved} {kind : Kind}
        (before : ∀ {target}, next.Leads position.query start target ↔
          graph.Leads position.query start target) :
        next.Leads (position.proceedTo name kind).query start target ↔
          graph.Leads (position.proceedTo name kind).query start target := by
      refine Position.leads_proceedTo_iff.trans (Iff.trans ?_ Position.leads_proceedTo_iff.symm)
      simp only [before, replaced.landings]
    cases AnyView.moves_of_move? moved with
    | get view id =>
      refine Position.leads_whereAll_iff.trans (Iff.trans ?_ Position.leads_whereAll_iff.symm)
      refine and_congr (ih overlooks) (forall₂_congr fun filter member => ?_)
      -- an id is not among the fields
      obtain rfl := List.mem_singleton.mp member
      exact Iff.rfl
    | getAll view groups =>
      have lower : view.kind.rank < entity.kind.rank := overlooks
      refine Position.leads_whereAny_iff.trans (Iff.trans ?_ Position.leads_whereAny_iff.symm)
      refine (and_congr_left' (ih (Nat.le_of_lt lower))).trans (and_congr_right fun leads => ?_)
      have elsewhere : target ≠ entity.path := by
        rintro rfl
        have kind : entity.kind = view.kind := obtained.kind_of_leads leads
        rw [kind] at lower
        exact Nat.lt_irrefl _ lower
      simp only [replaced.holds_iff elsewhere]
    | all view => exact ih (Nat.le_of_lt overlooks)
    | along way =>
      exact followed (ih (Nat.le_of_lt (Nat.lt_of_lt_of_le (Facet.rank_lt way) overlooks)))
    | across way => exact followed (ih (Nat.lt_of_lt_of_le (Facet.rank_lt way) overlooks))

namespace Listing

variable {listing : Listing} {graph : Graph} {id : String} {revision : Update} {revised : Entity}
  {error : Error}

/-- How an update ends: what it hands back, what is published, and what is left. -/
inductive Updates (listing : Listing) (id : String) (revision : Update) (graph : Graph) :
    Except Error Yield → List Notice → Graph → Prop where
  | unreached {error : Error} (nowhere : graph.evaluate (listing.get id).position.query = [])
      (told : error.family = .entityNotFound) : Updates listing id revision graph
        (.error error) [] graph
  | refused {error : Error} {entity : Entity}
      (first : (graph.evaluate (listing.get id).position.query).head? = some entity.path)
      (held : graph.entities.find? entity.path = some entity) (lacks : ¬entity.Takes revision)
      (told : error.family = .invalidArgument) : Updates listing id revision graph
        (.error error) [] graph
  | made {entity revised : Entity} {next : Graph}
      (first : (graph.evaluate (listing.get id).position.query).head? = some entity.path)
        (takes : entity.Takes revision)
      (amends : entity.Amends revision revised) (replaced : graph.Replaced entity revised next) :
      Updates listing id revision graph (.ok .done) [.entity .updated revised] next

/-- An update comes to nothing, or to a revision of what it reaches first. -/
theorem updated_cases (wellFormed : graph.WellFormed) (listing : Listing) (id : String)
    (revision : Update) :
    graph.evaluate (listing.get id).position.query = [] ∧
        listing.updated id revision graph =
          .error (.nothingReached (some listing.kind) (listing.get id).position.query) ∨
      ∃ entity, (graph.evaluate (listing.get id).position.query).head? = some entity.path ∧
        graph.entities.find? entity.path = some entity ∧
        listing.updated id revision graph = entity.revise revision := by
  cases reached : (graph.evaluate (listing.get id).position.query).head? with
  | none =>
    have nowhere := List.head?_eq_none_iff.mp reached
    refine .inl ⟨nowhere, ?_⟩
    simp [updated, nowhere]
  | some path =>
    obtain ⟨entity, held⟩ := (Table.contains_iff _ _).mp (Graph.contains_of_head? reached)
    obtain rfl := wellFormed.entity held
    exact .inr ⟨entity, rfl, held, updated_of_first reached held⟩

theorem updates_of_error (wellFormed : graph.WellFormed)
    (fails : listing.updated id revision graph = .error error) :
    listing.Updates id revision graph (.error error) [] graph := by
  rcases updated_cases wellFormed listing id revision
    with ⟨nowhere, comes⟩ | ⟨entity, first, held, comes⟩
  · obtain rfl := Except.error.inj (comes.symm.trans fails)
    exact .unreached nowhere rfl
  · have refuses := comes.symm.trans fails
    refine .refused first held (fun takes => ?_) (Entity.family_of_revise refuses)
    obtain ⟨revised, revises⟩ := takes.revise_isOk (wellFormed.kinds held)
    cases refuses.symm.trans revises

theorem updates_of_ok (wellFormed : graph.WellFormed)
    (comes : listing.updated id revision graph = .ok revised) :
    listing.Updates id revision graph (.ok .done) [.entity .updated revised]
      (graph.after (.replaceEntity revised)) := by
  rcases updated_cases wellFormed listing id revision with ⟨-, fails⟩ | ⟨entity, first, held, same⟩
  · cases fails.symm.trans comes
  · have revises := same.symm.trans comes
    exact .made first (Entity.takes_of_revise (wellFormed.kinds held) revises)
      (Entity.amends_of_revise revises)
      (Graph.replaced_after held (Entity.path_revise revises))

/-- What is updated is reached as before, and comes to the same again. -/
theorem updated_again (obtained : AnyView.Obtained (.listing listing))
    (wellFormed : graph.WellFormed) (comes : listing.updated id revision graph = .ok revised) :
    let next := graph.after (.replaceEntity revised)
    listing.updated id revision next = .ok revised ∧
      next.after (.replaceEntity revised) = next := by
  intro next
  rcases updated_cases wellFormed listing id revision with ⟨-, fails⟩ | ⟨entity, first, held, same⟩
  · cases fails.symm.trans comes
  have revises := same.symm.trans comes
  have stays := Entity.path_revise revises
  have replaced : graph.Replaced entity revised next := Graph.replaced_after held stays
  have obtained : AnyView.Obtained (.single (listing.get id)) :=
    @AnyView.Obtained.move (.listing listing) _ (.get id) obtained rfl
  obtain ⟨start, -, leads⟩ := Graph.mem_evaluate_iff.mp (List.mem_of_head? first)
  have kind : entity.kind = listing.kind := obtained.kind_of_leads leads
  have overlooks : AnyView.Overlooks entity.kind (.single (listing.get id)) := by
    rw [kind]
    exact Nat.le_refl _
  have reached : next.evaluate (listing.get id).position.query =
      graph.evaluate (listing.get id).position.query :=
    replaced.evaluate_eq (obtained.leads_replaced replaced overlooks)
  have stored : next.entities.find? entity.path = some revised := by
    rw [replaced.entities, if_pos rfl]
  refine ⟨?_, Graph.after_replaceEntity_self (by rw [stays, stored])⟩
  rw [updated_of_first (reached ▸ first) stored]
  exact Entity.revise_revised revises

end Listing

namespace Office

variable {settings : Settings} {ids : IdSource} {before : List Event} {passage : Passage}

/-- An update that nothing else is committed beside ends as it comes to on what is there. -/
theorem Passage.Undisturbed.updates {listing : Listing} {id : String} {revision : Update}
    (offered : (Mutation.update listing id revision).Offered) :
    let office := (start settings ids).undergoAll before
    let offer : Offer := ⟨.update listing id revision, offered⟩
    let graph := office.inventory.store.committed
    passage.Undisturbed office offer →
    ((start settings ids).trace drawn (before ++ passage.events office offer)).Nodup →
    (∀ error, listing.updated id revision graph = .error error →
      passage.Ends office offer (.error error) [] graph) ∧
      ∀ revised, listing.updated id revision graph = .ok revised →
        passage.Ends office offer (.ok .done) [.entity .updated revised]
          (graph.after (.replaceEntity revised)) := by
  intro office offer graph undisturbed distinct
  obtain ⟨wellFormed, -, -⟩ := undisturbed.grounds distinct
  rcases undisturbed.ends distinct rfl (Listing.update_meets rfl wellFormed id revision) with
    ⟨error, comes, ends⟩ | ⟨result, later, ⟨revised, comes, wrote, notices⟩, -, ends⟩
  · refine ⟨fun other same => ?_, fun revised same => ?_⟩
    · obtain rfl := Except.error.inj (comes.symm.trans same)
      exact ends
    · cases comes.symm.trans same
  · refine ⟨fun error same => ?_, fun other same => ?_⟩
    · cases comes.symm.trans same
    · obtain rfl := Except.ok.inj (comes.symm.trans same)
      have left : later.tx.working = graph.after (.replaceEntity revised) := wrote.working_single
      rw [notices, left] at ends
      exact ends

/--
An update that nothing else is committed beside is exact, as long as no id is given to two
relationships. Where it reaches nothing, or first something without a field that it sets, it fails,
and nothing is committed or published. Otherwise it succeeds; in what it reaches first the fields
that it sets are replaced, everything else is as it was, and it tells of what is there then. Until
anything else is committed, the same update ends alike whenever it comes again, and leaves the same.
-/
theorem update_is_exact (settings : Settings) (ids : IdSource) (before : List Event)
    {listing : Listing} (id : String) (revision : Update)
    (obtained : AnyView.Obtained (.listing listing)) (managed : listing.scope = .manage)
    (passage : Passage) :
    let office := (start settings ids).undergoAll before
    let graph := office.inventory.store.committed
    let offer : Offer := ⟨.update listing id revision, obtained.reached, managed⟩
    passage.Undisturbed office offer →
    ((start settings ids).trace drawn (before ++ passage.events office offer)).Nodup →
    ∃ outcome published next, listing.Updates id revision graph outcome published next ∧
      passage.Ends office offer outcome published next ∧
      ∀ (between : List Event) (again : Passage),
        let settled := (passage.drafted office offer).step (.settle office.upcoming)
        let after :=
          before ++ passage.events office offer ++ .step (.settle office.upcoming) :: between
        let later := (start settings ids).undergoAll after
        later.inventory.store.version = settled.inventory.store.version →
          again.Undisturbed later offer →
        ((start settings ids).trace drawn (after ++ again.events later offer)).Nodup →
        again.Ends later offer outcome published next := by
  intro office graph offer undisturbed distinct
  obtain ⟨wellFormed, -, -⟩ := undisturbed.grounds distinct
  have now := Passage.Undisturbed.updates ⟨obtained.reached, managed⟩ undisturbed distinct
  cases comes : listing.updated id revision graph with
  | error error =>
    have ends := now.1 error comes
    refine ⟨.error error, [], graph, Listing.updates_of_error wellFormed comes, ends, ?_⟩
    intro between again settled after later still alone distinct'
    have same : later.inventory.store.committed = graph := ends.stands undisturbed still
    have anew := (Passage.Undisturbed.updates ⟨obtained.reached, managed⟩ alone distinct').1 error
    rw [same] at anew
    exact anew comes
  | ok revised =>
    have ends := now.2 revised comes
    refine ⟨.ok .done, _, _, Listing.updates_of_ok wellFormed comes, ends, ?_⟩
    intro between again settled after later still alone distinct'
    have same : later.inventory.store.committed = _ := ends.stands undisturbed still
    obtain ⟨comes', left⟩ := Listing.updated_again obtained wellFormed comes
    have anew := (Passage.Undisturbed.updates ⟨obtained.reached, managed⟩ alone distinct').2 revised
    rw [same, left] at anew
    exact anew comes'

theorem obtained_resourceTypes (tenant : String) :
    AnyView.Obtained (.listing (types tenant .resourceType)) :=
  @AnyView.Obtained.move (.single (tenants.get tenant)) _ (.follow .resourceTypes)
    (@AnyView.Obtained.move (.listing tenants) _ (.get tenant) .tenants rfl) rfl

/-- A type is given another version, twice, while others try to delete an environment. -/
theorem clock_updated :
    let listing := types "mill" .resourceType
    let revision : Update := { version := some "2" }
    let office := (start {} .counter).undergoAll household
    let graph := office.inventory.store.committed
    let offer : Offer :=
      ⟨.update listing "clock" revision, (obtained_resourceTypes "mill").reached, rfl⟩
    let after :=
      household ++ overlap.events office offer ++ [.step (.settle office.upcoming), .read]
    let later := (start {} .counter).undergoAll after
    overlap.Undisturbed office offer ∧ quiet.Undisturbed later offer ∧
      ((start {} .counter).trace drawn (after ++ quiet.events later offer)).Nodup ∧
      ∃ entity revised next, revised.details = .resourceType "2" ∧
        graph.Replaced entity revised next ∧
        overlap.Ends office offer (.ok .done) [.entity .updated revised] next ∧
        quiet.Ends later offer (.ok .done) [.entity .updated revised] next := by
  intro listing revision office graph offer after later
  have facts : overlap.Undisturbed office offer ∧ quiet.Undisturbed later offer ∧
      later.inventory.store.version =
        ((overlap.drafted office offer).step (.settle office.upcoming)).inventory.store.version ∧
      ((graph.evaluate (listing.get "clock").position.query).head?.bind graph.entities.find?).map
        (fun entity => (entity.details, entity.kind)) = some (.resourceType "1", .resourceType) ∧
      ((start {} .counter).trace drawn (after ++ quiet.events later offer)).Nodup := by
        decide +kernel
  obtain ⟨undisturbed, alone, still, before, distinct⟩ := facts
  obtain ⟨outcome, published, next, updates, ends, anew⟩ :=
    update_is_exact {} .counter household "clock" revision
    (obtained_resourceTypes "mill") rfl overlap undisturbed
      (nodup_trace_left (nodup_trace_left distinct))
  -- with what is let written out, both ends speak of the same events
  subst later after offer graph office revision listing
  have again := anew [.read] quiet still alone distinct
  refine ⟨undisturbed, alone, distinct, ?_⟩
  cases updates with
  | unreached nowhere => simp [nowhere] at before
  | refused first held lacks =>
    rw [first, Option.bind_some, held] at before
    obtain ⟨-, kind⟩ := Prod.mk.inj (Option.some.inj before)
    exact absurd ⟨fun _ => kind, nofun⟩ lacks
  | made first takes amends replaced =>
    rw [first, Option.bind_some, replaced.held] at before
    obtain ⟨details, -⟩ := Prod.mk.inj (Option.some.inj before)
    exact ⟨_, _, next, amends.version "1" details, replaced, ends, again⟩

end Office

end Estate
