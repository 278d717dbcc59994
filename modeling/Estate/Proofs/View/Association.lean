import Estate.Proofs.Graph.Frames
import Estate.Proofs.View.Picking
import Estate.Proofs.View.Rush
import Estate.Proofs.View.Undisturbed

/-!
Associations are made and ended exactly. From a source that is picked on the way down, an
association goes through just when both ends are in place and it is not there yet; it then adds one
edge and nothing else. Ending it takes just that away, so that what is associated and set apart
again leaves no trace.
-/
namespace Estate

open Script (AnyView)

variable {graph next last : Graph} {single : Single} {segments : List Segment} {facet : Facet}
  {listing : Listing} {view : Associations} {source target path : Path} {kind : Kind}
  {rel : Relationship}

namespace Graph

/-- Both ends of an association are in place: the source at the path of some segments, the target of
a kind. -/
structure Faces (graph : Graph) (segments : List Segment) (kind : Kind) (source target : Path) :
    Prop where
  spelled : source.segments = segments
  starts : graph.entities.contains source
  kind : target.kind = kind
  ends : graph.entities.contains target

/-- When an association can be made: within one tenant, and where it is not there yet. -/
structure MayAssociate (graph : Graph) (segments : List Segment) (kind : Kind)
    (source target : Path) : Prop
    extends graph.Faces segments kind source target where
  within : source.tenantId = target.tenantId
  free : ¬graph.HasEdge ⟨Reserved.owns.name, source, target⟩

/-- When an association can be ended: where it is there. -/
structure MayDisassociate (graph : Graph) (segments : List Segment) (kind : Kind)
    (source target : Path) : Prop
    extends graph.Faces segments kind source target where
  held : graph.HasEdge ⟨Reserved.owns.name, source, target⟩

/-- What making an association leaves: all that was there, and one relationship more. -/
structure Associates (graph : Graph) (source target : Path) (rel : Relationship) (next : Graph) :
    Prop where
  edge : rel.edge = ⟨Reserved.owns.name, source, target⟩
  bare : rel.properties = ∅
  fresh : graph.relationships.find? rel.id = none
  joined : graph.Joined [rel] next

/-- What ending an association leaves: all that was there, but for one relationship. -/
structure Disassociates (graph : Graph) (source target : Path) (rel : Relationship) (next : Graph) :
    Prop where
  edge : rel.edge = ⟨Reserved.owns.name, source, target⟩
  parted : graph.Parted rel next

end Graph

def Single.owning (single : Single) (kind : Kind) : Associations :=
  { kind, position := single.position.proceedTo .owns kind, source := single.kind, name := .owns }

/-- Only ownership is associated. -/
theorem Single.associations_eq (followed : single.follow? facet = some listing)
    (side : listing.associations? = some view) : view = single.owning listing.kind := by
  obtain ⟨⟨name, kind⟩, -, rfl⟩ := Option.map_eq_some_iff.mp followed
  cases name with
  | owns => exact (Option.some.inj side).symm
  | contains | defines => cases side

theorem Single.position_owns (followed : single.follow? facet = some listing)
    (side : listing.associations? = some view) :
    listing.position = single.position.proceedTo .owns listing.kind := by
  have same : view.position = listing.position := by
    unfold Listing.associations? at side
    split at side
    · obtain rfl := Option.some.inj side
      rfl
    · cases side
  rw [← same, associations_eq followed side]
  rfl

namespace Associations

open Estate.Graph (leads_followedBy_iff leads_empty_iff leads_line_iff leads_filters_iff
  stepsLead_cons_iff
  stepsLead_nil_iff)

variable {start : Path}

theorem leads_sourceQuery_iff :
    graph.Leads view.sourceQuery start target ↔
      graph.Leads view.position.source start target ∧ target.kind = view.source := by
  simp only [sourceQuery, Query.extend, Query.Builder.filter, Query.Builder.all,
    Query.Builder.append, Query.Builder.build, leads_followedBy_iff, leads_empty_iff,
    leads_filters_iff]
  constructor
  · rintro ⟨middle, leads, _, rfl, rfl, holds⟩
    exact ⟨leads, by simpa [Filter.kind, Graph.Holds, Graph.passes] using holds⟩
  · rintro ⟨leads, kind⟩
    exact ⟨target, leads, target, rfl, rfl, by simp [Filter.kind, Graph.Holds, Graph.passes, kind]⟩

/-- From the source, an associated entity is across a relationship of the view's name. -/
theorem leads_targetQuery_iff {id : String} :
    graph.Leads (view.targetQuery id) start target ↔
      ∃ source, graph.Leads view.sourceQuery start source ∧
        target ∈ graph.landings source { name := view.name.name, direction := .outgoing } ∧
        target.kind = view.kind ∧ target.id = id := by
  simp only [targetQuery, Query.extend, Query.Builder.path, Query.Builder.filter, Query.Builder.all,
    Query.Builder.append, Query.Builder.build, Query.line, leads_followedBy_iff, leads_empty_iff,
    leads_line_iff,
    List.map_cons, List.map_nil, stepsLead_cons_iff, stepsLead_nil_iff]
  constructor
  · rintro ⟨_, leads, _, ⟨middle, rfl, _, lands, rfl⟩, _, ⟨rfl, kind⟩, _, ⟨rfl, named⟩, rfl⟩
    exact ⟨middle, leads, lands, by simpa [Graph.passes] using kind,
      by simpa [Graph.passes] using named⟩
  · rintro ⟨source, leads, lands, kind, named⟩
    exact ⟨source, leads, target, ⟨source, rfl, target, lands, rfl⟩, target,
      ⟨rfl, by simp [Graph.passes, kind]⟩, target,
      ⟨rfl, by simp [Graph.passes, named]⟩, rfl⟩

end Associations

namespace Single.Picks

/-- The source of its associations is what a view picks. -/
theorem source_iff (picks : single.Picks segments) (mirrored : graph.Mirrored none)
    (wellFormed : graph.WellFormed) :
    (graph.evaluate (single.owning kind).sourceQuery).head? = some source ↔
      graph.entities.contains source ∧ source.segments = segments := by
  rw [← picks.first_iff mirrored wellFormed]
  have same : graph.evaluate (single.owning kind).sourceQuery =
      graph.evaluate single.position.query := by
    refine Graph.evaluate_congr fun path => ?_
    rw [Graph.mem_evaluate_iff, Graph.mem_evaluate_iff]
    refine exists_congr fun start => and_congr_right fun _ => ?_
    rw [Associations.leads_sourceQuery_iff]
    exact and_iff_left_of_imp fun leads => picks.obtained.kind_of_leads leads
  rw [same]

theorem followed (picks : single.Picks segments) (followed : single.follow? facet = some listing) :
    AnyView.Obtained (.listing listing) := by
  have way : (AnyView.single single).move? (.follow facet) = some (.listing listing) := by
    simp [AnyView.move?, followed]
  exact .move picks.obtained way

theorem associating (picks : single.Picks segments) (follows : single.follow? facet = some listing)
    (side : listing.associations? = some view) :
    ∃ listing, AnyView.Reached (.listing listing) ∧ listing.associations? = some view :=
  ⟨listing, (picks.followed follows).reached, side⟩

theorem regards_iff (picks : single.Picks segments) (mirrored : graph.Mirrored none)
    (wellFormed : graph.WellFormed) :
    (single.owning kind).Regards target graph source ↔ graph.Faces segments kind source target := by
  constructor
  · rintro ⟨first, fits, stored⟩
    obtain ⟨starts, spelled⟩ := (picks.source_iff mirrored wellFormed).mp first
    exact ⟨spelled, starts, fits, stored⟩
  · rintro ⟨spelled, starts, fits, stored⟩
    exact ⟨(picks.source_iff mirrored wellFormed).mpr ⟨starts, spelled⟩, fits, stored⟩

end Single.Picks

namespace Associations

theorem Strays.not_regards {error : Error} (strays : view.Strays path graph error) :
    ¬view.Regards path graph source := by
  rintro ⟨first, fits, stored⟩
  cases strays with
  | unreached nowhere => simp [nowhere] at first
  | misfit other => exact other fits
  | absent missing => simp [missing] at stored

end Associations

namespace Single.Picks

variable (picks : single.Picks segments) (mirrored : graph.Mirrored none)
  (wellFormed : graph.WellFormed)
include picks mirrored wellFormed

theorem not_mayAssociate {error : Error}
    (hinders : (single.owning kind).Hinders target graph error) :
    ¬graph.MayAssociate segments kind source target := by
  intro may
  have regards := (picks.regards_iff mirrored wellFormed).mpr may.toFaces
  cases hinders with
  | strays strays => exact strays.not_regards regards
  | across first apart =>
    obtain rfl := Option.some.inj (first.symm.trans regards.first)
    exact apart may.within
  | held first twin =>
    obtain rfl := Option.some.inj (first.symm.trans regards.first)
    have free := wellFormed.between?_eq_none_iff_not_hasEdge.mpr may.free
    exact absurd (twin.symm.trans free) nofun

theorem not_mayDisassociate {error : Error}
    (keeps : (single.owning kind).Keeps target graph error) :
    ¬graph.MayDisassociate segments kind source target := by
  intro may
  have regards := (picks.regards_iff mirrored wellFormed).mpr may.toFaces
  cases keeps with
  | strays strays => exact strays.not_regards regards
  | apart first none =>
    obtain rfl := Option.some.inj (first.symm.trans regards.first)
    exact wellFormed.between?_eq_none_iff_not_hasEdge.mp none may.held

end Single.Picks

theorem Graph.WellFormed.joined_of_wrote {tx later : Transaction}
    (wellFormed : tx.working.WellFormed) (blank : tx.log = [])
    (unused : ∀ id ∈ Change.inserted later.log, tx.working.relationships.find? id = none)
    (wrote : tx.Wrote later [.insertRelationship rel]) :
    tx.working.relationships.find? rel.id = none ∧ tx.working.Joined [rel] later.working ∧
      later.working.WellFormed := by
  have logged : later.log = [.insertRelationship rel] := by rw [wrote.log, blank, List.nil_append]
  rw [logged] at unused
  have fresh : tx.working.relationships.find? rel.id = none :=
    unused rel.id (List.mem_singleton_self _)
  exact ⟨fresh, @wellFormed.joined_of_replay _ _ [rel] (by simp)
    (by simpa using fresh) wrote.replayed⟩

namespace Office.Passage.Undisturbed

variable {settings : Settings} {ids : IdSource} {before : List Event} {passage : Passage}

/-- What comes of an association that nothing else is committed beside. -/
theorem associates (picks : single.Picks segments)
    (offered : (Mutation.associate (single.owning kind) target).Offered) :
    let office := (start settings ids).undergoAll before
    let offer : Offer := ⟨.associate (single.owning kind) target, offered⟩
    let graph := office.inventory.store.committed
    passage.Undisturbed office offer →
    ((start settings ids).trace drawn (before ++ passage.events office offer)).Nodup →
    (∃ error, (∀ source, ¬graph.MayAssociate segments kind source target) ∧
        passage.Ends office offer (.error error) [] graph) ∨
      ∃ source rel next, graph.MayAssociate segments kind source target ∧
        graph.Associates source target rel next ∧
        next.WellFormed ∧
        passage.Ends office offer (.ok (.relationship rel)) [.relationship .created rel] next := by
  intro office offer graph undisturbed distinct
  obtain ⟨wellFormed, mirrored, -⟩ := undisturbed.grounds distinct
  rcases undisturbed.ends distinct rfl (Associations.associate_meets rfl wellFormed) with
    ⟨error, hinders, ends⟩ | ⟨result, later, ⟨source, makes⟩, unused, ends⟩
  · exact .inl ⟨error, fun source => picks.not_mayAssociate mirrored wellFormed hinders, ends⟩
  · have faces := (picks.regards_iff mirrored wellFormed).mp makes.regards
    obtain ⟨fresh, joined, wellFormed'⟩ := wellFormed.joined_of_wrote rfl unused makes.wrote
    rw [makes.notices] at ends
    refine .inr
      ⟨source, result.value, later.tx.working, ⟨faces, makes.within, ?_⟩, ⟨?_, ?_, fresh, joined⟩,
        wellFormed', ends⟩
    · exact wellFormed.between?_eq_none_iff_not_hasEdge.mp makes.free
    · rw [makes.value]
      rfl
    · rw [makes.value]
      rfl

/-- What an association that has gone through leaves stands until anything else is committed. -/
theorem associated (picks : single.Picks segments)
    (offered : (Mutation.associate (single.owning kind) target).Offered) {between : List Event} :
    let office := (start settings ids).undergoAll before
    let offer : Offer := ⟨.associate (single.owning kind) target, offered⟩
    let settled := (passage.drafted office offer).step (.settle office.upcoming)
    let after := before ++ passage.events office offer ++ .step (.settle office.upcoming) :: between
    let later := (start settings ids).undergoAll after
    passage.Undisturbed office offer →
      (passage.aftermath office offer).outcome = .ok (.relationship rel) →
    later.inventory.store.version = settled.inventory.store.version →
    ((start settings ids).trace drawn after).Nodup →
    ∃ source, office.inventory.store.committed.MayAssociate segments kind source target ∧
      office.inventory.store.committed.Associates source target rel
        later.inventory.store.committed := by
  intro office offer settled after later undisturbed handed still distinct
  rcases associates picks offered undisturbed (nodup_trace_left distinct) with
    ⟨error, -, ends⟩ | ⟨source, made, next, may, associates, -, ends⟩
  · cases ends.yields.symm.trans handed
  cases ends.yields.symm.trans handed
  have same : later.inventory.store.committed = next := ends.stands undisturbed still
  exact ⟨source, may, same ▸ associates⟩

/-- What comes of ending an association that nothing else is committed beside. -/
theorem disassociates (picks : single.Picks segments)
    (offered : (Mutation.disassociate (single.owning kind) target).Offered) :
    let office := (start settings ids).undergoAll before
    let offer : Offer := ⟨.disassociate (single.owning kind) target, offered⟩
    let graph := office.inventory.store.committed
    passage.Undisturbed office offer →
    ((start settings ids).trace drawn (before ++ passage.events office offer)).Nodup →
    (∃ error, (∀ source, ¬graph.MayDisassociate segments kind source target) ∧
        passage.Ends office offer (.error error) [] graph) ∨
      ∃ source rel next, graph.MayDisassociate segments kind source target ∧
        graph.Disassociates source target rel next ∧ next.WellFormed ∧
        passage.Ends office offer (.ok (.relationship rel)) [.relationship .deleted rel] next := by
  intro office offer graph undisturbed distinct
  obtain ⟨wellFormed, mirrored, -⟩ := undisturbed.grounds distinct
  rcases undisturbed.ends distinct rfl (Associations.disassociate_meets rfl wellFormed) with
    ⟨error, keeps, ends⟩ | ⟨result, later, ⟨source, parts⟩, -, ends⟩
  · exact .inl ⟨error, fun source => picks.not_mayDisassociate mirrored wellFormed keeps, ends⟩
  · have faces := (picks.regards_iff mirrored wellFormed).mp parts.regards
    obtain ⟨found, edge⟩ := wellFormed.between?_eq_some parts.held
    obtain ⟨parted, wellFormed'⟩ := wellFormed.parted_of_replay found parts.wrote.replayed
    rw [parts.notices] at ends
    exact .inr ⟨source, result.value, later.tx.working,
      ⟨faces, result.value.id, result.value, found, edge⟩, ⟨edge, parted⟩, wellFormed', ends⟩

end Office.Passage.Undisturbed

namespace Graph

/-- Where an association has just been made, it is all there is to end, and ending it leaves what
was there before. -/
theorem Associates.disassociates {ended : Relationship} {other : Path}
    (associates : graph.Associates source target rel next)
    (may : graph.MayAssociate segments kind source target) (wellFormed : graph.WellFormed)
    (may' : next.MayDisassociate segments kind other target)
    (disassociates : next.Disassociates other target ended last) (wellFormed' : last.WellFormed) :
    ended = rel ∧ last = graph := by
  have same : other = source := Path.eq_of_segments (may'.spelled.trans may.spelled.symm)
  have new : ended = rel := by
    rcases (associates.joined.relationships _ _).mp disassociates.parted.held with old | ⟨new, -⟩
    · exact absurd ⟨ended.id, ended, old, same ▸ disassociates.edge⟩ may.free
    · exact List.mem_singleton.mp new
  subst new
  exact ⟨rfl, associates.joined.parted disassociates.parted wellFormed wellFormed' associates.fresh⟩

theorem Associates.mayDisassociate (associates : graph.Associates source target rel next)
    (may : graph.MayAssociate segments kind source target) :
    next.MayDisassociate segments kind source target where
  spelled := may.spelled
  starts := by simpa [associates.joined.entities] using may.starts
  kind := may.kind
  ends := by simpa [associates.joined.entities] using may.ends
  held :=
    ⟨rel.id, rel, (associates.joined.relationships _ _).mpr (.inr ⟨List.mem_singleton_self _, rfl⟩),
      associates.edge⟩

end Graph

namespace Office

/--
Associations are made and ended exactly where nothing else is committed beside, as long as no id is
given to two relationships. One is made just when both ends are in place, within one tenant, and it
is not there yet; it adds a relationship without properties, which it hands back, and nothing else.
It is ended just when both ends are in place and it is there; that takes it away and hands it back.
A failure leaves what is committed as it was, and nothing is published. If nothing is committed
between the two, the end hands back what was made, and leaves what was committed before.
-/
theorem association_is_exact (settings : Settings) (ids : IdSource) (before : List Event)
    (picks : single.Picks segments) (follows : single.follow? facet = some listing)
    (side : listing.associations? = some view) (target : Path) (passage : Passage) :
    let office := (start settings ids).undergoAll before
    let graph := office.inventory.store.committed
    let offered := picks.associating follows side
    let joining : Offer := ⟨.associate view target, offered⟩
    let parting : Offer := ⟨.disassociate view target, offered⟩
    (passage.Undisturbed office joining →
      ((start settings ids).trace drawn (before ++ passage.events office joining)).Nodup →
      (∃ error, (∀ source, ¬graph.MayAssociate segments view.kind source target) ∧
          passage.Ends office joining (.error error) [] graph) ∨
        ∃ source rel next, graph.MayAssociate segments view.kind source target ∧
          graph.Associates source target rel next ∧
          passage.Ends office joining (.ok (.relationship rel)) [.relationship .created rel] next) ∧
    (passage.Undisturbed office parting →
      ((start settings ids).trace drawn (before ++ passage.events office parting)).Nodup →
      (∃ error, (∀ source, ¬graph.MayDisassociate segments view.kind source target) ∧
          passage.Ends office parting (.error error) [] graph) ∨
        ∃ source rel next, graph.MayDisassociate segments view.kind source target ∧
          graph.Disassociates source target rel next ∧
          passage.Ends office parting (.ok (.relationship rel)) [.relationship .deleted rel] next) ∧
    ∀ (rel : Relationship) (between : List Event) (ending : Passage),
      let settled := (passage.drafted office joining).step (.settle office.upcoming)
      let after :=
        before ++ passage.events office joining ++ .step (.settle office.upcoming) :: between
      let later := (start settings ids).undergoAll after
      passage.Undisturbed office joining →
        (passage.aftermath office joining).outcome = .ok (.relationship rel) →
      later.inventory.store.version = settled.inventory.store.version →
      ending.Undisturbed later parting →
      ((start settings ids).trace drawn (after ++ ending.events later parting)).Nodup →
      ending.Ends later parting (.ok (.relationship rel)) [.relationship .deleted rel] graph := by
  obtain rfl := Single.associations_eq follows side
  intro office graph offered joining parting
  refine ⟨fun undisturbed distinct => ?_, fun undisturbed distinct => ?_, ?_⟩
  · rcases Passage.Undisturbed.associates picks offered undisturbed distinct with
      failed | ⟨source, rel, next, may, associates, -, ends⟩
    · exact .inl failed
    · exact .inr ⟨source, rel, next, may, associates, ends⟩
  · rcases Passage.Undisturbed.disassociates picks offered undisturbed distinct with
      failed | ⟨source, rel, next, may, disassociates, -, ends⟩
    · exact .inl failed
    · exact .inr ⟨source, rel, next, may, disassociates, ends⟩
  · intro rel between ending settled after later undisturbed handed still alone distinct
    obtain ⟨source, may, associates⟩ :=
      Passage.Undisturbed.associated picks offered undisturbed handed still
        (nodup_trace_left distinct)
    have wellFormed := (undisturbed.grounds (nodup_trace_left (nodup_trace_left distinct))).1
    rcases Passage.Undisturbed.disassociates picks offered alone distinct with
      ⟨error, unfit, -⟩ | ⟨other, ended, last, may', disassociates, wellFormed', ends⟩
    · exact absurd (associates.mayDisassociate may) (unfit source)
    · obtain ⟨rfl, rfl⟩ := associates.disassociates may wellFormed may' disassociates wellFormed'
      exact ends

theorem picks_type {kind : Kind} (tenant id : String) (fits : .tenant ∈ kind.parents) :
    ((types tenant kind).get id).Picks [⟨.tenant, tenant⟩, ⟨kind, id⟩] := by
  obtain ⟨facet, way⟩ := Facet.exists_contains fits
  have followed : (tenants.get tenant).follow? facet = some (types tenant kind) := by
    rw [Single.follow?, show Facet.from? (tenants.get tenant).kind facet = _ from way]
    rfl
  exact .next (.tenant tenant) followed rfl id

theorem offered_ownership :
    (Mutation.associate ⟨.metricType, (ownedBy "inn" "barrel").position, .resourceType,
      .owns⟩ metricTypePath).Offered :=
  ⟨_, reached_ownedBy "inn" "barrel", rfl⟩

/-- While a resource type is associated with a metric type, others read, and ask for the same. -/
def contention : Passage :=
  { first := [.read], second := [.step (.begin ⟨_, offered_ownership⟩), .step (.draft 6)] }

theorem barrel_owns : ((types "inn" .resourceType).get "barrel").follow? .metricTypes =
    some (ownedBy "inn" "barrel") := rfl

/-- The other one fails, and the two are set apart again. -/
theorem barrel_set_apart :
    let view : Associations :=
      ⟨.metricType, (ownedBy "inn" "barrel").position, .resourceType, .owns⟩
    let office := (start {} .counter).undergoAll founding
    let graph := office.inventory.store.committed
    let offered :=
      @Single.Picks.associating _ _ _ _ view (picks_type "inn" "barrel" (by decide)) barrel_owns rfl
    let joining : Offer := ⟨.associate view metricTypePath, offered⟩
    let parting : Offer := ⟨.disassociate view metricTypePath, offered⟩
    let after := founding ++ contention.events office joining ++
      [.step (.settle office.upcoming), .step (.settle 6)]
    let later := (start {} .counter).undergoAll after
    contention.Undisturbed office joining ∧ contention.Undisturbed later parting ∧
      ((start {} .counter).trace drawn (after ++ contention.events later parting)).Nodup ∧
      ∃ source rel next, graph.Associates source metricTypePath rel next ∧
        contention.Ends office joining (.ok (.relationship rel)) [.relationship .created rel] next ∧
        contention.Ends later parting (.ok (.relationship rel)) [.relationship .deleted rel]
          graph := by
  intro view office graph offered joining parting after later
  have facts : contention.Undisturbed office joining ∧ contention.Undisturbed later parting ∧
      later.inventory.store.version =
        ((contention.drafted office joining).step
          (.settle office.upcoming)).inventory.store.version ∧
      (contention.aftermath office joining).outcome.toOption.isSome ∧
      ((start {} .counter).trace drawn (after ++ contention.events later parting)).Nodup := by
        decide +kernel
  obtain ⟨undisturbed, alone, still, succeeds, distinct⟩ := facts
  have distinct' : ((start {} .counter).trace drawn (founding ++
      contention.events office joining)).Nodup :=
    nodup_trace_left (nodup_trace_left distinct)
  have exact :=
    @association_is_exact _ _ _ _ view {} .counter founding (picks_type "inn" "barrel" (by decide))
      barrel_owns rfl
    metricTypePath contention
  refine ⟨undisturbed, alone, distinct, ?_⟩
  rcases exact.1 undisturbed distinct'
    with ⟨error, -, ends⟩ | ⟨source, rel, next, -, associates, ends⟩
  · rw [ends.yields] at succeeds
    cases succeeds
  · subst later after parting joining offered graph office view
    exact ⟨source, rel, next, associates, ends,
      exact.2.2 rel [.step (.settle 6)] contention undisturbed ends.yields still alone distinct⟩

end Office

end Estate
