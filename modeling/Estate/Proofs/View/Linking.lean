import Estate.Proofs.View.Association

namespace Estate

variable {graph next : Graph} {view : Relations} {single left right : Single}
  {segments : List Segment} {entity source target path : Path} {edge : Edge} {rel : Relationship}
  {name id : String} {properties : Properties} {error : Error}

namespace Graph

/-- What a link comes to: a relationship under an id, or what is in its way. -/
def link (graph : Graph) (edge : Edge) (properties : Properties) (id : String) :
    Except Error Relationship :=
  if Reserved.isReserved edge.name ∧ (graph.between? edge.source edge.target edge.name).isSome then
    .error (.linked edge.source.id edge.name edge.target.id)
  else if edge.name = Reserved.contains.name then .error (.misuse .linkContains)
  else .ok { id, name := edge.name, source := edge.source, target := edge.target, properties }

/-- How a link ends: what it hands back, what is published, and what is left. -/
inductive Links (graph : Graph) (edge : Edge) (properties : Properties) (id : String) :
    Except Error Yield → List Notice → Graph → Prop where
  | held {error : Error} (reserved : Reserved.isReserved edge.name) (twin : graph.HasEdge edge)
      (told : error.family = .relationAlreadyExists) : Links graph edge properties id
        (.error error) [] graph
  | contained {error : Error} (named : edge.name = Reserved.contains.name)
      (free : ¬graph.HasEdge edge)
      (told : error.family = .invalidArgument) : Links graph edge properties id
        (.error error) [] graph
  | made {rel : Relationship} {next : Graph}
      (free : Reserved.isReserved edge.name → ¬graph.HasEdge edge)
      (other : edge.name ≠ Reserved.contains.name) (value : rel.edge = edge ∧ rel.id = id ∧
        rel.properties = properties)
      (fresh : graph.relationships.find? id = none) (joined : graph.Joined [rel] next) :
      Links graph edge properties id (.ok (.relationship rel)) [.relationship .created rel] next

namespace WellFormed

variable (wellFormed : graph.WellFormed)
include wellFormed

theorem links_of_error (fails : graph.link edge properties id = .error error) :
    graph.Links edge properties id (.error error) [] graph := by
  unfold link at fails
  split at fails
  · rename_i twin
    cases fails
    exact .held twin.1 (wellFormed.isSome_between?_iff.mp twin.2) rfl
  · rename_i free
    split at fails
    · rename_i named
      have reserved : Reserved.isReserved edge.name := by
        rw [named]
        decide
      cases fails
      exact .contained named (fun held => free ⟨reserved, wellFormed.isSome_between?_iff.mpr held⟩)
        rfl
    · cases fails

theorem links_of_ok (comes : graph.link edge properties id = .ok rel)
    (fresh : graph.relationships.find? rel.id = none) (joined : graph.Joined [rel] next) :
    graph.Links edge properties id (.ok (.relationship rel)) [.relationship .created rel] next := by
  unfold link at comes
  split at comes
  · cases comes
  · rename_i free
    split at comes
    · cases comes
    · rename_i other
      cases comes
      exact .made (fun reserved held => free ⟨reserved, wellFormed.isSome_between?_iff.mpr held⟩)
        other ⟨rfl, rfl, rfl⟩
        fresh joined

end WellFormed

end Graph

namespace Relations

variable (first : (graph.evaluate view.position.query).head? = some entity)
  (oriented : view.ends entity path = (source, target))
include first oriented

/-- Between stored entities, only what is there and the name are in the way of a link. -/
theorem Hinders.link_eq (hinders : view.Hinders name path graph error)
    (stored : graph.entities.contains path) :
    graph.link ⟨name, source, target⟩ properties id = .error error := by
  cases hinders with
  | unreached nowhere => simp [nowhere] at first
  | absent missing => simp [missing] at stored
  | held first' oriented' reserved twin =>
    obtain rfl := Option.some.inj (first.symm.trans first')
    cases oriented.symm.trans oriented'
    simp [Graph.link, reserved, twin]
  | contained first' oriented' named free =>
    obtain rfl := Option.some.inj (first.symm.trans first')
    cases oriented.symm.trans oriented'
    simp [Graph.link, named, named ▸ free]

end Relations

/-- What a link makes is what it comes to under the id drawn. -/
theorem Relations.Makes.link_eq {draft later : Draft} {result : Announced Relationship}
    {source' target' : Path}
    (makes : view.Makes name path properties draft source' target' result later)
    (first : (draft.tx.working.evaluate view.position.query).head? = some entity)
    (oriented : view.ends entity path = (source, target)) :
    draft.tx.working.link ⟨name, source, target⟩ properties draft.ids.draw.1 =
      .ok result.value := by
  obtain ⟨entity', first', oriented'⟩ := makes.oriented
  obtain rfl := Option.some.inj (first.symm.trans first')
  cases oriented.symm.trans oriented'
  have free : ¬(Reserved.isReserved name ∧
      (draft.tx.working.between? source target name).isSome) := by
    rintro ⟨reserved, held⟩
    simp [makes.free reserved] at held
  rw [Graph.link, if_neg free, if_neg makes.other, makes.value]
  rfl

theorem Single.Picks.linking (picks : single.Picks segments) (direction : Direction)
    (sided : direction ≠ .both) (name : String) (path : Path) (properties : Properties) :
    (Mutation.link (single.relations direction) name path properties).Offered :=
  ⟨if_neg sided, single, picks.obtained.reached, rfl⟩

namespace Office

variable {settings : Settings} {ids : IdSource} {before : List Event} {passage : Passage}

/-- A link that nothing else is committed beside ends as its edge and what is there have it. -/
theorem Passage.Undisturbed.links (offered : (Mutation.link view name path properties).Offered) :
    let office := (start settings ids).undergoAll before
    let offer : Offer := ⟨.link view name path properties, offered⟩
    let graph := office.inventory.store.committed
    let comes :=
      graph.link ⟨name, source, target⟩ properties
        (passage.opened office offer).inventory.ids.draw.1
    (graph.evaluate view.position.query).head? = some entity → graph.entities.contains path →
    view.ends entity path = (source, target) → passage.Undisturbed office offer →
    ((start settings ids).trace drawn (before ++ passage.events office offer)).Nodup →
    (∀ error, comes = .error error → passage.Ends office offer (.error error) [] graph) ∧
      ∀ rel, comes = .ok rel → graph.relationships.find? rel.id = none ∧
        graph.Joined [rel] (graph.after (.insertRelationship rel)) ∧
        passage.Ends office offer (.ok (.relationship rel)) [.relationship .created rel]
          (graph.after (.insertRelationship rel)) := by
  intro office offer graph comes first stored oriented undisturbed distinct
  obtain ⟨wellFormed, -, -⟩ := undisturbed.grounds distinct
  rcases undisturbed.ends distinct rfl (Relations.link_meets rfl) with
    ⟨error, hinders, ends⟩ | ⟨result, later, ⟨_, _, makes⟩, unused, ends⟩
  · have fails : comes = .error error := hinders.link_eq first oriented stored
    rw [fails]
    refine ⟨?_, nofun⟩
    rintro _ ⟨⟩
    exact ends
  · have succeeds : comes = .ok result.value := makes.link_eq first oriented
    rw [succeeds]
    refine ⟨nofun, ?_⟩
    rintro _ ⟨⟩
    have left : later.tx.working = graph.after (.insertRelationship result.value) :=
      makes.wrote.working_single
    obtain ⟨fresh, joined, -⟩ := wellFormed.joined_of_wrote rfl unused makes.wrote
    rw [makes.notices] at ends
    rw [← left]
    exact ⟨fresh, joined, ends⟩

/--
Of two stored entities, be they one and the same, the source may link the target or the target may
be linked from its incoming side: where nothing else is committed beside, as long as no id is given
to two relationships and the same is drawn, both end alike. If the name is reserved and the edge is
there already, the link fails for that; or else, if the name is that of containment, it fails for
that; and in both cases what is committed stays as it was. In all other cases the relationship is
made with the properties asked for, and nothing else.
-/
theorem linking_is_exact (settings : Settings) (ids : IdSource) (before : List Event)
    (starting : left.Picks source.segments) (ending : right.Picks target.segments) (name : String)
    (properties : Properties) (forth back : Passage) :
    let office := (start settings ids).undergoAll before
    let graph := office.inventory.store.committed
    let outward : Offer :=
      ⟨.link (left.relations .outgoing) name target properties,
        starting.linking .outgoing nofun _ _ _⟩
    let inward : Offer :=
      ⟨.link (right.relations .incoming) name source properties,
        ending.linking .incoming nofun _ _ _⟩
    let id := (forth.opened office outward).inventory.ids.draw.1
    graph.entities.contains source → graph.entities.contains target →
    forth.Undisturbed office outward → back.Undisturbed office inward →
    ((start settings ids).trace drawn (before ++ forth.events office outward)).Nodup →
    ((start settings ids).trace drawn (before ++ back.events office inward)).Nodup →
    (back.opened office inward).inventory.ids.draw.1 = id →
    ∃ outcome published next,
      graph.Links ⟨name, source, target⟩ properties id outcome published next ∧
      forth.Ends office outward outcome published next ∧
      back.Ends office inward outcome published next := by
  intro office graph outward inward id starts ends undisturbed undisturbed' distinct distinct' same
  obtain ⟨wellFormed, mirrored, -⟩ := undisturbed.grounds distinct
  have away := @Passage.Undisturbed.links _ source source target target name properties _ _ _ forth
    (starting.linking .outgoing nofun name target properties)
    ((starting.first_iff mirrored wellFormed).mpr ⟨starts, rfl⟩) ends rfl undisturbed distinct
  have home := @Passage.Undisturbed.links _ target source target source name properties _ _ _ back
    (ending.linking .incoming nofun name source properties)
    ((ending.first_iff mirrored wellFormed).mpr ⟨ends, rfl⟩) starts rfl undisturbed' distinct'
  rw [show (back.opened office inward).inventory.ids.draw.1 = id from same] at home
  cases comes : graph.link ⟨name, source, target⟩ properties id with
  | error error =>
    exact ⟨.error error, [], graph, wellFormed.links_of_error comes, away.1 error comes,
      home.1 error comes⟩
  | ok rel =>
    obtain ⟨fresh, joined, ended⟩ := away.2 rel comes
    exact ⟨.ok (.relationship rel), _, _, wellFormed.links_of_ok comes fresh joined, ended,
      (home.2 rel comes).2.2⟩

/-- A resource type is linked to a metric type by a name of its own, while others ask for their
association; or the metric type is linked from it, with nothing going on. -/
theorem barrel_linked_from_both_ends :
    let office := (start {} .counter).undergoAll founding
    let graph := office.inventory.store.committed
    let left : Single := (types "inn" .resourceType).get "barrel"
    let right : Single := (types "inn" .metricType).get "level"
    let alone : Passage := { first := [], second := [] }
    let outward : Offer := ⟨.link (left.relations .outgoing) "shows" metricTypePath ∅,
      (picks_type "inn" "barrel" (by decide)).linking .outgoing nofun _ _ _⟩
    let inward : Offer := ⟨.link (right.relations .incoming) "shows" resourceTypePath ∅,
      (picks_type "inn" "level" (by decide)).linking .incoming nofun _ _ _⟩
    contention.Undisturbed office outward ∧ alone.Undisturbed office inward ∧
      ∃ rel next, rel.edge = ⟨"shows", resourceTypePath, metricTypePath⟩ ∧ graph.Joined [rel] next ∧
        contention.Ends office outward (.ok (.relationship rel)) [.relationship .created rel] next ∧
        alone.Ends office inward (.ok (.relationship rel)) [.relationship .created rel] next := by
  intro office graph left right alone outward inward
  have facts : contention.Undisturbed office outward ∧ alone.Undisturbed office inward ∧
      (graph.entities.contains resourceTypePath ∧ graph.entities.contains metricTypePath) ∧
      ((start {} .counter).trace drawn (founding ++ contention.events office outward)).Nodup ∧
      ((start {} .counter).trace drawn (founding ++ alone.events office inward)).Nodup ∧
      (alone.opened office inward).inventory.ids.draw.1 =
        (contention.opened office outward).inventory.ids.draw.1 := by
    decide +kernel
  obtain ⟨undisturbed, undisturbed', ⟨starts, ends⟩, distinct, distinct', same⟩ := facts
  obtain ⟨outcome, published, next, links, away, home⟩ :=
    @linking_is_exact left right resourceTypePath metricTypePath {} .counter founding
      (picks_type "inn" "barrel" (by decide))
      (picks_type "inn" "level" (by decide)) "shows" ∅ contention alone starts ends undisturbed
        undisturbed' distinct distinct' same
  cases links with
  | held reserved => exact absurd reserved (by decide)
  | contained named => exact absurd named (by decide)
  | made free other value fresh joined =>
    exact ⟨undisturbed, undisturbed', _, next, value.1, joined, away, home⟩

end Office

end Estate
