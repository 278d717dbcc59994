import Estate.Proofs.View.Deeds

namespace Estate

variable {registry : Registry} {graph : Graph} {mutation : Mutation} {written : List Change}
  {notices : List Notice}

theorem Tidy.single {change : Change} (unrelated : registry.Unrelated change) :
    Tidy registry none [change] :=
  .unrelated unrelated .done

theorem Tidy.relating {rels : List Relationship}
    (apart : ∀ rel ∈ rels, rel.name ≠ Reserved.contains.name) :
    Tidy registry none (rels.map .insertRelationship) := by
  induction rels with
  | nil => exact .done
  | cons rel rest ih =>
    have rest := ih fun other member => apart other (List.mem_cons_of_mem _ member)
    exact .unrelated (apart rel List.mem_cons_self) rest

/-- What holds at an entity that contains nothing leads into it wherever it contains. -/
theorem Registry.Sound.tidy_removals {path : Path} (sound : registry.Sound graph)
    (bare : graph.hasContents path = false) : Tidy registry none (Act.removals graph path) := by
  have members : ∀ rel ∈ graph.touching path .both none, ∃ stamp, registry rel.id = some stamp ∧
      (stamp.edge.name = Reserved.contains.name → stamp.edge.target = path) := by
    intro rel member
    obtain ⟨found, touching, -⟩ := sound.mem_touching_iff.mp member
    obtain ⟨writer, known⟩ := sound.registered found
    refine ⟨_, known, fun named => ?_⟩
    rcases Graph.touches_both_iff.mp touching with source | target
    · exact absurd source (sound.hasContents_eq_false_iff.mp bare rel.id rel found named)
    · exact target
  -- it is released before it is removed, and stands uncontained in between
  refine .exempt path ?_
  unfold Act.removals
  generalize graph.touching path .both none = rels at members ⊢
  induction rels with
  | nil => exact .remove path .done
  | cons rel rest ih =>
    obtain ⟨stamp, known, into⟩ := members rel List.mem_cons_self
    exact .release known into (ih fun other member => members other (List.mem_cons_of_mem _ member))

theorem Registry.Sound.tidy_removeRelationship {id : String} {rel : Relationship}
    (sound : registry.Sound graph) (found : graph.relationships.find? id = some rel)
    (other : rel.name ≠ Reserved.contains.name) : Tidy registry none [.removeRelationship id] := by
  obtain ⟨writer, known⟩ := sound.registered found
  exact .single ⟨_, known, other⟩

/-- A new entity is contained at once where it has a parent, and what its type does then contains
nothing. -/
theorem Entity.tidy_wired {entity : Entity} {rels : List Relationship}
    (wired : rels.map (·.edge) = entity.wiring) :
    Tidy registry none (.insertEntity entity :: rels.map .insertRelationship) := by
  have defined {rels : List Relationship}
      (wired : rels.map (·.edge) =
        (entity.type?.map fun type => ⟨Reserved.defines.name, type, entity.path⟩).toList) :
      Tidy registry none (rels.map .insertRelationship) := by
    apply Tidy.relating
    intro rel member named
    have edge : rel.edge ∈ rels.map (·.edge) := List.mem_map_of_mem member
    rw [wired, Option.mem_toList, Option.map_eq_some_iff] at edge
    obtain ⟨type, -, edge⟩ := edge
    have other : Reserved.defines.name = rel.name := congrArg Edge.name edge
    rw [named] at other
    exact absurd other (by decide)
  cases up : entity.path.up? with
  | none =>
    rw [Entity.wiring, up] at wired
    exact .unrelated up (defined wired)
  | some parent =>
    rw [Entity.wiring, up] at wired
    cases rels with
    | nil => cases wired
    | cons rel rest =>
      obtain ⟨contains, wired⟩ := List.cons.inj wired
      exact .exempt entity.path (.insert entity (.contain up contains (defined wired)))

/-- Only ownership is associated. -/
theorem Associations.name_eq_owns {view : Associations}
    (offered : ∃ listing, Script.AnyView.Reached (.listing listing) ∧
      listing.associations? = some view) :
    view.name = .owns := by
  obtain ⟨listing, reached, offers⟩ := offered
  unfold Listing.associations? at offers
  split at offers
  · rename_i source name scope
    obtain rfl := Option.some.inj offers
    exact reached.name_eq_owns scope
  · cases offers

/-- What an offered mutation writes is tidy on every graph of the registry's. -/
theorem Deed.tidy (deed : Deed graph mutation written notices) (offered : mutation.Offered)
    (sound : registry.Sound graph) : Tidy registry none written := by
  have owns {rel : Relationship} {view : Associations} (named : rel.name = view.name.name)
      (offered : ∃ listing, Script.AnyView.Reached (.listing listing) ∧
        listing.associations? = some view) :
      rel.name ≠ Reserved.contains.name := by
    rw [named, Associations.name_eq_owns offered]
    decide
  cases deed with
  | create made wired => exact Entity.tidy_wired wired
  | update stored revises => exact .single trivial
  | delete stored bare detached => exact sound.tidy_removals bare
  | associate named within => exact .single (owns named offered)
  | disassociate stored named => exact sound.tidy_removeRelationship stored (owns named offered)
  | link apart => exact .single apart
  | updateRelationship stored revises => exact .single trivial
  | deleteRelationship stored apart => exact sound.tidy_removeRelationship stored apart

end Estate
