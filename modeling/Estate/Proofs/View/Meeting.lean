import Estate.Proofs.View.Descent
import Estate.Proofs.View.Kinds

namespace Estate

variable {α β : Type} {draft later : Draft} {fails : Error → Prop} {wanted : α → Draft → Prop}

def Draft.relation (draft : Draft) (source target : Path) (name : String)
    (properties : Properties) : Relationship :=
  { id := draft.ids.draw.1, name, source, target, properties }

namespace Drafting

/-- A body succeeds as wanted, or fails with an error that is allowed. -/
def Meets (body : Drafting α) (draft : Draft) (fails : Error → Prop) (wanted : α → Draft → Prop) :
    Prop :=
  match body.perform draft with
  | (.ok value, later) => wanted value later
  | (.error error, _) => fails error

theorem Meets.of_ok {body : Drafting α} (meets : body.Meets draft fails wanted) {value : α}
    (success : body.perform draft = (.ok value, later)) : wanted value later := by
  simpa only [Meets, success] using meets

theorem Meets.of_error {body : Drafting α} (meets : body.Meets draft fails wanted) {error : Error}
    (failure : body.perform draft = (.error error, later)) : fails error := by
  simpa only [Meets, failure] using meets

theorem meets_of_ok {body : Drafting α} {value : α}
    (success : body.perform draft = (.ok value, later)) (holds : wanted value later) :
    body.Meets draft fails wanted := by
  simpa only [Meets, success] using holds

theorem meets_of_error {body : Drafting α} {error : Error}
    (failure : body.perform draft = (.error error, later)) (allowed : fails error) :
    body.Meets draft fails wanted := by
  simpa only [Meets, failure] using allowed

theorem meets_pure {value : α} (holds : wanted value draft) :
    (pure value : Drafting α).Meets draft fails wanted := holds

theorem meets_throw {error : Error} (allowed : fails error) :
    (throw error : Drafting α).Meets draft fails wanted :=
  allowed

theorem meets_bind {body : Drafting β} {next : β → Drafting α}
    (first : body.Meets draft fails fun value later => (next value).Meets later fails wanted) :
    (body >>= next).Meets draft fails wanted := by
  simp only [Meets, perform_bind] at first ⊢
  generalize body.perform draft = performed at first ⊢
  rcases performed with ⟨error | value, later⟩ <;> exact first

theorem Meets.mono {body : Drafting α} {others : α → Draft → Prop}
    (meets : body.Meets draft fails wanted) (more : ∀ value later, wanted value later →
      others value later) : body.Meets draft fails others := by
  simp only [Meets] at meets ⊢
  generalize body.perform draft = performed at meets ⊢
  rcases performed with ⟨error | value, later⟩
  · exact meets
  · exact more value later meets

theorem Meets.imp {body : Drafting α} {others : Error → Prop}
    (meets : body.Meets draft fails wanted) (more : ∀ error, fails error → others error) :
    body.Meets draft others fun _ _ => True := by
  simp only [Meets] at meets ⊢
  generalize body.perform draft = performed at meets ⊢
  rcases performed with ⟨error | value, later⟩
  · exact more error meets
  · trivial

theorem meets_look {read : Transaction → Except Error β} {next : β → Drafting α}
    (refused : ∀ error, read draft.tx = .error error → fails error)
    (found : ∀ value, read draft.tx = .ok value → (next value).Meets draft fails wanted) :
    (look read >>= next).Meets draft fails wanted := by
  refine meets_bind ?_
  simp only [Meets, perform_look]
  cases outcome : read draft.tx with
  | ok value => exact found value outcome
  | error error => exact refused error outcome

theorem meets_look_ok {read : Transaction → Except Error β} {next : β → Drafting α} {value : β}
    (found : read draft.tx = .ok value) (rest : (next value).Meets draft fails wanted) :
    (look read >>= next).Meets draft fails wanted := by
  refine meets_look (fun error refused => ?_) fun other same => ?_
  · simp [found] at refused
  · rw [found] at same
    exact Except.ok.inj same ▸ rest

theorem meets_look? {read : Transaction → Except Error β} {next : Option β → Drafting α}
    (absent : ∀ error, read draft.tx = .error error →
      (∃ what, error = .missing what) ∧ (next none).Meets draft fails wanted)
    (found : ∀ value, read draft.tx = .ok value → (next (some value)).Meets draft fails wanted) :
    (look? read >>= next).Meets draft fails wanted := by
  refine meets_bind ?_
  simp only [Meets, perform_look?]
  cases outcome : read draft.tx with
  | ok value => exact found value outcome
  | error error =>
    obtain ⟨⟨what, rfl⟩, rest⟩ := absent error outcome
    exact rest

theorem meets_unless {condition : Prop} [Decidable condition] {error : Error}
    {next : Unit → Drafting α} (refused : condition → fails error)
    (rest : ¬condition → (next ()).Meets draft fails wanted) :
    (if condition then throw error >>= next else next ()).Meets draft fails wanted := by
  split
  · rename_i holds
    exact refused holds
  · rename_i fine
    exact rest fine

section

variable (access : draft.tx.access = .readWrite)
include access

theorem meets_write {change : Change} (admitted : draft.tx.working.Admits change) :
    (write change).Meets draft fails fun _ later => draft.tx.Wrote later.tx [change] := by
  have written := Transaction.write_eq_ok_iff.mpr ⟨access, admitted, rfl⟩
  have performed := perform_write change draft
  rw [written] at performed
  exact meets_of_ok performed (wrote_of_write performed)

theorem meets_persist {path : Path} {blueprint : Blueprint}
    (absent : draft.tx.working.entities.find? path = none)
    (unmade : ∀ error, Entity.ofBlueprint path blueprint = .error error → fails error) :
    (persist path blueprint).Meets draft fails fun handle later => handle = .entity path ∧
      ∃ entity, Entity.ofBlueprint path blueprint = .ok entity ∧
        draft.tx.Wrote later.tx [.insertEntity entity] := by
  refine meets_look unmade fun entity made => meets_bind ?_
  have admitted : draft.tx.working.Admits (.insertEntity entity) := by
    rw [← Entity.path_ofBlueprint made] at absent
    exact absent
  exact (meets_write access admitted).mono fun _ later wrote => ⟨rfl, entity, made, wrote⟩

/-- Relating two stored entities, where no reserved twin is in the way, and reading back what was
written. -/
theorem meets_relate {source target : Path} {name : String} {properties : Properties}
    {next : Relationship → Drafting α} (starts : draft.tx.working.entities.contains source)
    (ends : draft.tx.working.entities.contains target)
    (single : Reserved.isReserved name → draft.tx.working.between? source target name = none)
    (rest : ∀ later, draft.tx.Wrote later.tx [.insertRelationship
      (draft.relation source target name properties)] →
      (next (draft.relation source target name properties)).Meets later fails wanted) :
    (do
      let handle ← relate (.entity source) (.entity target) name properties
      let rel ← look (·.convertRelationship handle)
      next rel).Meets draft fails wanted := by
  let rel := draft.relation source target name properties
  have admitted : draft.tx.working.Admits (.insertRelationship rel) := ⟨starts, ends, single⟩
  refine meets_bind (meets_look_ok rfl (meets_look_ok rfl (meets_bind ?_)))
  simp only [Meets, perform_draw]
  refine meets_bind ?_
  refine (@meets_write { draft with ids := draft.ids.draw.2 } _ access _ admitted).mono
    fun _ later wrote => ?_
  refine meets_pure (meets_look_ok ?_ (rest later wrote))
  exact Transaction.convertRelationship_eq_ok_iff.mpr wrote.find?_insertRelationship

theorem meets_deleteRelationship {id : String}
    (stored : draft.tx.working.relationships.contains id) :
    (delete (.relationship id)).Meets draft fails fun _ later =>
      draft.tx.Wrote later.tx [.removeRelationship id] := by
  refine meets_bind ?_
  show Meets (if (!draft.tx.working.relationships.contains id) = true then _ else _) draft fails _
  rw [stored]
  exact meets_write access stored

end

end Drafting

theorem Reading.first_eq_ok_iff {query : Query} {kind : Option Kind} {tx : Transaction}
    {handle : Handle} :
    Reading.first query kind tx = .ok handle ↔
      ∃ path, (tx.working.evaluate query).head? = some path ∧ handle = .entity path := by
  rw [Reading.first_eq]
  cases tx.working.evaluate query <;> simp [eq_comm]

theorem Reading.first_eq_error_iff {query : Query} {kind : Option Kind} {tx : Transaction}
    {error : Error} :
    Reading.first query kind tx = .error error ↔
      tx.working.evaluate query = [] ∧ error = .nothingReached kind query := by
  rw [Reading.first_eq]
  cases tx.working.evaluate query <;> simp [eq_comm]

theorem Graph.contains_of_head? {graph : Graph} {query : Query} {path : Path}
    (first : (graph.evaluate query).head? = some path) : graph.entities.contains path :=
  contains_of_mem_evaluate (List.mem_of_head? first)

theorem Transaction.convertEntity_eq_ok_iff {tx : Transaction} {path : Path} {entity : Entity} :
    tx.convertEntity (.entity path) = .ok entity ↔
      tx.working.entities.find? path = some entity := by
  constructor
  · intro success
    obtain ⟨_, same, found⟩ := convertEntity_eq_ok success
    cases same
    exact found
  · intro found
    simp [convertEntity, convert, Handle.category, findElement, found, bind, Except.bind]

theorem Drafting.meets_first {query : Query} {kind : Option Kind} {next : Handle → Drafting α}
    (unreached : draft.tx.working.evaluate query = [] → fails (.nothingReached kind query))
    (reached : ∀ path, (draft.tx.working.evaluate query).head? = some path →
      (next (.entity path)).Meets draft fails wanted) :
    (look (Reading.first query kind) >>= next).Meets draft fails wanted := by
  refine meets_look (fun error refused => ?_) fun handle found => ?_
  · obtain ⟨nothing, rfl⟩ := Reading.first_eq_error_iff.mp refused
    exact unreached nothing
  · obtain ⟨path, first, rfl⟩ := Reading.first_eq_ok_iff.mp found
    exact reached path first

theorem Graph.WellFormed.load_first {tx : Transaction} (wellFormed : tx.working.WellFormed)
    {query : Query} {path : Path} (first : (tx.working.evaluate query).head? = some path) :
    ∃ entity, tx.working.entities.find? path = some entity ∧ entity.path = path ∧
      tx.convertEntity (.entity path) = .ok entity := by
  obtain ⟨entity, found⟩ := (Table.contains_iff _ _).mp (contains_of_head? first)
  exact ⟨entity, found, wellFormed.entity found, Transaction.convertEntity_eq_ok_iff.mpr found⟩

/-- The relationships at what is stored are listed in the order of their ids. -/
theorem Transaction.getRelationships_entity {tx : Transaction} {path : Path}
    (stored : tx.working.entities.contains path) (direction : Direction) (name : Option String) :
    tx.getRelationships (.entity path) direction name =
      .ok ((byId (tx.working.touching path direction name)).map
        fun rel => .relationship rel.id) := by
  simp [getRelationships, Handle.path, stored, bind, Except.bind]

/-- Relationships listed by their ids come in ascending order of these. -/
theorem Transaction.byId_ascending {rels : List Relationship} (once : (rels.map (·.id)).Nodup) :
    (byId rels).Pairwise fun a b => compare a.id b.id = .lt := by
  have sorted : (byId rels).Pairwise fun a b => (compare a.id b.id).isLE :=
    List.pairwise_mergeSort (fun _ _ _ => Std.TransCmp.isLE_trans) (fun a b => by
      rw [Std.OrientedOrd.eq_swap, Bool.or_comm]
      cases compare b.id a.id <;> rfl) rels
  have distinct : (byId rels).Pairwise fun a b => a.id ≠ b.id :=
    List.pairwise_map.mp (((List.mergeSort_perm _ _).map _).nodup_iff.mpr once)
  refine (sorted.and distinct).imp fun {a b} both => ?_
  obtain ⟨least, apart⟩ := both
  cases compared : compare a.id b.id with
  | lt => rfl
  | eq => exact absurd (Std.LawfulEqOrd.eq_of_compare compared) apart
  | gt => simp [compared] at least

theorem Graph.WellFormed.load_listed {tx : Transaction} (wellFormed : tx.working.WellFormed)
    (path : Path) (direction : Direction) (name : Option String) :
    ((Transaction.byId (tx.working.touching path direction name)).map
      fun rel => Handle.relationship rel.id).mapM
      tx.convertRelationship =
        .ok (Transaction.byId (tx.working.touching path direction name)) := by
  refine Transaction.mapM_convertRelationship fun rel member => ?_
  exact (wellFormed.mem_touching_iff.mp ((List.mergeSort_perm _ _).mem_iff.mp member)).1

theorem Graph.WellFormed.load_related {tx : Transaction} (wellFormed : tx.working.WellFormed)
    {path : Path} (stored : tx.working.entities.contains path) (direction : Direction)
    (name : Option String) :
    ∃ rels : List Relationship, tx.getRelationships (.entity path) direction name =
        .ok (rels.map fun rel => .relationship rel.id) ∧
      (rels.map fun rel => Handle.relationship rel.id).mapM tx.convertRelationship = .ok rels :=
  ⟨_, Transaction.getRelationships_entity stored direction name,
    wellFormed.load_listed path direction name⟩

theorem Transaction.find_eq_ok_iff {tx : Transaction} {path : Path} {handle : Handle} :
    tx.find path = .ok handle ↔ tx.working.entities.contains path ∧ handle = .entity path := by
  unfold find
  by_cases stored : tx.working.entities.contains path
  · simp [stored, eq_comm]
  · simp [stored]

theorem Transaction.find_eq_error_iff {tx : Transaction} {path : Path} {error : Error} :
    tx.find path = .error error ↔ tx.working.entities.find? path = none ∧
      error = .missing (.entity path) := by
  unfold find
  rw [← Table.contains_eq_false_iff]
  by_cases stored : tx.working.entities.contains path
  · simp [stored]
  · simp [stored, eq_comm]

/-- Without a relationship of an edge, none is found between its ends. -/
theorem Graph.between?_eq_none_of_edges {graph : Graph} {source target : Path} {name : String}
    (apart : ∀ id rel, graph.relationships.find? id = some rel →
      rel.edge ≠ ⟨name, source, target⟩) :
    graph.between? source target name = none := by
  rw [between?_eq_none_iff_noted]
  intro rel member
  obtain ⟨id, -, found⟩ := List.mem_filterMap.mp member
  exact apart id rel found

end Estate
