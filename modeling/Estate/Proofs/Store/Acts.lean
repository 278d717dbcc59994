import Estate.Proofs.Graph.Elements
import Estate.Proofs.Store.Drafting

/-!
Acts: the single things done in a transaction, each the body that runs. An act amounts to the ids it
draws and to changes that the draft determines before the first of them is written.
-/
namespace Estate

theorem Transaction.findElement_eq_ok_iff {tx : Transaction} {handle : Handle} {element : Element} :
    tx.findElement handle = .ok element ↔ tx.working.element? handle = some element := by
  cases handle with
  | entity path =>
    cases found : tx.working.entities.find? path <;> simp [findElement, Graph.element?, found]
  | relationship id =>
    cases found : tx.working.relationships.find? id <;> simp [findElement, Graph.element?, found]

namespace Transaction

variable {tx : Transaction} {handle : Handle}

theorem convertEntity_eq_ok {entity : Entity} (success : tx.convertEntity handle = .ok entity) :
    ∃ path, handle = .entity path ∧ tx.working.entities.find? path = some entity := by
  unfold convertEntity at success
  obtain ⟨element, converted, narrowed⟩ := bind_eq_ok_iff.mp success
  simp only [convert, ↓reduceIte, findElement_eq_ok_iff] at converted
  cases handle with
  | entity path =>
    obtain ⟨stored, found, rfl⟩ := Option.map_eq_some_iff.mp converted
    cases narrowed
    exact ⟨path, rfl, found⟩
  | relationship id =>
    obtain ⟨stored, found, rfl⟩ := Option.map_eq_some_iff.mp converted
    cases narrowed

theorem convertRelationship_eq_ok {rel : Relationship}
    (success : tx.convertRelationship handle = .ok rel) :
    ∃ id, handle = .relationship id ∧ tx.working.relationships.find? id = some rel := by
  unfold convertRelationship at success
  obtain ⟨element, converted, narrowed⟩ := bind_eq_ok_iff.mp success
  unfold convert at converted
  split at converted
  · rw [findElement_eq_ok_iff] at converted
    cases handle with
    | entity path =>
      obtain ⟨stored, found, rfl⟩ := Option.map_eq_some_iff.mp converted
      cases narrowed
    | relationship id =>
      obtain ⟨stored, found, rfl⟩ := Option.map_eq_some_iff.mp converted
      cases narrowed
      exact ⟨id, rfl, found⟩
  · cases converted

end Transaction

inductive Act where
  /-- looks something up, whatever it is -/
  | read (reading : Transaction → Except Error Unit)
  /-- draws an id for something else than a relationship -/
  | draw
  | persist (path : Path) (blueprint : Blueprint)
  | relate (source target : Handle) (name : String) (properties : Properties)
  | update (handle : Handle) (revision : Update)
  | delete (handle : Handle)

namespace Act

def body : Act → Drafting Unit
  | .read reading => Drafting.look reading
  | .draw => discard Drafting.draw
  | .persist path blueprint => discard (Drafting.persist path blueprint)
  | .relate source target name properties => discard (Drafting.relate source target name properties)
  | .update handle revision => Drafting.update handle revision
  | .delete handle => Drafting.delete handle

def run (act : Act) (draft : Draft) : Draft := (act.body.perform draft).2

def drawn (ids : IdSource) : Act → IdSource
  | .draw | .relate (.entity _) (.entity _) _ _ => ids.draw.2
  | _ => ids

/-- The changes that deleting an entity amounts to, where it may be deleted. -/
def removals (graph : Graph) (path : Path) : List Change :=
  (graph.touching path .both none).map (fun rel => .removeRelationship rel.id) ++
    [.removeEntity path]

def changes (draft : Draft) : Act → List Change
  | .persist path blueprint =>
    match Entity.ofBlueprint path blueprint with
    | .ok entity => [.insertEntity entity]
    | .error _ => []
  | .relate (.entity source) (.entity target) name properties =>
    [.insertRelationship { id := draft.ids.draw.1, name, source, target, properties }]
  | .update handle revision =>
    match draft.tx.findElement handle >>= (·.revise revision) with
    | .ok element => [element.replacement]
    | .error _ => []
  | .delete (.entity path) =>
    if draft.tx.working.entities.contains path && !draft.tx.working.hasContents path then
      removals draft.tx.working path
    else []
  | .delete (.relationship id) =>
    if draft.tx.working.relationships.contains id then [.removeRelationship id] else []
  | _ => []

variable {draft : Draft} {change : Change} {handle : Handle} {revision : Update}

theorem mem_changes_update :
    change ∈ (update handle revision).changes draft ↔
      ∃ old revised, draft.tx.working.element? handle = some old ∧
        old.revise revision = .ok revised ∧
        change = revised.replacement := by
  simp only [changes, ← Transaction.findElement_eq_ok_iff]
  cases found : draft.tx.findElement handle with
  | error error => simp [bind, Except.bind]
  | ok old => cases revised : old.revise revision <;> simp [bind, Except.bind, revised]

/-- Deletions only remove. -/
theorem removal_of_mem_changes_delete (member : change ∈ (delete handle).changes draft) :
    (∃ path, change = .removeEntity path) ∨ ∃ id, change = .removeRelationship id := by
  cases handle with
  | relationship id =>
    simp only [changes] at member
    split at member
    · exact .inr ⟨id, List.mem_singleton.mp member⟩
    · cases member
  | entity path =>
    simp only [changes] at member
    split at member
    · rcases List.mem_append.mp member with released | removed
      · obtain ⟨rel, -, rfl⟩ := List.mem_map.mp released
        exact .inr ⟨rel.id, rfl⟩
      · exact .inl ⟨path, List.mem_singleton.mp removed⟩
    · cases member

def writes : Act → Bool
  | .read _ | .draw => false
  | _ => true

def succeeds (act : Act) (draft : Draft) : Bool := (act.body.perform draft).1.isOk

/-- What a body comes to: it draws its ids, and then writes what it sets out to write. With nothing
to write it can only have failed, unless it never sets out to write. -/
structure Settles (act : Act) (draft : Draft) : Prop where
  idle : act.changes draft = [] →
    (act.body.perform draft).2 = { draft with ids := drawn draft.ids act } ∧
    (act.writes → ¬act.succeeds draft)
  busy : act.changes draft ≠ [] →
    act.body.perform draft = (Drafting.writeAll (act.changes draft)).perform
      { draft with ids := drawn draft.ids act }

theorem Settles.of_error {act : Act} (error : Error) (nothing : act.changes draft = [])
    (undrawn : drawn draft.ids act = draft.ids)
    (failed : act.body.perform draft = (.error error, draft)) :
    act.Settles draft where
  idle _ := by simp [failed, undrawn, succeeds, Except.isOk, Except.toBool]
  busy something := absurd nothing something

theorem Settles.of_write {act : Act} (change : Change) (single : act.changes draft = [change])
    (performs : act.body.perform draft =
      (Drafting.write change).perform { draft with ids := drawn draft.ids act }) :
    act.Settles draft where
  idle nothing := by simp [single] at nothing
  busy _ := by rw [single, Drafting.perform_writeAll_singleton, performs]

private theorem settles_persist (path : Path) (blueprint : Blueprint) (draft : Draft) :
    (persist path blueprint).Settles draft := by
  cases made : Entity.ofBlueprint path blueprint with
  | error error =>
    apply Settles.of_error error
    · simp [changes, made]
    · rfl
    · simp [body, Drafting.persist, Drafting.persistBy, Drafting.perform_bind, made, Except.map]
  | ok entity =>
    apply Settles.of_write (.insertEntity entity)
    · simp [changes, made]
    · rw [← Drafting.perform_discard_write (.insertEntity entity) (Handle.entity path)]
      simp [body, Drafting.persist, Drafting.persistBy, Drafting.perform_bind, made, drawn]

private theorem settles_relate (source target : Handle) (name : String) (properties : Properties)
    (draft : Draft) :
    (relate source target name properties).Settles draft := by
  cases source with
  | relationship id => exact .of_error _ rfl rfl rfl
  | entity source =>
    cases target with
    | relationship id => exact .of_error _ rfl rfl rfl
    | entity target =>
      let rel : Relationship := { id := draft.ids.draw.1, name, source, target, properties }
      apply Settles.of_write (.insertRelationship rel)
      · rfl
      · rw [← Drafting.perform_discard_write (.insertRelationship rel)
          (Handle.relationship draft.ids.draw.1)]
        simp [body, Drafting.relate, Drafting.relateBy, Drafting.perform_bind, Handle.path,
          drawn, rel]

private theorem settles_update (handle : Handle) (revision : Update) (draft : Draft) :
    (update handle revision).Settles draft := by
  cases found : draft.tx.findElement handle with
  | error error =>
    apply Settles.of_error error
    · simp [changes, found, bind, Except.bind]
    · rfl
    · simp [body, Drafting.update, Drafting.updateBy, Drafting.perform_bind, found]
  | ok element =>
    cases revised : element.revise revision with
    | error error =>
      apply Settles.of_error error
      · simp [changes, found, revised, bind, Except.bind]
      · rfl
      · cases element with
        | entity entity =>
          cases outcome : entity.revise revision <;> simp_all [Element.revise, Except.map]
          simp [body, Drafting.update, Drafting.updateBy, Drafting.perform_bind, found, outcome]
        | relationship rel =>
          cases outcome : rel.revise revision <;> simp_all [Element.revise, Except.map]
          simp [body, Drafting.update, Drafting.updateBy, Drafting.perform_bind, found, outcome]
    | ok next =>
      apply Settles.of_write next.replacement
      · simp [changes, found, revised, bind, Except.bind]
      · cases element with
        | entity entity =>
          obtain ⟨entity', outcome, rfl⟩ := Element.revise_entity_eq_ok_iff.mp revised
          simp [body, Drafting.update, Drafting.updateBy, Drafting.perform_bind, found, outcome,
            drawn, Element.replacement]
        | relationship rel =>
          obtain ⟨rel', outcome, rfl⟩ := Element.revise_relationship_eq_ok_iff.mp revised
          simp [body, Drafting.update, Drafting.updateBy, Drafting.perform_bind, found, outcome,
            drawn, Element.replacement]

private theorem settles_delete (handle : Handle) (draft : Draft) :
    (delete handle).Settles draft := by
  cases handle with
  | relationship id =>
    cases stored : draft.tx.working.relationships.contains id with
    | false =>
      apply Settles.of_error (.missing (.relationship id))
      · simp [changes, stored]
      · rfl
      · simp [body, Drafting.delete, Drafting.deleteBy, Drafting.deleteRelationshipBy,
          Drafting.perform_bind, stored]
    | true =>
      apply Settles.of_write (.removeRelationship id)
      · simp [changes, stored]
      · simp [body, Drafting.delete, Drafting.deleteBy, Drafting.deleteRelationshipBy,
          Drafting.perform_bind, stored, drawn]
  | entity path =>
    cases stored : draft.tx.working.entities.contains path with
    | false =>
      apply Settles.of_error (.missing (.entity path))
      · simp [changes, stored]
      · rfl
      · simp [body, Drafting.delete, Drafting.deleteBy, Drafting.deleteEntityBy,
          Drafting.perform_bind, stored]
    | true =>
      cases full : draft.tx.working.hasContents path with
      | true =>
        apply Settles.of_error (.stillContains path)
        · simp [changes, stored, full]
        · rfl
        · simp [body, Drafting.delete, Drafting.deleteBy, Drafting.deleteEntityBy,
            Drafting.perform_bind, stored, full]
      | false =>
        have planned : (delete (.entity path)).changes draft = removals draft.tx.working path := by
          simp [changes, stored, full]
        refine ⟨fun nothing => ?_, fun _ => ?_⟩
        · simp [planned, removals] at nothing
        · rw [planned, removals, ← Drafting.perform_writeAll_append]
          simp [body, Drafting.delete, Drafting.deleteBy, Drafting.deleteEntityBy,
            Drafting.perform_bind, stored, full, drawn, Drafting.perform_writeAll_singleton]

/-- Whatever a body writes it settles on before it writes the first of it. -/
theorem settles (act : Act) (draft : Draft) : act.Settles draft := by
  cases act with
  | read reading =>
    exact ⟨fun _ => ⟨by simp [body, drawn], nofun⟩, fun something => absurd rfl something⟩
  | draw => exact ⟨fun _ => ⟨by simp [body, drawn], nofun⟩, fun something => absurd rfl something⟩
  | persist path blueprint => exact settles_persist path blueprint draft
  | relate source target name properties => exact settles_relate source target name properties draft
  | update handle revision => exact settles_update handle revision draft
  | delete handle => exact settles_delete handle draft

/-- An act draws its ids, and writes what it set out to write up to the first refusal. -/
theorem run_eq (act : Act) (draft : Draft) :
    act.run draft = { tx := draft.tx.attempt (act.changes draft), ids := drawn draft.ids act } := by
  by_cases nothing : act.changes draft = []
  · rw [run, ((act.settles draft).idle nothing).1, nothing]
    rfl
  · rw [run, (act.settles draft).busy nothing, Drafting.perform_writeAll_draft]

def runAll (acts : List Act) (draft : Draft) : Draft :=
  acts.foldl (fun draft act => act.run draft) draft

theorem runAll_append (acts rest : List Act) (draft : Draft) :
    runAll (acts ++ rest) draft = runAll rest (runAll acts draft) := List.foldl_append

end Act

/-- A body that comes to acts on every draft, whether or not it succeeds. -/
def Drafting.Composed {α : Type} (body : Drafting α) : Prop :=
  ∀ draft, ∃ acts, (body.perform draft).2 = Act.runAll acts draft

namespace Drafting.Composed

variable {α β : Type}

theorem pure (value : α) : (Pure.pure value : Drafting α).Composed := fun _ => ⟨[], rfl⟩

theorem throw (error : Error) : (MonadExcept.throw error : Drafting α).Composed :=
  fun _ => ⟨[], rfl⟩

theorem look (read : Transaction → Except Error α) : (Drafting.look read).Composed := fun _ =>
  ⟨[], by simp [Act.runAll]⟩

theorem look? (read : Transaction → Except Error α) : (Drafting.look? read).Composed := fun draft =>
  ⟨[], by rw [perform_look?]; rfl⟩

theorem draw : Drafting.draw.Composed :=
  fun draft => ⟨[.draw], by simp [Act.runAll, Act.run, Act.body]⟩

theorem persist (path : Path) (blueprint : Blueprint) :
    (Drafting.persist path blueprint).Composed := fun draft =>
  ⟨[.persist path blueprint], by simp [Act.runAll, Act.run, Act.body]⟩

theorem relate (source target : Handle) (name : String) (properties : Properties) :
    (Drafting.relate source target name properties).Composed := fun draft =>
  ⟨[.relate source target name properties], by simp [Act.runAll, Act.run, Act.body]⟩

theorem update (handle : Handle) (revision : Update) : (Drafting.update handle revision).Composed :=
  fun _ => ⟨[.update handle revision], rfl⟩

theorem delete (handle : Handle) : (Drafting.delete handle).Composed :=
  fun _ => ⟨[.delete handle], rfl⟩

theorem bind {body : Drafting α} {next : α → Drafting β} (first : body.Composed)
    (second : ∀ value, (next value).Composed) : (body >>= next).Composed := by
  intro draft
  obtain ⟨acts, acted⟩ := first draft
  rw [perform_bind]
  rcases outcome : body.perform draft with ⟨_ | value, later⟩
  · rw [outcome] at acted
    exact ⟨acts, acted⟩
  · rw [outcome] at acted
    obtain ⟨rest, went⟩ := second value later
    refine ⟨acts ++ rest, ?_⟩
    rw [Act.runAll_append, ← acted]
    exact went

theorem ite {condition : Prop} [Decidable condition] {yes no : Drafting α} (first : yes.Composed)
    (second : no.Composed) : (if condition then yes else no).Composed := by
  split
  · exact first
  · exact second

end Drafting.Composed

end Estate
