import Estate.Proofs.Graph.Containment
import Estate.Proofs.Store.Registry

/-!
Tidy logs: those that keep containment in step with the paths on whatever graph they are replayed.
What they remove is judged by the registry, for the graph may have changed since; what they insert
they contain before they end.
-/
namespace Estate

namespace Registry

variable {registry next : Registry} {graph : Graph} {change : Change}

/-- Changes that have nothing to do with containment on any graph of the registry's. -/
def Unrelated (registry : Registry) : Change → Prop
  | .insertEntity entity => entity.path.up? = none
  | .replaceEntity _ | .replaceRelationship _ => True
  | .removeEntity _ => False
  | .insertRelationship rel => rel.name ≠ Reserved.contains.name
  | .removeRelationship id =>
    ∃ stamp, registry id = some stamp ∧ stamp.edge.name ≠ Reserved.contains.name

theorem Unrelated.extend (unrelated : registry.Unrelated change) (more : registry.Extends next) :
    next.Unrelated change := by
  cases change with
  | removeRelationship id =>
    obtain ⟨stamp, known, apart⟩ := unrelated
    exact ⟨stamp, more known, apart⟩
  | insertEntity entity | replaceEntity entity | removeEntity path | insertRelationship rel
  | replaceRelationship rel => exact unrelated

theorem Sound.unrelated (sound : registry.Sound graph) (unrelated : registry.Unrelated change) :
    graph.Unrelated change := by
  cases change with
  | removeRelationship id =>
    intro rel found
    obtain ⟨stamp, known, apart⟩ := unrelated
    obtain ⟨writer, registered⟩ := sound.registered found
    obtain rfl := Option.some.inj (registered.symm.trans known)
    exact apart
  | insertEntity entity | replaceEntity entity | removeEntity path | insertRelationship rel
  | replaceRelationship rel => exact unrelated

end Registry

/-- The path is the one exempt from being contained when the log begins. -/
inductive Tidy (registry : Registry) : Option Path → List Change → Prop where
  | done : Tidy registry none []
  | unrelated {exempt : Option Path} {change : Change} {log : List Change}
      (apart : registry.Unrelated change)
      (rest : Tidy registry exempt log) : Tidy registry exempt (change :: log)
  | exempt {log : List Change} (path : Path) (rest : Tidy registry (some path) log) :
      Tidy registry none log
  | insert {log : List Change} (entity : Entity) (rest : Tidy registry (some entity.path) log) :
      Tidy registry (some entity.path) (.insertEntity entity :: log)
  | contain {path parent : Path} {rel : Relationship} {log : List Change}
      (up : path.up? = some parent)
      (edge : rel.edge = .containment parent path) (rest : Tidy registry none log) :
      Tidy registry (some path) (.insertRelationship rel :: log)
  | release {path : Path} {id : String} {stamp : Stamp} {log : List Change}
      (known : registry id = some stamp)
      (into : stamp.edge.name = Reserved.contains.name → stamp.edge.target = path)
      (rest : Tidy registry (some path) log) : Tidy registry (some path) (.removeRelationship id ::
        log)
  | remove {log : List Change} (path : Path) (rest : Tidy registry none log) :
      Tidy registry (some path) (.removeEntity path :: log)

namespace Tidy

variable {registry next : Registry} {graph later : Graph} {log : List Change} {writer : Nat}
  {exempt : Option Path}

theorem extend (tidy : Tidy registry exempt log) (more : registry.Extends next) :
    Tidy next exempt log := by
  induction tidy with
  | done => exact .done
  | unrelated apart _ ih => exact .unrelated (apart.extend more) ih
  | exempt path _ ih => exact .exempt path ih
  | insert entity _ ih => exact .insert entity ih
  | contain up edge _ ih => exact .contain up edge ih
  | release known into _ ih => exact .release (more known) into ih
  | remove path _ ih => exact .remove path ih

/-- A tidy log that fits a graph keeps containment in step with the paths there. -/
theorem replay (tidy : Tidy registry exempt log) (fits : registry.Fits writer log graph)
    (mirrored : graph.Mirrored exempt) (replayed : graph.replay log = .ok later) :
    later.Mirrored none := by
  induction tidy generalizing graph with
  | done =>
    obtain rfl := Except.ok.inj replayed
    exact mirrored
  | exempt path _ ih => exact ih fits (mirrored.weaken (some path)) replayed
  | unrelated apart _ ih =>
    obtain ⟨admitted, rest⟩ := Graph.replay_cons_eq_ok_iff.mp replayed
    exact ih (fits.after admitted) (mirrored.after_unrelated fits.suits admitted
      (fits.sound.unrelated apart)) rest
  | insert entity _ ih =>
    obtain ⟨admitted, rest⟩ := Graph.replay_cons_eq_ok_iff.mp replayed
    exact ih (fits.after admitted) (mirrored.after_insertEntity admitted) rest
  | contain up edge _ ih =>
    obtain ⟨admitted, rest⟩ := Graph.replay_cons_eq_ok_iff.mp replayed
    exact ih (fits.after admitted) (mirrored.after_contain fits.suits admitted up edge) rest
  | release known into _ ih =>
    obtain ⟨admitted, rest⟩ := Graph.replay_cons_eq_ok_iff.mp replayed
    refine ih (fits.after admitted) (mirrored.after_release admitted fun rel found named => ?_) rest
    obtain ⟨writer, registered⟩ := fits.sound.registered found
    obtain rfl := Option.some.inj (registered.symm.trans known)
    exact into named
  | remove path _ ih =>
    obtain ⟨admitted, rest⟩ := Graph.replay_cons_eq_ok_iff.mp replayed
    exact ih (fits.after admitted) mirrored.after_leave rest

end Tidy

end Estate
