import Estate.Proofs.Graph.Independence
import Estate.Proofs.Store.Replay

/-!
Commits that can change places. Of two transactions that began on what is committed and whose logs
are independent, either can be committed first: the other is then replayed on a graph that it never
saw, and both orders come to the same.
-/
namespace Estate

variable {traffic : Traffic} {tx : Transaction} {draft : Draft} {log : List Change}

namespace Graph

variable {graph : Graph}

theorem keepsEdges_of_plain (plain : ∀ change ∈ log, ∀ rel, change ≠ .replaceRelationship rel) :
    graph.KeepsEdges log := by
  induction log generalizing graph with
  | nil => trivial
  | cons change rest ih =>
    refine ⟨fun rel replaces => absurd replaces (plain change List.mem_cons_self rel), ?_⟩
    exact ih fun later member => plain later (List.mem_cons_of_mem _ member)

theorem KeepsEdges.begun {rest : List Change} (kept : graph.KeepsEdges (log ++ rest)) :
    graph.KeepsEdges log := by
  induction log generalizing graph with
  | nil => trivial
  | cons change log ih => exact ⟨kept.1, ih kept.2⟩

theorem Keyed.keepsEdge_replacement (keyed : graph.Keyed) {handle : Handle} {old revised : Element}
    {revision : Update} (found : graph.element? handle = some old)
    (success : old.revise revision = .ok revised) :
    graph.KeepsEdge revised.replacement := by
  intro rel replaces other stored
  cases handle with
  | entity path =>
    obtain ⟨entity, -, rfl⟩ := Option.map_eq_some_iff.mp found
    obtain ⟨next, -, rfl⟩ := Element.revise_entity_eq_ok_iff.mp success
    cases replaces
  | relationship id =>
    obtain ⟨before, present, rfl⟩ := Option.map_eq_some_iff.mp found
    obtain ⟨next, revises, rfl⟩ := Element.revise_relationship_eq_ok_iff.mp success
    obtain rfl : next = rel := Change.replaceRelationship.inj replaces
    rw [Relationship.id_revise revises, keyed.relationship present, present] at stored
    rw [Relationship.edge_revise revises, Option.some.inj stored]

end Graph

namespace Act

/-- Only an update replaces anything, and it keeps the edge of what it replaces. -/
theorem changes_keepsEdges (act : Act) (keyed : draft.tx.working.Keyed) :
    draft.tx.working.KeepsEdges (act.changes draft) := by
  cases act with
  | read reading | draw => trivial
  | persist path blueprint =>
    apply Graph.keepsEdges_of_plain
    intro change member rel
    simp only [changes] at member
    split at member
    · obtain rfl := List.mem_singleton.mp member
      simp
    · cases member
  | relate source target name properties =>
    cases source <;> cases target <;> exact Graph.keepsEdges_of_plain (by simp [changes])
  | update handle revision =>
    cases planned : (update handle revision).changes draft with
    | nil => trivial
    | cons change rest =>
      have member : change ∈ (update handle revision).changes draft := planned ▸ List.mem_cons_self
      obtain ⟨old, revised, found, success, rfl⟩ := mem_changes_update.mp member
      have single : rest = [] := by
        simp only [changes] at planned
        split at planned <;> simp_all
      subst single
      exact ⟨keyed.keepsEdge_replacement found success, trivial⟩
  | delete handle =>
    apply Graph.keepsEdges_of_plain
    intro change member rel
    rcases removal_of_mem_changes_delete member with ⟨path, rfl⟩ | ⟨id, rfl⟩ <;> simp

end Act

namespace Store

variable {store : Store}

/-- A transaction whose log can be replayed is committed, and leaves what the replay does. -/
theorem commit_of_replay {graph : Graph} (current : tx.Current store)
    (replayed : store.committed.replay tx.log = .ok graph) :
    ∃ next, store.commit tx = .ok next ∧ next.committed = graph ∧
      ∀ other : Transaction, other.Current store → other.Current next := by
  by_cases idle : tx.log = []
  · rw [idle] at replayed
    obtain rfl := Except.ok.inj replayed
    exact ⟨store, commit_idle idle, rfl, fun _ standing => standing⟩
  · refine ⟨store.advance graph, ?_, rfl, fun _ standing => standing.advance graph⟩
    rw [commit_eq_replay current idle, replayed]

end Store

namespace Traffic

/-- Every transaction that began on what is committed keeps the edges of what it replaces. -/
structure Steady (traffic : Traffic) : Prop where
  keyed : traffic.store.committed.Keyed
  kept : ∀ {number tx}, traffic.underway.find? number = some tx →
    tx.baseVersion = traffic.store.version →
    traffic.store.committed.KeepsEdges tx.log

theorem steady_start (ids : IdSource) : (start ids).Steady where
  keyed := .empty
  kept present := nomatch present

theorem Steady.step (steady : traffic.Steady) (faithful : traffic.Faithful) (call : Call) :
    (traffic.step call).Steady where
  keyed := steady.keyed.replay (faithful.replay_won call)
  kept {other next} found current := by
    cases call with
    | begin access =>
      rw [underway_begin] at found
      split at found
      · obtain rfl := Option.some.inj found
        trivial
      · exact steady.kept found current
    | act number act =>
      cases present : traffic.underway.find? number with
      | none =>
        simp only [Traffic.step, present] at found current ⊢
        exact steady.kept found current
      | some tx =>
        have same : (traffic.step (.act number act)).store = traffic.store := by
          simp [Traffic.step, present]
        rw [same] at current ⊢
        rw [underway_act present, Act.run_eq] at found
        split at found
        · obtain rfl := Option.some.inj found
          obtain ⟨written, ⟨rest, begun⟩, wrote⟩ := tx.attempt_wrote (act.changes ⟨tx, traffic.ids⟩)
          have based : tx.baseVersion = traffic.store.version := wrote.baseVersion ▸ current
          have replayed := (faithful number tx present).replayed based
          have planned :=
            @Act.changes_keepsEdges ⟨tx, traffic.ids⟩ act (steady.keyed.replay replayed)
          rw [wrote.log, Graph.keepsEdges_append_iff replayed]
          exact ⟨steady.kept present based, Graph.KeepsEdges.begun (begun ▸ planned)⟩
        · exact steady.kept found current
    | commit number =>
      rw [underway_commit] at found
      split at found
      · cases found
      · cases present : traffic.underway.find? number with
        | none =>
          simp only [Traffic.step, present] at current ⊢
          exact steady.kept found current
        | some tx =>
          simp only [Traffic.step, present] at current ⊢
          rcases settled_cases (faithful number tx present) with same | ⟨graph, -, moved⟩
          · rw [same] at current ⊢
            exact steady.kept found current
          · -- nothing under way began on what was committed just now
            have based := (faithful other next found).based
            rw [moved] at current
            simp only [Store.advance] at current
            omega
    | rollback number =>
      rw [underway_rollback] at found
      split at found
      · cases found
      · exact steady.kept found current

theorem steady_run (ids : IdSource) (calls : List Call) : ((start ids).run calls).Steady :=
  (@run_induction (start ids) (fun traffic => traffic.Faithful ∧ traffic.Steady)
    ⟨faithful_run ids [], steady_start ids⟩
    (fun _ call both => ⟨both.1.step call, both.2.step both.1 call⟩) calls).2

/-- Two transactions that began on what is committed, and whose logs are independent, are both
committed in either order. What is committed in the end is the same, but for the order in which ids
are noted at an entity. -/
theorem independent_commits_interchange (ids : IdSource) (calls : List Call) {first second : Nat}
    {tx other : Transaction} (present : ((start ids).run calls).underway.find? first = some tx)
    (present' : ((start ids).run calls).underway.find? second = some other)
    (current : tx.baseVersion = ((start ids).run calls).store.version)
    (current' : other.baseVersion = ((start ids).run calls).store.version)
    (independent : Independent tx.log other.log) :
    let store := ((start ids).run calls).store
    ∃ one two one' two' : Store,
      store.commit tx = .ok one ∧ one.commit other = .ok two ∧
      store.commit other = .ok one' ∧ one'.commit tx = .ok two' ∧
      two.committed.Alike two'.committed := by
  intro store
  have faithful := faithful_run ids calls
  have steady := steady_run ids calls
  have standing := faithful first tx present
  have standing' := faithful second other present'
  obtain ⟨last, last', replayed, replayed', alike⟩ := Graph.replay_interchange independent
    (steady.kept present current) (steady.kept present' current') (standing.replayed current)
      (standing'.replayed current')
  obtain ⟨one, committed, same, stands⟩ :=
    Store.commit_of_replay standing (standing.replayed current)
  obtain ⟨one', committed', same', stands'⟩ :=
    Store.commit_of_replay standing' (standing'.replayed current')
  obtain ⟨two, second, rfl, -⟩ := Store.commit_of_replay (stands other standing') (same ▸ replayed)
  obtain ⟨two', second', rfl, -⟩ := Store.commit_of_replay (stands' tx standing) (same' ▸ replayed')
  exact ⟨one, two, one', two', committed, second, committed', second', alike⟩

def top : Path := ⟨[⟨.tenant, "top"⟩], Path.legal_tenant (by decide)⟩

def environment (id : String) (valid : ValidId id) : Path :=
  ⟨top.segments ++ [⟨.environment, id⟩], Path.legal_append valid List.mem_cons_self⟩

def siblings : List Call :=
  let enter (path : Path) : Act := .persist path { id := none, details := .environment }
  let contain (path : Path) : Act := .relate (.entity top) (.entity path) Reserved.contains.name ∅
  let old := environment "old" (by decide)
  let left := environment "left" (by decide)
  let right := environment "right" (by decide)
  [.begin .readWrite, .act 1 (.persist top { id := none, details := .tenant }), .act 1 (enter old),
    .act 1 (contain old), .commit 1, .begin .readWrite, .begin .readWrite, .act 2 (enter left),
    .act 3 (.delete (.entity old)), .act 2 (contain left), .act 3 (enter right),
    .act 3 (contain right)]

theorem siblings_interchange :
    ∃ tx other : Transaction, ∃ one two one' two' : Store,
      ((start .counter).run siblings).underway.find? 2 = some tx ∧
      ((start .counter).run siblings).underway.find? 3 = some other ∧
      tx.baseVersion = ((start .counter).run siblings).store.version ∧
      other.baseVersion = ((start .counter).run siblings).store.version ∧
      tx.log.length = 2 ∧ other.log.length = 4 ∧ Independent tx.log other.log ∧
      ((start .counter).run siblings).store.commit tx = .ok one ∧ one.commit other = .ok two ∧
      ((start .counter).run siblings).store.commit other = .ok one' ∧ one'.commit tx = .ok two' ∧
      two.committed.Alike two'.committed := by
  obtain ⟨tx, present⟩ : ∃ tx, ((start .counter).run siblings).underway.find? 2 = some tx :=
    ⟨_, rfl⟩
  obtain ⟨other, present'⟩ : ∃ other, ((start .counter).run siblings).underway.find? 3 =
      some other := ⟨_, rfl⟩
  have facts : tx.baseVersion = ((start .counter).run siblings).store.version ∧
      other.baseVersion = ((start .counter).run siblings).store.version ∧
      tx.log.length = 2 ∧ other.log.length = 4 ∧ Independent tx.log other.log := by
    obtain rfl := Option.some.inj present
    obtain rfl := Option.some.inj present'
    decide +kernel
  obtain ⟨current, current', wrote, wrote', independent⟩ := facts
  obtain ⟨one, two, one', two', committed⟩ :=
    independent_commits_interchange .counter siblings present present' current current' independent
  exact ⟨tx, other, one, two, one', two', present, present', current, current', wrote, wrote',
    independent, committed⟩

end Traffic

end Estate
