import Estate.Proofs.Store.Consistency

namespace Estate

namespace Graph

variable {graph middle : Graph} {rel twin : Relationship} {earlier : List Change} {id : String}

theorem WellFormed.apply_twin (wellFormed : graph.WellFormed)
    (found : graph.relationships.find? id = some twin) (same : twin.edge = rel.edge)
    (reserved : Reserved.isReserved rel.name) :
    graph.apply (.insertRelationship rel) =
      .error (.relationshipExists rel.source rel.name rel.target) := by
  have taken : (graph.between? rel.source rel.target rel.name).isSome := by
    rw [Option.isSome_iff_ne_none]
    intro free
    exact wellFormed.between?_eq_none_iff.mp free id twin found same
  have stored : graph.missingEnd? rel = none := by
    rw [missingEnd?_eq_none_iff]
    have ends := wellFormed.ends found
    simp only [Relationship.edge, Edge.mk.injEq] at same
    rwa [same.2.1, same.2.2] at ends
  simp [apply, insertRelationship, stored, reserved, taken]

theorem WellFormed.replay_twin (wellFormed : middle.WellFormed)
    (replayed : graph.replay earlier = .ok middle)
    (found : middle.relationships.find? id = some twin) (same : twin.edge = rel.edge)
    (reserved : Reserved.isReserved rel.name) (later : List Change) :
    graph.replay (earlier ++ .insertRelationship rel :: later) =
      .error (.relationshipExists rel.source rel.name rel.target) := by
  rw [replay_append replayed, replay, wellFormed.apply_twin found same reserved]

end Graph

namespace Traffic

/-- As long as no id is given to two relationships, a reserved name holds at most once per ordered
pair, in the committed graph and in every working graph. A log that comes to insert a twin, on what
is committed when it is to be committed itself, ends in a conflict over it and leaves the store as
it was. -/
theorem no_reserved_twins (ids : IdSource) (calls : List Call)
    (distinct : ((start ids).related calls).Nodup) :
    let traffic := (start ids).run calls
    traffic.store.committed.Exclusive ∧
      ∀ number tx, traffic.underway.find? number = some tx →
        tx.working.Exclusive ∧
        ∀ earlier rel later middle id twin, tx.log = earlier ++ .insertRelationship rel :: later →
          traffic.store.committed.replay earlier = .ok middle →
          middle.relationships.find? id = some twin → twin.edge = rel.edge →
          Reserved.isReserved rel.name →
          traffic.store.commit tx =
            .error (.conflict (.relationshipExists rel.source rel.name rel.target)) ∧
            (traffic.step (.commit number)).store = traffic.store := by
  obtain ⟨registry, -, consistent, -⟩ :=
    (consistent_start ids).run (faithful_run ids []) calls distinct fun id new => rfl
  refine ⟨consistent.committed.exclusive,
    fun number tx present => ⟨(consistent.working present).exclusive, ?_⟩⟩
  intro earlier rel later middle id twin logged replayed found same reserved
  have wellFormed : middle.WellFormed := by
    have fits := consistent.fits present
    rw [logged] at fits
    exact (fits.rest replayed).sound.toWellFormed
  have refused := wellFormed.replay_twin replayed found same reserved later
  have lost : ((start ids).run calls).store.commit tx =
      .error (.conflict (.relationshipExists rel.source rel.name rel.target)) := by
    have wrote : tx.log ≠ [] := by simp [logged]
    rw [Store.commit_eq_replay (faithful_run ids calls number tx present) wrote, logged, refused]
  exact ⟨lost, by simp [Traffic.step, present, settled, lost]⟩

def owning (id : String) : Relationship where
  id := id
  name := Reserved.owns.name
  source := ⟨_, legal_left⟩
  target := ⟨_, legal_right⟩

/-- It does so in two transactions on one snapshot, of which one is committed. -/
def rivals : List Call :=
  let left := (owning "").source
  let right := (owning "").target
  let own : Act := .relate (.entity left) (.entity right) Reserved.owns.name ∅
  [.begin .readWrite, .act 1 (.persist left { id := none, details := .tenant }),
    .act 1 (.persist right { id := none, details := .tenant }), .commit 1,
    .begin .readWrite, .begin .readWrite, .act 2 own, .act 3 own, .commit 2]

theorem rivals_leave_no_twins :
    ((start .counter).related rivals).Nodup ∧
      ((start .counter).run rivals).store.committed.Exclusive ∧
      ∃ tx why, ((start .counter).run rivals).underway.find? 3 = some tx ∧ tx.working.Exclusive ∧
        ((start .counter).run rivals).store.commit tx = .error (.conflict why) ∧
        (((start .counter).run rivals).step (.commit 3)).store =
          ((start .counter).run rivals).store := by
  have distinct : ((start .counter).related rivals).Nodup := by decide +kernel
  obtain ⟨tx, present⟩ : ∃ tx, ((start .counter).run rivals).underway.find? 3 = some tx := ⟨_, rfl⟩
  obtain ⟨committed, apart⟩ := no_reserved_twins .counter rivals distinct
  obtain ⟨working, refused⟩ := apart 3 tx present
  have logged : tx.log = [] ++ .insertRelationship (owning (IdSource.counterName 2)) :: [] := by
    obtain rfl := Option.some.inj present
    rfl
  have stored : ((start .counter).run rivals).store.committed.relationships.find?
      (IdSource.counterName 1) =
      some (owning (IdSource.counterName 1)) := rfl
  obtain ⟨lost, kept⟩ := refused [] _ [] _ _ _ logged rfl stored rfl (by decide)
  exact ⟨distinct, committed, tx, _, present, working, lost, kept⟩

end Traffic

end Estate
