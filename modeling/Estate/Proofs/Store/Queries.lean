import Estate.Proofs.Graph.Meaning
import Estate.Proofs.Store.Consistency

namespace Estate.Traffic

/-- The graphs there are to ask: the committed one and every one that is worked on. -/
def Offers (traffic : Traffic) (graph : Graph) : Prop :=
  graph = traffic.store.committed ∨ ∃ number tx, traffic.underway.find? number = some tx ∧
    graph = tx.working

variable {traffic : Traffic} {graph : Graph}

theorem Consistent.wellFormed {registry : Registry} (consistent : traffic.Consistent registry)
    (offered : traffic.Offers graph) : graph.WellFormed := by
  rcases offered with rfl | ⟨number, tx, present, rfl⟩
  · exact consistent.committed.toWellFormed
  · exact (consistent.working present).toWellFormed

/-- As long as no id is given to two relationships, a query finds what it makes of all that is
stored, in ascending order and each path once, in whatever order the stored entities are gone
through. -/
theorem evaluate_as_meant (ids : IdSource) (calls : List Call)
    (distinct : ((start ids).related calls).Nodup) {graph : Graph}
    (offered : ((start ids).run calls).Offers graph) (query : Query) :
    ((graph.evaluate query).Pairwise fun a b => compare a b = .lt) ∧
      (∀ path, path ∈ graph.evaluate query ↔ path ∈ graph.image graph.stored query) ∧
      ∀ starts : List Path, starts.Perm graph.entities.keys →
        Graph.ascending (graph.walk starts query) = graph.evaluate query := by
  obtain ⟨registry, -, consistent, -⟩ :=
    (consistent_start ids).run (faithful_run ids []) calls distinct fun id new => rfl
  have wellFormed := consistent.wellFormed offered
  exact ⟨graph.evaluate_pairwise query, fun path => Graph.mem_evaluate_iff_mem_image wellFormed,
    fun starts reordered => Graph.ascending_walk_of_perm query reordered⟩

/-- Of those who know someone or are known: whoever knows themselves, being the one on the left, and
whoever on the right is known by one of them. -/
def acquaintances : Query :=
  let left : Path := ⟨_, legal_left⟩
  let right : Path := ⟨_, legal_right⟩
  .mk [⟨.path, .kind .tenant⟩, ⟨.path, .hop "knows" .both⟩]
    [.line .filter [.id "left",
      .related { name := "knows", direction := .incoming, otherEnd := some left }],
      .line .path [.hopTo "knows" right]]

theorem acquaintances_as_meant :
    let left : Path := ⟨_, legal_left⟩
    let right : Path := ⟨_, legal_right⟩
    let graph := ((start .counter).run crossing).store.committed
    ((start .counter).related crossing).Nodup ∧ graph.evaluate acquaintances = [left, right] ∧
      right ∈ graph.image graph.stored acquaintances ∧
      Graph.ascending (graph.walk [right, left] acquaintances) = [left, right] := by
  intro left right graph
  have distinct : ((start .counter).related crossing).Nodup := by decide +kernel
  have found : graph.evaluate acquaintances = [left, right] := by decide +kernel
  have reordered : [right, left].Perm graph.entities.keys := by decide +kernel
  obtain ⟨-, meant, unordered⟩ :=
    evaluate_as_meant .counter crossing distinct (.inl rfl) acquaintances
  exact ⟨distinct, found, (meant right).mp (found ▸ by simp), (unordered _ reordered).trans found⟩

end Estate.Traffic
