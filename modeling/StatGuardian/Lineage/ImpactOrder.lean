import StatGuardian.Library.BreadthFirst
import StatGuardian.Lineage.Impact

namespace StatGuardian.Lineage

open Worklist

namespace LineageGraph

variable (graph : LineageGraph)

def getUpstream (targetNodeId : String) : List String :=
  (graph.edges.filter fun e => e.targetNodeId = targetNodeId).map LineageEdge.sourceNodeId

def AffectsWithin (start : String) : ℕ → String → Prop
  | 0, id => id = start
  | hops + 1, id => AffectsWithin start hops id ∨
      ∃ source, AffectsWithin start hops source ∧ graph.Feeds source id

theorem mem_getUpstream (source id : String) :
    source ∈ graph.getUpstream id ↔ graph.Feeds source id := by
  simp only [getUpstream, Feeds, List.mem_map, List.mem_filter, decide_eq_true_eq]
  constructor
  · rintro ⟨e, ⟨member, target⟩, same⟩
    exact ⟨e, member, same, target⟩
  · rintro ⟨e, member, same, target⟩
    exact ⟨e, ⟨member, target⟩, same⟩

theorem mem_getUpstream_iff (source id : String) :
    source ∈ graph.getUpstream id ↔ id ∈ graph.getDownstream source := by
  rw [mem_getUpstream, ← graph.adj_dependencies, EdgeList.Adj, successors_dependencies]

theorem within_dependencies (start : String) (hops : ℕ) (id : String) :
    Within graph.dependencies start hops id ↔ graph.AffectsWithin start hops id := by
  induction hops generalizing id with
  | zero => rfl
  | succ hops ih => simp only [Within, AffectsWithin, ih, graph.adj_dependencies]

end LineageGraph

/-- For every number of hops, the Python chain begins with just the nodes within it. -/
theorem impactChain_levels (graph : LineageGraph) (start : String) (hops : ℕ) :
    ∃ k, ∀ id, id ∈ (Py.getImpactChain graph start).take k ↔
      graph.AffectsWithin start hops id := by
  obtain ⟨k, taken⟩ := search_fifo_levels graph.dependencies start hops
  refine ⟨k, fun id => ?_⟩
  rw [← graph.within_dependencies]
  exact taken id

/-- Every id but the first stands after one of its upstream tables. -/
def AfterUpstream (graph : LineageGraph) (chain : List String) : Prop :=
  ∀ before id after, chain = before ++ id :: after → before ≠ [] →
    ∃ source ∈ before, source ∈ graph.getUpstream id

theorem search_afterUpstream (d : Discipline String) (graph : LineageGraph) (start : String) :
    AfterUpstream graph (search d graph.dependencies (.start start)) := by
  intro before id after split some_
  obtain ⟨source, listed, edge⟩ := search_fed d graph.dependencies start before id after split some_
  rw [graph.adj_dependencies, ← graph.mem_getUpstream] at edge
  exact ⟨source, listed, edge⟩

/-- Both implementations list a table only once something that feeds it is listed. -/
theorem impactChain_afterUpstream (graph : LineageGraph) (start : String) :
    AfterUpstream graph (graph.getImpactChain start) ∧
      AfterUpstream graph (Py.getImpactChain graph start) :=
  ⟨search_afterUpstream lifo graph start, search_afterUpstream fifo graph start⟩

end StatGuardian.Lineage
