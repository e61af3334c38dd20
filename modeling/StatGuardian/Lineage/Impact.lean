import StatGuardian.Library.Worklist
import StatGuardian.Lineage.Model

namespace StatGuardian.Lineage

open Worklist

namespace LineageGraph

variable (graph : LineageGraph)

/-- The graph of the edges, whether or not there are nodes of their ids. -/
def dependencies : EdgeList String LineageEdge where
  edges := graph.edges
  source := LineageEdge.sourceNodeId
  target := LineageEdge.targetNodeId

def getDownstream (sourceNodeId : String) : List String :=
  (graph.edges.filter fun e => e.sourceNodeId = sourceNodeId).map LineageEdge.targetNodeId

/-- The `Vec` of the queue gives back its last item first. -/
def getImpactChain (targetNodeId : String) : List String :=
  search lifo graph.dependencies (.start targetNodeId)

def Feeds (a b : String) : Prop := ∃ e ∈ graph.edges, e.sourceNodeId = a ∧ e.targetNodeId = b

def Affects : String → String → Prop := Relation.ReflTransGen graph.Feeds

theorem successors_dependencies (a : String) :
    graph.dependencies.successors a = graph.getDownstream a := rfl

theorem adj_dependencies : graph.dependencies.Adj = graph.Feeds := by
  funext a b
  refine propext ?_
  simp only [EdgeList.Adj, successors_dependencies, getDownstream, Feeds, List.mem_map,
    List.mem_filter, decide_eq_true_eq, and_assoc]

end LineageGraph

namespace Py

/-- `LineageGraph.get_impact_chain` of `_lineage.py`, which takes the first item of its queue. -/
def getImpactChain (graph : LineageGraph) (targetNodeId : String) : List String :=
  search fifo graph.dependencies (.start targetNodeId)

end Py

/-- The chain lists the reachable ids once each, from the start on. -/
structure ImpactChain (graph : LineageGraph) (start : String) (chain : List String) : Prop where
  distinct : chain.Nodup
  first : chain.head? = some start
  exact_ : ∀ id, id ∈ chain ↔ graph.Affects start id

theorem search_impactChain (d : Discipline String) (graph : LineageGraph) (start : String) :
    ImpactChain graph start (search d graph.dependencies (.start start)) := by
  obtain ⟨distinct, first, reachable⟩ := search_spec d graph.dependencies start
  rw [graph.adj_dependencies] at reachable
  exact ⟨distinct, first, reachable⟩

/-- Both implementations return the ids that the start affects. -/
theorem impactChain_reachable (graph : LineageGraph) (start : String) :
    ImpactChain graph start (graph.getImpactChain start) ∧
      ∀ other : LineageGraph, other.edges = graph.edges →
        ImpactChain other start (Py.getImpactChain other start) ∧
          ∀ id, id ∈ Py.getImpactChain other start ↔ id ∈ graph.getImpactChain start := by
  have rust : ImpactChain graph start (graph.getImpactChain start) :=
    search_impactChain lifo graph start
  refine ⟨rust, fun other same => ?_⟩
  have python : ImpactChain other start (Py.getImpactChain other start) :=
    search_impactChain fifo other start
  have affects : other.Affects = graph.Affects := by
    unfold LineageGraph.Affects LineageGraph.Feeds
    rw [same]
  refine ⟨python, fun id => ?_⟩
  rw [python.exact_, rust.exact_, affects]

end StatGuardian.Lineage
