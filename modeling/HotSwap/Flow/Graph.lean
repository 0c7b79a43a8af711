/-
Directed multigraphs, built node by node and edge by edge.

* `alter` — changes the entry of a name in a table, or makes one;
* `Multigraph` — a table of the nodes with the edges that lead into each;
* `Multigraph.addNode`, `Multigraph.addEdge` — the steps in which a graph is built;
* `Multigraph.upstream` — where the edges into a node come from.

Design notes: an edge brings its ends along, so that a graph can have nodes that were never
added by themselves.
-/
namespace HotSwap

/-- Changes the entry of a name in a table; a name without an entry gets one at the end. -/
def alter {β : Type} (name : String) (f : Option β → β) : List (String × β) → List (String × β)
  | [] => [(name, f none)]
  | (other, x) :: rest =>
    if other == name then (other, f (some x)) :: rest else (other, x) :: alter name f rest

/-- A directed graph that may have several edges between two nodes. -/
structure Multigraph where
  /-- The nodes, in the order in which they came; for each, the nodes from which edges lead
  into it, with the number of those edges. -/
  into : List (String × List (String × Nat)) := []

namespace Multigraph

/-- The nodes, in the order in which they came. -/
def nodes (g : Multigraph) : List String := g.into.map (·.1)

/-- Adds a node, if it is not there. -/
def addNode (g : Multigraph) (n : String) : Multigraph where
  into := alter n (·.getD []) g.into

/-- Adds an edge, and the nodes at its ends. -/
def addEdge (g : Multigraph) (tail head : String) : Multigraph where
  into := alter head (fun edges => alter tail (fun k => k.getD 0 + 1) (edges.getD []))
    (g.addNode tail).into

/-- Where the edges into a node come from, each as often as there are edges. -/
def upstream (g : Multigraph) (n : String) : List String :=
  ((g.into.lookup n).getD []).flatMap fun edges => List.replicate edges.2 edges.1

end Multigraph
end HotSwap
