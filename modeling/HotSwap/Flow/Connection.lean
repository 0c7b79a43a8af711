/-
The graph of a dataflow.

* `Connection` — a queue from one component to another;
* `flowGraph` — the graph with the components as nodes and the connections as edges;
* `sources` — the components into which no other component feeds.
-/
import HotSwap.Flow.Graph

namespace HotSwap

/-- A queue between two components. -/
structure Connection where
  source : String
  destination : String
  deriving DecidableEq, Repr

/-- Whether a component feeds into itself. -/
def Connection.isSelfLoop (c : Connection) : Bool := c.source == c.destination

/-- The graph of a dataflow: first the components, then the connections with their ends. -/
def flowGraph (components : List String) (connections : List Connection) : Multigraph :=
  connections.foldl (fun g c => g.addEdge c.source c.destination)
    (components.foldl Multigraph.addNode {})

/-- The components that originate work: those into which all edges are self-loops.  They
keep the order, and the repetitions, of `components`. -/
def sources (components : List String) (connections : List Connection) : List String :=
  let graph := flowGraph components connections
  components.filter fun component => (graph.upstream component).all fun other => other == component

end HotSwap
