/-
Which components originate work.

The graph of a flow is built edge by edge, and also from ends that are no components.  What
counts in the end is only from where a connection leads into a component: a component is a
source if no connection leads into it from another one.

* `Multigraph.upstream_addEdge` — what one more edge does;
* `upstream_flowGraph` — the edges into a node of the graph are the connections into it;
* `Originates` — no connection leads into a component from another one;
* `sources_originates` — the sources are the components that originate work, whatever the
  connections are, and how they change with the connections.
-/
import HotSwap.Flow.Connection
import Mathlib.Data.List.Perm.Basic

namespace HotSwap

variable {components : List String} {connections connections' : List Connection}
  {c : Connection} {id : String}

/-! ### Tables -/

section

variable {β : Type} {f : Option β → β} {name other : String}

theorem lookup_alter_self (entries : List (String × β)) :
    (alter name f entries).lookup name = some (f (entries.lookup name)) := by
  induction entries with
  | nil => simp [alter]
  | cons entry entries ih =>
    obtain ⟨key, x⟩ := entry
    by_cases hkey : key = name
    · subst hkey
      simp [alter]
    · have hkey' : (name == key) = false := beq_false_of_ne (Ne.symm hkey)
      simp [alter, hkey, hkey', List.lookup_cons, ih]

theorem lookup_alter_of_ne (h : other ≠ name) (entries : List (String × β)) :
    (alter name f entries).lookup other = entries.lookup other := by
  induction entries with
  | nil => simp [alter, h]
  | cons entry entries ih =>
    obtain ⟨key, x⟩ := entry
    by_cases hkey : key = name
    · subst hkey
      simp [alter, List.lookup_cons, beq_false_of_ne h]
    · simp [alter, hkey, List.lookup_cons, ih]

theorem mem_keys_alter (entries : List (String × β)) :
    other ∈ (alter name f entries).map (·.1) ↔ other = name ∨ other ∈ entries.map (·.1) := by
  induction entries with
  | nil => simp [alter]
  | cons entry entries ih =>
    obtain ⟨key, x⟩ := entry
    by_cases hkey : key = name
    · subst hkey
      simp [alter]
    · simp only [alter, beq_eq_false_iff_ne.mpr hkey, Bool.false_eq_true, if_false, List.map_cons,
        List.mem_cons, ih]
      exact or_left_comm

end

/-! ### Graphs -/

namespace Multigraph

variable {g : Multigraph} {n tail head : String}

theorem mem_nodes_addNode : id ∈ (g.addNode n).nodes ↔ id = n ∨ id ∈ g.nodes :=
  mem_keys_alter g.into

theorem mem_nodes_addEdge :
    id ∈ (g.addEdge tail head).nodes ↔ id = head ∨ id = tail ∨ id ∈ g.nodes :=
  (mem_keys_alter (g.addNode tail).into).trans (or_congr_right mem_nodes_addNode)

/-- A node that is added, or was there before, has no edges more. -/
@[simp] theorem upstream_addNode : (g.addNode n).upstream id = g.upstream id := by
  by_cases hid : id = n
  · subst hid
    simp [upstream, addNode, lookup_alter_self]
  · simp [upstream, addNode, lookup_alter_of_ne hid]

/-- One more edge from a node is one more among those from there. -/
theorem expand_alter (tail : String) (edges : List (String × Nat)) :
    ((alter tail (fun k => k.getD 0 + 1) edges).flatMap fun e => List.replicate e.2 e.1).Perm
      (tail :: edges.flatMap fun e => List.replicate e.2 e.1) := by
  induction edges with
  | nil => simp [alter]
  | cons edge edges ih =>
    obtain ⟨key, k⟩ := edge
    by_cases hkey : key = tail
    · subst hkey
      simp [alter, List.replicate_succ]
    · simp only [alter, beq_eq_false_iff_ne.mpr hkey, Bool.false_eq_true, if_false,
        List.flatMap_cons]
      exact (ih.append_left _).trans List.perm_middle

/-- An edge leads into its head, and into no other node. -/
theorem upstream_addEdge :
    ((g.addEdge tail head).upstream id).Perm
      (if head = id then tail :: g.upstream id else g.upstream id) := by
  split
  · next hid =>
    subst hid
    have hadded := expand_alter tail (((g.addNode tail).into.lookup head).getD [])
    rw [← upstream_addNode (g := g) (n := tail)]
    simpa [upstream, addEdge, lookup_alter_self] using hadded
  · next hid =>
    rw [upstream, addEdge, lookup_alter_of_ne (Ne.symm hid), ← upstream,
      upstream_addNode]

end Multigraph

/-- The nodes are the components and the ends of connections. -/
theorem mem_nodes_flowGraph : id ∈ (flowGraph components connections).nodes ↔
    id ∈ components ∨ ∃ c ∈ connections, id = c.source ∨ id = c.destination := by
  have hcomponents : ∀ g : Multigraph,
      id ∈ (components.foldl Multigraph.addNode g).nodes ↔ id ∈ components ∨ id ∈ g.nodes := by
    induction components with
    | nil => simp
    | cons component components ih =>
      intro g
      rw [List.foldl_cons, ih, Multigraph.mem_nodes_addNode, List.mem_cons, or_left_comm, or_assoc]
  have hconnections : ∀ g : Multigraph,
      id ∈ (connections.foldl (fun g c => g.addEdge c.source c.destination) g).nodes ↔
        id ∈ g.nodes ∨ ∃ c ∈ connections, id = c.source ∨ id = c.destination := by
    induction connections with
    | nil => simp
    | cons c connections ih =>
      intro g
      rw [List.foldl_cons, ih, Multigraph.mem_nodes_addEdge]
      simp only [List.mem_cons, exists_eq_or_imp]
      generalize (∃ c ∈ connections, id = c.source ∨ id = c.destination) = later
      tauto
  rw [flowGraph, hconnections, hcomponents]
  simp [Multigraph.nodes]

/-- The connections that lead into a component. -/
def inbound (connections : List Connection) (component : String) : List Connection :=
  connections.filter fun c => c.destination == component

/-- The edges into a node are the connections into it, however the graph was built. -/
theorem upstream_flowGraph :
    ((flowGraph components connections).upstream id).Perm
      ((inbound connections id).map Connection.source) := by
  have hcomponents : ∀ g : Multigraph,
      (components.foldl Multigraph.addNode g).upstream id = g.upstream id := by
    induction components with
    | nil => exact fun _ => rfl
    | cons component components ih =>
      intro g
      rw [List.foldl_cons, ih, Multigraph.upstream_addNode]
  -- the induction is on the connections that are still to be added
  have hconnections : ∀ g : Multigraph,
      ((connections.foldl (fun g c => g.addEdge c.source c.destination) g).upstream id).Perm
        ((inbound connections id).map Connection.source ++ g.upstream id) := by
    induction connections with
    | nil => exact fun _ => .refl _
    | cons c connections ih =>
      intro g
      rw [List.foldl_cons]
      refine (ih _).trans ((Multigraph.upstream_addEdge.append_left _).trans ?_)
      by_cases hid : c.destination = id
      · simp [inbound, hid, List.perm_middle]
      · simp [inbound, hid]
  have hgraph := hconnections (components.foldl Multigraph.addNode {})
  rw [hcomponents] at hgraph
  simpa [flowGraph, Multigraph.upstream] using hgraph

/-! ### Sources -/

/-- No connection leads into the component from another one. -/
def Originates (connections : List Connection) (id : String) : Prop :=
  ∀ c ∈ connections, c.destination = id → c.source = id

instance (connections : List Connection) (id : String) : Decidable (Originates connections id) :=
  inferInstanceAs (Decidable (∀ c ∈ connections, c.destination = id → c.source = id))

theorem originates_iff_upstream (components : List String) : Originates connections id ↔
    ∀ other ∈ (flowGraph components connections).upstream id, other = id := by
  have hupstream : ∀ other, other ∈ (flowGraph components connections).upstream id ↔
      ∃ c ∈ connections, c.destination = id ∧ c.source = other := by
    intro other
    rw [upstream_flowGraph.mem_iff]
    simp [inbound, and_assoc]
  simp only [hupstream]
  exact ⟨fun h other ⟨c, hc, hdestination, hsource⟩ => hsource ▸ h c hc hdestination,
    fun h c hc hdestination => h _ ⟨c, hc, hdestination, rfl⟩⟩

theorem sources_eq (components : List String) (connections : List Connection) :
    sources components connections = components.filter fun id => Originates connections id := by
  refine List.filter_congr fun id _ => ?_
  rw [Bool.eq_iff_iff, List.all_eq_true, decide_eq_true_iff,
    originates_iff_upstream components]
  simp

/-- Only connections between two components count, and neither in which order they come nor
how often. -/
theorem originates_congr
    (h : ∀ c, c.isSelfLoop = false → (c ∈ connections' ↔ c ∈ connections)) :
    Originates connections' id ↔ Originates connections id := by
  have hone : ∀ {cs cs' : List Connection},
      (∀ c, c.isSelfLoop = false → (c ∈ cs' → c ∈ cs)) → Originates cs id → Originates cs' id := by
    intro cs cs' hsub horiginates c hc hdestination
    by_cases hloop : c.isSelfLoop
    · exact (beq_iff_eq.mp hloop).trans hdestination
    · exact horiginates c (hsub c (eq_false_of_ne_true hloop) hc) hdestination
  exact ⟨hone fun c hc => (h c hc).mpr, hone fun c hc => (h c hc).mp⟩

theorem sources_congr (h : ∀ c, c.isSelfLoop = false → (c ∈ connections' ↔ c ∈ connections)) :
    sources components connections' = sources components connections := by
  rw [sources_eq, sources_eq]
  exact List.filter_congr fun id _ => decide_eq_decide.mpr (originates_congr h)

/-- One more connection only keeps its destination from originating work. -/
theorem originates_cons : Originates (c :: connections) id ↔
    Originates connections id ∧ (c.isSelfLoop = true ∨ id ≠ c.destination) := by
  have hc : (c.destination = id → c.source = id) ↔ (c.isSelfLoop = true ∨ id ≠ c.destination) := by
    rw [Connection.isSelfLoop, beq_iff_eq]
    constructor
    · intro h
      by_cases hid : c.destination = id
      · exact .inl ((h hid).trans hid.symm)
      · exact .inr (Ne.symm hid)
    · rintro (hloop | hid) hdestination
      · exact hloop.trans hdestination
      · exact absurd hdestination.symm hid
  rw [Originates, List.forall_mem_cons, hc, and_comm]
  rfl

theorem sources_cons : sources components (c :: connections) =
    (sources components connections).filter fun id => c.isSelfLoop ∨ id ≠ c.destination := by
  rw [sources_eq, sources_eq, List.filter_filter]
  refine List.filter_congr fun id _ => ?_
  rw [Bool.eq_iff_iff]
  simp [originates_cons, and_comm]

/-- The sources are the components, in their order and with their repetitions, into which no
connection leads from another one.  They do not change when connections are reordered or
repeated or when self-loops are added; and any one connection more takes away its own
destination at most. -/
theorem sources_originates (components : List String) (connections : List Connection) :
    (∀ id ∈ components, id ∈ (flowGraph components connections).nodes) ∧
    sources components connections = components.filter (fun id => Originates connections id) ∧
    (∀ connections', connections'.Perm connections →
      sources components connections' = sources components connections) ∧
    (∀ again, again ⊆ connections →
      sources components (again ++ connections) = sources components connections) ∧
    (∀ loops : List Connection, (∀ c ∈ loops, c.isSelfLoop = true) →
      sources components (loops ++ connections) = sources components connections) ∧
    ∀ (c : Connection) (before after : List Connection), connections = before ++ after →
      sources components (before ++ c :: after) =
        (sources components connections).filter fun id => c.isSelfLoop ∨ id ≠ c.destination := by
  refine ⟨fun id hid => mem_nodes_flowGraph.mpr (.inl hid), sources_eq .., ?_, ?_, ?_, ?_⟩
  · exact fun connections' hperm => sources_congr fun c _ => hperm.mem_iff
  · intro again hagain
    refine sources_congr fun c _ => ?_
    rw [List.mem_append, or_iff_right_of_imp (@hagain c)]
  · intro loops hloops
    refine sources_congr fun c hc => ?_
    rw [List.mem_append, or_iff_right_of_imp fun hmem => ?_]
    exact absurd (hloops c hmem) (Bool.not_eq_true _ ▸ hc)
  · rintro c before after rfl
    rw [← sources_cons]
    exact sources_congr fun c' _ => List.perm_middle.mem_iff

/-- Components of which one is listed twice, in a cycle with self-loops, parallel connections
and an end that is no component. -/
theorem sources_originates_cycle :
    let connections : List Connection := [⟨"a", "a"⟩, ⟨"port", "b"⟩, ⟨"port", "b"⟩, ⟨"b", "c"⟩,
      ⟨"c", "b"⟩]
    sources ["a", "b", "a", "c", "d"] connections = ["a", "a", "d"] ∧
    sources ["a", "b", "a", "c", "d"] (connections ++ [⟨"d", "a"⟩]) = ["d"] := by
  refine ⟨(sources_originates _ _).2.1.trans (by decide), ?_⟩
  exact ((sources_originates _ _).2.2.2.2.2 _ _ [] (List.append_nil _).symm).trans (by decide)

end HotSwap
