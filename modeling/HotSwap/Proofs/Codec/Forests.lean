/-
Depths of the leaves of joined trees.

Which trees are joined first decides how short the codes are, not whether there are enough of
them: whatever the heap gives up, each join makes one leaf into two that are deeper by one.  Where
the depth is cut at a limit, each pair of nodes that is cut takes one code too many.

* `Forest.roots`, `Forest.Rearranged` — the heap only changes the order of the trees that wait;
* `Forest.Joined` — what a join does to the trees that wait;
* `Levelled` — the room that the leaves of a tree take, and the nodes that were cut;
* `Forest.Sound.grown` — what is known of the tree in the end.
-/
import Mathlib.Algebra.BigOperators.Group.List.Lemmas
import Mathlib.Data.List.Perm.Basic
import HotSwap.Codec.Deflate.CodeLengths
import HotSwap.Proofs.Codec.Bits

namespace HotSwap.Codec.Deflate

variable {f f' : Forest} {node fuel k limit elements : Nat} {front rest rs : List Nat}
  {acc : Array Nat × Nat}

namespace Forest

/-! ### The heap -/

/-- The roots that wait, in the order of the heap. -/
def roots (f : Forest) : List Nat := (f.heap.toList.drop 1).take f.size

/-- The heap was changed so that these roots wait, and nothing else. -/
structure Rearranged (f : Forest) (rs : List Nat) (f' : Forest) : Prop where
  perm : f'.roots.Perm rs
  size_eq : f'.size = f.size
  heap_size : f'.heap.size = f.heap.size
  parent_eq : f'.parent = f.parent
  taken_eq : f'.taken = f.taken

theorem length_roots (h : f.size < f.heap.size) : f.roots.length = f.size := by
  simp [roots]
  omega

theorem getElem?_roots (h : f.size < f.heap.size) (hk : k < f.size) :
    f.roots[k]? = some (f.root (k + 1)) := by
  rw [roots, List.getElem?_take_of_lt hk, List.getElem?_drop, Nat.add_comm, root,
    Array.getD_eq_getD_getElem?, Array.getElem?_toList, Array.getElem?_eq_getElem (by omega)]
  rfl

theorem roots_set (f : Forest) (k x : Nat) :
    ({ f with heap := f.heap.setIfInBounds (k + 1) x } : Forest).roots = f.roots.set k x := by
  rw [roots, Array.toList_setIfInBounds, List.drop_set, if_neg (by omega), Nat.add_sub_cancel,
    List.take_set]
  rfl

/-- An entry that moves to another place leaves its own place to what goes there. -/
theorem set_move_perm {l : List Nat} {a b y : Nat} (x : Nat) (hab : a ≠ b)
    (ha : a < l.length) (hb : l[b]? = some y) : ((l.set a y).set b x).Perm (l.set a x) := by
  obtain ⟨hlt, rfl⟩ := List.getElem?_eq_some_iff.mp hb
  have h := List.set_set_perm (show a < (l.set a x).length by simpa)
    (show b < (l.set a x).length by simpa)
  simpa [hab, List.getElem_set_ne hab] using h

/-- What sinks takes the place that it starts from, whichever roots rise before it. -/
theorem sink_rearranged (h : f.size < f.heap.size) (node fuel : Nat) (hk : k < f.size) :
    f.Rearranged (f.roots.set k node) (f.sink node fuel (k + 1)) := by
  have hdone : f.Rearranged (f.roots.set k node)
      { f with heap := f.heap.setIfInBounds (k + 1) node } :=
    ⟨(roots_set f k node) ▸ .refl _, rfl, by simp, rfl, rfl⟩
  induction fuel generalizing f k with
  | zero => exact hdone
  | succ fuel ih =>
    rw [sink]
    split
    · exact hdone
    · next hchild =>
      generalize hj : (if 2 * (k + 1) < f.size && f.before (f.root (2 * (k + 1) + 1))
        (f.root (2 * (k + 1))) then 2 * (k + 1) + 1 else 2 * (k + 1)) = j
      obtain ⟨j, rfl⟩ : ∃ i, j = i + 1 := ⟨j - 1, by subst hj; split <;> omega⟩
      have hkj : k < j ∧ j < f.size := by
        split at hj
        · next hright =>
          simp only [Bool.and_eq_true, decide_eq_true_eq] at hright
          omega
        · omega
      dsimp only
      split
      · exact hdone
      · set g : Forest := { f with heap := f.heap.setIfInBounds (k + 1) (f.root (j + 1)) } with hg
        have hroots : g.roots = f.roots.set k (f.root (j + 1)) := roots_set ..
        have hsize : g.heap.size = f.heap.size := by simp [hg]
        have hrest := ih (f := g) (hsize ▸ h) hkj.2
          ⟨(roots_set g j node) ▸ .refl _, rfl, by simp, rfl, rfl⟩
        have hmove := set_move_perm node (Nat.ne_of_lt hkj.1) (by rwa [length_roots h])
          (getElem?_roots h hkj.2)
        exact ⟨hrest.perm.trans (hroots ▸ hmove), hrest.size_eq, hrest.heap_size.trans hsize,
          hrest.parent_eq, hrest.taken_eq⟩

theorem settle_rearranged (h : f.size < f.heap.size) (hk : k < f.size) :
    f.Rearranged f.roots (f.settle (k + 1)) := by
  have hsink := sink_rearranged h (f.root (k + 1)) f.heap.size hk
  obtain ⟨_, hget⟩ := List.getElem?_eq_some_iff.mp (getElem?_roots h hk)
  rwa [← hget, List.set_getElem_self, hget] at hsink

theorem settleAll_rearranged (h : f.size < f.heap.size) (hk : k ≤ f.size) :
    f.Rearranged f.roots (settleAll k f) := by
  induction k generalizing f with
  | zero => exact ⟨.refl _, rfl, rfl, rfl, rfl⟩
  | succ k ih =>
    have hfirst := settle_rearranged h (show k < f.size by omega)
    have hrest := ih (f := f.settle (k + 1)) (by rw [hfirst.size_eq, hfirst.heap_size]; exact h)
      (by rw [hfirst.size_eq]; omega)
    exact ⟨hrest.perm.trans hfirst.perm, hrest.size_eq.trans hfirst.size_eq,
      hrest.heap_size.trans hfirst.heap_size, hrest.parent_eq.trans hfirst.parent_eq,
      hrest.taken_eq.trans hfirst.taken_eq⟩

/-- The first root makes way for the last one. -/
theorem roots_remove (h : f.size < f.heap.size) (hsize : 2 ≤ f.size) :
    ∃ rest, f.roots = f.root 1 :: rest ∧
      ({ f with heap := f.heap.setIfInBounds 1 (f.root f.size), size := f.size - 1 } :
        Forest).roots.Perm rest := by
  have hlen := length_roots h
  have hfirst := getElem?_roots h (show 0 < f.size by omega)
  have hlast := getElem?_roots h (show f.size - 1 < f.size by omega)
  rw [Nat.sub_add_cancel (by omega)] at hlast
  have hset := roots_set f 0 (f.root f.size)
  -- one place fewer
  have htake : ({ f with heap := f.heap.setIfInBounds 1 (f.root f.size), size := f.size - 1 } :
      Forest).roots = (f.roots.set 0 (f.root f.size)).take (f.size - 1) := by
    rw [← hset, roots, roots, List.take_take, Nat.min_eq_left (by dsimp only; omega)]
  rw [htake]
  cases hroots : f.roots with
  | nil => simp [hroots] at hlen; omega
  | cons x rest =>
    rw [hroots] at hlen hfirst hlast
    rw [List.length_cons] at hlen
    obtain rfl : x = f.root 1 := by simpa using hfirst
    refine ⟨rest, rfl, ?_⟩
    have hne : rest ≠ [] := fun hnil => by simp [hnil] at hlen; omega
    have hget : rest.getLast? = some (f.root f.size) := by
      rw [List.getLast?_eq_getElem?, ← hlast, show f.size - 1 = rest.length - 1 + 1 by omega,
        List.getElem?_cons_succ]
    rw [List.set_cons_zero, ← hlen, Nat.add_sub_cancel,
      show (f.root (rest.length + 1) :: rest).take rest.length =
        (f.root (rest.length + 1) :: rest).dropLast by rw [List.dropLast_eq_take]; simp,
      List.dropLast_cons_of_ne_nil hne, hlen]
    refine (List.perm_append_singleton _ _).symm.trans ?_
    rw [List.dropLast_append_getLast? _ hget]

/-! ### Depths -/

end Forest

/-- The depth of a node from that of its parent, cut at the limit, and the cut nodes counted. -/
def cutStep (limit : Nat) (parent : Array Nat) (acc : Array Nat × Nat) (n : Nat) :
    Array Nat × Nat :=
  let depth := acc.1.getD (parent.getD n 0) 0 + 1
  if limit < depth then (acc.1.setIfInBounds n limit, acc.2 + 1)
  else (acc.1.setIfInBounds n depth, acc.2)

theorem cutDepths_eq (limit : Nat) (f : Forest) : cutDepths limit f =
    (f.taken.drop 1).foldl (cutStep limit f.parent) (Array.replicate f.parent.size 0, 0) := rfl

@[simp] theorem size_cutStep (limit : Nat) (parent : Array Nat) (acc : Array Nat × Nat) (n : Nat) :
    (cutStep limit parent acc n).1.size = acc.1.size := by
  rw [cutStep]
  split
  · simp
  · simp

theorem size_foldl_cutStep (limit : Nat) (parent : Array Nat) (acc : Array Nat × Nat)
    (ns : List Nat) : (ns.foldl (cutStep limit parent) acc).1.size = acc.1.size := by
  induction ns generalizing acc with
  | nil => rfl
  | cons n ns ih => rw [List.foldl_cons, ih, size_cutStep]

theorem getD_cutStep {parent : Array Nat} {n : Nat} (hn : n < acc.1.size) (r : Nat) :
    (cutStep limit parent acc n).1.getD r 0 =
      if n = r then min limit (acc.1.getD (parent.getD n 0) 0 + 1) else acc.1.getD r 0 := by
  have hset : ∀ x, (acc.1.setIfInBounds n x).getD r 0 = if n = r then x else acc.1.getD r 0 := by
    intro x
    rw [getD_setIfInBounds]
    by_cases hr : n = r
    · rw [if_pos ⟨hr, hr ▸ hn⟩, if_pos hr]
    · rw [if_neg fun h => hr h.1, if_neg hr]
  rw [cutStep]
  split
  · rw [hset, Nat.min_eq_left (by omega)]
  · rw [hset, Nat.min_eq_right (by omega)]

theorem cutStep_snd (limit : Nat) (parent : Array Nat) (acc : Array Nat × Nat) (n : Nat) :
    (cutStep limit parent acc n).2 =
      if limit < acc.1.getD (parent.getD n 0) 0 + 1 then acc.2 + 1 else acc.2 := by
  rw [cutStep]
  split
  · rfl
  · rfl

section Pair

variable {parent : Array Nat} {n m : Nat} (hn : n < acc.1.size) (hm : m < acc.1.size)
  (hparent : parent.getD n 0 = node) (hparent' : parent.getD m 0 = node) (hnode : m ≠ node)

include hm hparent hparent' hnode

include hn in
/-- Two nodes below the same one get its depth and one more, cut at the limit. -/
theorem getD_cutStep_pair (limit r : Nat) :
    (cutStep limit parent (cutStep limit parent acc m) n).1.getD r 0 =
      if n = r ∨ m = r then min limit (acc.1.getD node 0 + 1) else acc.1.getD r 0 := by
  rw [getD_cutStep (by simpa using hn), getD_cutStep hm, getD_cutStep hm, hparent, hparent',
    if_neg hnode]
  by_cases hr : n = r
  · rw [if_pos hr, if_pos (.inl hr)]
  · by_cases hr' : m = r
    · rw [if_neg hr, if_pos hr', if_pos (.inr hr')]
    · rw [if_neg hr, if_neg hr', if_neg (not_or.mpr ⟨hr, hr'⟩)]

/-- Either both are cut, or none of them. -/
theorem cutStep_pair_snd (limit : Nat) : (cutStep limit parent (cutStep limit parent acc m) n).2 =
    if limit < acc.1.getD node 0 + 1 then acc.2 + 2 else acc.2 := by
  rw [cutStep_snd, cutStep_snd, getD_cutStep hm, hparent, hparent', if_neg hnode]
  by_cases hl : limit < acc.1.getD node 0 + 1
  · rw [if_pos hl, if_pos hl, if_pos hl]
  · rw [if_neg hl, if_neg hl, if_neg hl]

end Pair

/-- The depths of the leaves of a tree, cut at the limit: each two nodes that were cut stand for
one code too many, which is one of the longest. -/
structure Levelled (limit : Nat) (front : List Nat) (acc : Array Nat × Nat) : Prop where
  le_limit : ∀ r ∈ front, acc.1.getD r 0 ≤ limit
  pos : 2 ≤ front.length → ∀ r ∈ front, 1 ≤ acc.1.getD r 0
  even : acc.2 % 2 = 0
  sum_eq : (front.map fun r => 2 ^ (limit - acc.1.getD r 0)).sum = 2 ^ limit + acc.2 / 2
  le_longest : acc.2 / 2 ≤ front.countP fun r => acc.1.getD r 0 == limit

namespace Levelled

/-- A tree that is a single leaf. -/
theorem singleton (limit r n : Nat) : Levelled limit [r] (Array.replicate n 0, 0) := by
  have hzero : (Array.replicate n 0).getD r 0 = 0 := getD_replicate n r
  refine ⟨?_, by simp, rfl, ?_, by simp⟩
  · intro r' hr'
    obtain rfl := List.mem_singleton.mp hr'
    rw [hzero]
    exact Nat.zero_le _
  · rw [List.map_singleton, List.sum_singleton, hzero]
    simp

theorem perm {front' : List Nat} (h : Levelled limit front acc) (hperm : front'.Perm front) :
    Levelled limit front' acc where
  le_limit r hr := h.le_limit r (hperm.mem_iff.mp hr)
  pos hlen r hr := h.pos (hperm.length_eq ▸ hlen) r (hperm.mem_iff.mp hr)
  even := h.even
  sum_eq := (hperm.map _).sum_eq.trans h.sum_eq
  le_longest := by
    rw [hperm.countP_eq]
    exact h.le_longest

/-- A leaf that is split into two. -/
theorem split {acc' : Array Nat × Nat} {n m d : Nat} (h : Levelled limit (node :: rest) acc)
    (hlimit : 1 ≤ limit) (hd : acc.1.getD node 0 = d)
    (hdn : acc'.1.getD n 0 = min limit (d + 1)) (hdm : acc'.1.getD m 0 = min limit (d + 1))
    (hsame : ∀ r ∈ rest, acc'.1.getD r 0 = acc.1.getD r 0)
    (hcut : acc'.2 = if limit < d + 1 then acc.2 + 2 else acc.2) :
    Levelled limit (n :: m :: rest) acc' := by
  have hdle : d ≤ limit := hd ▸ h.le_limit node (List.mem_cons_self ..)
  have hsum : (rest.map fun r => 2 ^ (limit - acc'.1.getD r 0)).sum =
      (rest.map fun r => 2 ^ (limit - acc.1.getD r 0)).sum :=
    congrArg List.sum (List.map_congr_left fun r hr => by rw [hsame r hr])
  have hlongest : (rest.countP fun r => acc'.1.getD r 0 == limit) =
      rest.countP fun r => acc.1.getD r 0 == limit :=
    List.countP_congr fun r hr => by rw [hsame r hr]
  have heven := h.even
  have hsumOld := h.sum_eq
  have hlongestOld := h.le_longest
  rw [List.map_cons, List.sum_cons, hd] at hsumOld
  rw [List.countP_cons, hd] at hlongestOld
  have hcases : ∀ r ∈ n :: m :: rest, acc'.1.getD r 0 = min limit (d + 1) ∨ r ∈ rest := by
    intro r hr
    rcases List.mem_cons.mp hr with rfl | hr
    · exact .inl hdn
    rcases List.mem_cons.mp hr with rfl | hr
    · exact .inl hdm
    · exact .inr hr
  refine ⟨fun r hr => ?_, fun _ r hr => ?_, ?_, ?_, ?_⟩
  · rcases hcases r hr with hr | hr
    · omega
    · rw [hsame r hr]
      exact h.le_limit r (List.mem_cons_of_mem _ hr)
  · rcases hcases r hr with hr | hr
    · omega
    · have hlen : 1 ≤ rest.length := List.length_pos_of_mem hr
      rw [hsame r hr]
      exact h.pos (by simpa using hlen) r (List.mem_cons_of_mem _ hr)
  · split at hcut
    · omega
    · omega
  · rw [List.map_cons, List.map_cons, List.sum_cons, List.sum_cons, hsum, hdn, hdm]
    by_cases hl : limit < d + 1
    · -- two codes of the greatest length where there was one
      rw [if_pos hl] at hcut
      rw [Nat.min_eq_left (by omega), Nat.sub_self]
      rw [show limit - d = 0 by omega] at hsumOld
      omega
    · rw [if_neg hl] at hcut
      rw [Nat.min_eq_right (by omega)]
      rw [two_pow_sub (by omega)] at hsumOld
      omega
  · rw [List.countP_cons, List.countP_cons, hlongest, hdn, hdm]
    by_cases hl : limit < d + 1
    · rw [if_pos hl] at hcut
      rw [if_pos (by simp; omega)]
      rw [if_pos (by simp; omega)] at hlongestOld
      omega
    · rw [if_neg hl] at hcut
      rw [if_neg (by simp; omega)] at hlongestOld
      omega

/-- The two steps that split a leaf. -/
theorem cutStep_pair {parent : Array Nat} {n m : Nat} (h : Levelled limit (node :: rest) acc)
    (hlimit : 1 ≤ limit) (hn : n < acc.1.size) (hm : m < acc.1.size)
    (hparent : parent.getD n 0 = node) (hparent' : parent.getD m 0 = node)
    (hnodup : (n :: m :: rest).Nodup) (hnode : m ≠ node) :
    Levelled limit (n :: m :: rest) (cutStep limit parent (cutStep limit parent acc m) n) := by
  simp only [List.nodup_cons, List.mem_cons, not_or] at hnodup
  have hdepth := getD_cutStep_pair hn hm hparent hparent' hnode limit
  refine h.split hlimit rfl ?_ ?_ (fun r hr => ?_) (cutStep_pair_snd hm hparent hparent' hnode limit)
  · rw [hdepth, if_pos (.inl rfl)]
  · rw [hdepth, if_pos (.inr rfl)]
  · rw [hdepth, if_neg]
    rintro (rfl | rfl)
    · exact hnodup.1.2 hr
    · exact hnodup.2.1 hr

end Levelled

/-! ### Joining -/

namespace Forest

/-- The heap without its first root. -/
def removed (f : Forest) : Forest :=
  { f with heap := f.heap.setIfInBounds 1 (f.root f.size), size := f.size - 1 }.settle 1

/-- The first two trees joined as `node`. -/
def join (f : Forest) (node : Nat) : Forest :=
  let n := f.root 1
  let g := f.removed
  let m := g.root 1
  { g with
    heap := g.heap.setIfInBounds 1 node
    frequency := g.frequency.setIfInBounds node (g.frequency.getD n 0 + g.frequency.getD m 0)
    depth := g.depth.setIfInBounds node (max (g.depth.getD n 0) (g.depth.getD m 0) + 1)
    parent := (g.parent.setIfInBounds n node).setIfInBounds m node
    taken := m :: n :: g.taken }.settle 1

theorem joinAll_succ (fuel node : Nat) (f : Forest) : joinAll (fuel + 1) node f =
    if f.size < 2 then { f with taken := f.root 1 :: f.taken }
    else joinAll fuel (node + 1) (f.join node) := rfl

/-- The trees with roots `n` and `m` were joined as `node`, and the others left alone. -/
structure Joined (f : Forest) (node n m : Nat) (rest : List Nat) (f' : Forest) : Prop where
  before : f.roots.Perm (n :: m :: rest)
  after : f'.roots.Perm (node :: rest)
  size_eq : f'.size = f.size - 1
  heap_size : f'.heap.size = f.heap.size
  parent_eq : f'.parent = (f.parent.setIfInBounds n node).setIfInBounds m node
  taken_eq : f'.taken = m :: n :: f.taken

/-- A join joins two trees. -/
theorem joined_join (h : f.size < f.heap.size) (hsize : 2 ≤ f.size) (node : Nat) :
    ∃ n m rest, Joined f node n m rest (f.join node) := by
  obtain ⟨others, hroots, hothers⟩ := roots_remove h hsize
  set g₀ : Forest :=
    { f with heap := f.heap.setIfInBounds 1 (f.root f.size), size := f.size - 1 } with hg₀
  have hg : g₀.Rearranged g₀.roots f.removed :=
    settle_rearranged (by simp [hg₀]; omega) (show 0 < f.size - 1 by omega)
  set g := f.removed with hgdef
  have hgsize : g.size = f.size - 1 := hg.size_eq
  have hgheap : g.heap.size = f.heap.size := hg.heap_size.trans (by simp [hg₀])
  have hfirst := getElem?_roots (f := g) (k := 0) (by omega) (by omega)
  obtain ⟨rest, hrest⟩ : ∃ rest, g.roots = g.root 1 :: rest := by
    cases hcases : g.roots with
    | nil => simp [hcases] at hfirst
    | cons m rest =>
      obtain rfl : m = g.root 1 := by simpa [hcases] using hfirst
      exact ⟨rest, rfl⟩
  set j₀ : Forest := { g with
    heap := g.heap.setIfInBounds 1 node
    frequency := g.frequency.setIfInBounds node
      (g.frequency.getD (f.root 1) 0 + g.frequency.getD (g.root 1) 0)
    depth := g.depth.setIfInBounds node
      (max (g.depth.getD (f.root 1) 0) (g.depth.getD (g.root 1) 0) + 1)
    parent := (g.parent.setIfInBounds (f.root 1) node).setIfInBounds (g.root 1) node
    taken := g.root 1 :: f.root 1 :: g.taken } with hj₀
  have hj : j₀.Rearranged j₀.roots (f.join node) :=
    settle_rearranged (by simp [hj₀]; omega) (show 0 < g.size by omega)
  have hjroots : j₀.roots = node :: rest := by
    rw [show j₀.roots = g.roots.set 0 node from roots_set g 0 node, hrest, List.set_cons_zero]
  refine ⟨f.root 1, g.root 1, rest, ?_, hjroots ▸ hj.perm, hj.size_eq.trans hgsize,
    hj.heap_size.trans (by simp [hj₀, hgheap]), ?_, ?_⟩
  · rw [hroots]
    exact ((hg.perm.trans hothers).symm.trans (hrest ▸ .refl _)).cons _
  · rw [hj.parent_eq, hj₀]
    dsimp only
    rw [hg.parent_eq]
  · rw [hj.taken_eq, hj₀]
    dsimp only
    rw [hg.taken_eq]

/-- Trees that can be joined: the next node is new to them, and there is room for all the nodes
to come. -/
structure Sound (f : Forest) (node : Nat) : Prop where
  nonempty : 1 ≤ f.size
  fits : f.size < f.heap.size
  nodup : f.roots.Nodup
  lt_node : ∀ r ∈ f.roots, r < node
  room : node + f.size ≤ f.parent.size + 1

/-- What is known of a tree that is left of some trees: the depths of their roots in it, and
which symbols it was made of. -/
structure Grown (limit elements node : Nat) (f f' : Forest) : Prop where
  size_eq : f'.parent.size = f.parent.size
  parent_eq : ∀ r < node, r ∉ f.roots → f'.parent.getD r 0 = f.parent.getD r 0
  taken : ∃ root top, f'.taken = root :: top ++ f.taken ∧
    Levelled limit f.roots
      (top.foldl (cutStep limit f'.parent) (Array.replicate f'.parent.size 0, 0)) ∧
    ((root :: top).filter (· < elements)).Perm (f.roots.filter (· < elements))

namespace Sound

variable {n m : Nat} {f₁ : Forest}

/-- What is known of the roots before a join. -/
theorem of_joined (h : f.Sound node) (hj : Joined f node n m rest f₁) :
    (n :: m :: rest).Nodup ∧ n < node ∧ m < node ∧ ∀ r ∈ rest, r < node := by
  have hlt : ∀ r ∈ n :: m :: rest, r < node := fun r hr =>
    h.lt_node r (hj.before.mem_iff.mpr hr)
  exact ⟨hj.before.nodup_iff.mp h.nodup, hlt n (by simp), hlt m (by simp),
    fun r hr => hlt r (List.mem_cons_of_mem _ (List.mem_cons_of_mem _ hr))⟩

theorem joined (h : f.Sound node) (hsize : 2 ≤ f.size) (hj : Joined f node n m rest f₁) :
    f₁.Sound (node + 1) := by
  obtain ⟨hnodup, -, -, hlt⟩ := h.of_joined hj
  have hroom := h.room
  have hfits := h.fits
  have hsize₁ := hj.size_eq
  refine ⟨by omega, by rw [hj.heap_size]; omega, ?_, fun r hr => ?_, ?_⟩
  · rw [hj.after.nodup_iff, List.nodup_cons]
    exact ⟨fun hmem => absurd (hlt node hmem) (Nat.lt_irrefl node),
      (List.nodup_cons.mp (List.nodup_cons.mp hnodup).2).2⟩
  · rcases List.mem_cons.mp (hj.after.mem_iff.mp hr) with rfl | hr
    · exact Nat.lt_succ_self r
    · exact (hlt r hr).trans (Nat.lt_succ_self node)
  · rw [hj.parent_eq]
    simp only [Array.size_setIfInBounds]
    omega

/-- A tree that is left after a join has the two nodes below the one that they were joined as. -/
theorem parent_of_joined (h : f.Sound node) (hsize : 2 ≤ f.size) (hj : Joined f node n m rest f₁)
    (hgrown : Grown limit elements (node + 1) f₁ f') {r : Nat} (hr : r < node) (hrest : r ∉ rest) :
    f'.parent.getD r 0 = if n = r ∨ m = r then node else f.parent.getD r 0 := by
  have hout : r ∉ f₁.roots := by
    rw [hj.after.mem_iff, List.mem_cons, not_or]
    exact ⟨by omega, hrest⟩
  have hroom := h.room
  have hin : r < f.parent.size := by omega
  rw [hgrown.parent_eq r (by omega) hout, hj.parent_eq, getD_setIfInBounds, getD_setIfInBounds]
  by_cases hmr : m = r
  · rw [if_pos ⟨hmr, by simpa using hin⟩, if_pos (.inr hmr)]
  · by_cases hnr : n = r
    · rw [if_neg fun h => hmr h.1, if_pos ⟨hnr, hin⟩, if_pos (.inl hnr)]
    · rw [if_neg fun h => hmr h.1, if_neg fun h => hnr h.1, if_neg (not_or.mpr ⟨hnr, hmr⟩)]

/-- What is left of some trees is left of them before a join, too. -/
theorem grown_of_joined (h : f.Sound node) (hlimit : 1 ≤ limit) (helements : elements ≤ node)
    (hsize : 2 ≤ f.size) (hj : Joined f node n m rest f₁)
    (hgrown : Grown limit elements (node + 1) f₁ f') : Grown limit elements node f f' := by
  obtain ⟨hnodup, hn, hm, -⟩ := h.of_joined hj
  have hparents := fun {r} (hr : r < node) (hrest : r ∉ rest) =>
    h.parent_of_joined hsize hj hgrown hr hrest
  have hroom := h.room
  have hsize' : f'.parent.size = f.parent.size := by
    rw [hgrown.size_eq, hj.parent_eq]
    simp
  obtain ⟨root, top, htop, hlevelled, hleaves⟩ := hgrown.taken
  refine ⟨hsize', fun r hr hout => ?_, root, top ++ [m, n], by rw [htop, hj.taken_eq]; simp, ?_, ?_⟩
  · rw [hj.before.mem_iff, List.mem_cons, List.mem_cons, not_or, not_or] at hout
    rw [hparents hr hout.2.2, if_neg]
    rintro (rfl | rfl)
    · exact hout.1 rfl
    · exact hout.2.1 rfl
  · have hsizes := size_foldl_cutStep limit f'.parent (Array.replicate f'.parent.size 0, 0) top
    have hmem : n ∉ rest ∧ m ∉ rest := by
      simp only [List.nodup_cons, List.mem_cons, not_or] at hnodup
      exact ⟨hnodup.1.2, hnodup.2.1⟩
    rw [Array.size_replicate] at hsizes
    rw [List.foldl_append]
    refine ((hlevelled.perm hj.after.symm).cutStep_pair hlimit (by omega) (by omega) ?_ ?_ hnodup
      (by omega)).perm hj.before
    · rw [hparents hn hmem.1, if_pos (.inl rfl)]
    · rw [hparents hm hmem.2, if_pos (.inr rfl)]
  · -- the new node is none of the symbols
    have hdrop : (node :: rest).filter (· < elements) = rest.filter (· < elements) :=
      List.filter_cons_of_neg (by simpa using helements)
    have hback : (rest ++ [m, n]).Perm f.roots :=
      (List.perm_append_comm.trans (.swap n m rest)).trans hj.before.symm
    calc (root :: (top ++ [m, n])).filter (· < elements)
        = (root :: top).filter (· < elements) ++ [m, n].filter (· < elements) := by
          rw [← List.filter_append, List.cons_append]
      List.Perm _ (rest.filter (· < elements) ++ [m, n].filter (· < elements)) :=
          (hdrop ▸ hleaves.trans (hj.after.filter _)).append_right _
      List.Perm _ (f.roots.filter (· < elements)) := by
          rw [← List.filter_append]
          exact hback.filter _

/-- What is known of the tree in the end. -/
theorem grown (h : f.Sound node) (hlimit : 1 ≤ limit) (helements : elements ≤ node)
    (hfuel : f.size ≤ fuel) : Grown limit elements node f (joinAll fuel node f) := by
  induction fuel generalizing f node with
  | zero => exact absurd (h.nonempty.trans hfuel) (by omega)
  | succ fuel ih =>
    rw [joinAll_succ]
    split
    · next hone =>
      have hroots : f.roots = [f.root 1] := by
        have hlen := length_roots h.fits
        have hfirst := getElem?_roots h.fits h.nonempty
        have hne := h.nonempty
        obtain ⟨r, hr⟩ := List.length_eq_one_iff.mp (hlen.trans (by omega))
        rw [hr] at hfirst ⊢
        simpa using hfirst
      refine ⟨rfl, fun _ _ _ => rfl, f.root 1, [], rfl, ?_, by rw [hroots]⟩
      rw [hroots, List.foldl_nil]
      exact .singleton ..
    · next hmore =>
      have hsize : 2 ≤ f.size := by omega
      obtain ⟨n, m, rest, hj⟩ := joined_join h.fits hsize node
      have hless := hj.size_eq
      exact h.grown_of_joined hlimit helements hsize hj
        (ih (h.joined hsize hj) (by omega) (by omega))

end Sound

end Forest

end HotSwap.Codec.Deflate
