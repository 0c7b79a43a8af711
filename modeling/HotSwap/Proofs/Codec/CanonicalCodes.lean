/-
Canonical codes can be read.

A table of code lengths gives each symbol that has a length a code.  If the lengths leave room
for one another, every code that is written is read as its symbol, whatever comes behind it.

* `fill` — how many of the codes of one length a table takes, with all that begin with shorter
  codes;
* `firstCode`, `shorter` — the first code of each length, and how many symbols have shorter ones;
* `getD_canonicalCodes`, `getElem?_ordered` — the code of a symbol, and the symbol of a code;
* `PrefixFree.symbol_symbolBits` — codes are read back.

Design notes: the reader takes a code as soon as it is below the first one of the next length.
The beginnings of longer codes never are, which is all that keeps codes apart.
-/
import Mathlib.Algebra.BigOperators.Group.List.Lemmas
import HotSwap.Proofs.Codec.Bits

namespace HotSwap.Codec.Deflate

/-! ### How much room a table takes -/

variable {ls : List Nat}

/-- What a length takes of the codes of length `k`: itself, or all that begin with its code. -/
def weight (k l : Nat) : Nat := if l = 0 ∨ k < l then 0 else 2 ^ (k - l)

/-- What a table takes of the codes of length `k`. -/
def fill (k : Nat) (ls : List Nat) : Nat := (ls.map (weight k)).sum

/-- How many symbols have a code of some length. -/
def codesOf (ls : List Nat) (l : Nat) : Nat := if l = 0 then 0 else ls.count l

theorem codesOf_append (ls ls' : List Nat) (l : Nat) :
    codesOf (ls ++ ls') l = codesOf ls l + codesOf ls' l := by
  by_cases hl : l = 0
  · simp [codesOf, hl]
  · simp [codesOf, hl]

theorem codesOf_zero (l : Nat) : codesOf [0] l = 0 := by
  by_cases hl : l = 0
  · simp [codesOf, hl]
  · simp [codesOf, hl, Ne.symm hl]

theorem codesOf_singleton {x : Nat} (hx : x ≠ 0) (l : Nat) :
    codesOf [x] l = if l = x then 1 else 0 := by
  by_cases hl : l = x
  · simp [codesOf, hl, hx]
  · simp [codesOf, hl, Ne.symm hl]

theorem fill_append (k : Nat) (ls ls' : List Nat) : fill k (ls ++ ls') = fill k ls + fill k ls' := by
  rw [fill, List.map_append, List.sum_append, fill, fill]

theorem fill_replicate (k n l : Nat) : fill k (List.replicate n l) = n * weight k l := by
  rw [fill, List.map_replicate, List.sum_replicate_nat]

theorem fill_zero (ls : List Nat) : fill 0 ls = 0 := by
  have hweight : ∀ l, weight 0 l = 0 := fun l => by
    rw [weight, if_pos (by omega)]
  exact List.sum_eq_zero fun n hn => by
    obtain ⟨l, -, rfl⟩ := List.mem_map.mp hn
    exact hweight l

/-- Each code begins two that are longer by one. -/
theorem fill_succ (k : Nat) (ls : List Nat) :
    fill (k + 1) ls = 2 * fill k ls + ls.count (k + 1) := by
  induction ls with
  | nil => rfl
  | cons l ls ih =>
    have hweight : weight (k + 1) l = 2 * weight k l + if l = k + 1 then 1 else 0 := by
      rcases Nat.lt_trichotomy l (k + 1) with hlt | rfl | hgt
      · rw [if_neg (by omega), weight, weight]
        by_cases hl : l = 0
        · simp [hl]
        · rw [if_neg (by omega), if_neg (by omega), show k + 1 - l = k - l + 1 by omega,
            Nat.pow_succ]
          omega
      · simp [weight]
      · rw [if_neg (by omega), weight, weight, if_pos (by omega), if_pos (by omega)]
    simp only [fill, List.map_cons, List.sum_cons, List.count_cons] at ih ⊢
    rw [ih, hweight]
    simp only [beq_iff_eq]
    omega

/-- The first code of each length. -/
def firstCode (ls : List Nat) : Nat → Nat
  | 0 => 0
  | l + 1 => (firstCode ls l + codesOf ls l) * 2

/-- How many symbols have a code shorter than some length. -/
def shorter (ls : List Nat) : Nat → Nat
  | 0 => 0
  | l + 1 => shorter ls l + codesOf ls l

theorem firstCode_succ_eq (ls : List Nat) (l : Nat) :
    firstCode ls (l + 1) = (firstCode ls l + codesOf ls l) * 2 := rfl

theorem shorter_succ (ls : List Nat) (l : Nat) :
    shorter ls (l + 1) = shorter ls l + codesOf ls l := rfl

/-- The codes of a length end where those of the longer ones begin. -/
theorem firstCode_add_codesOf (ls : List Nat) (l : Nat) :
    firstCode ls l + codesOf ls l = fill l ls := by
  induction l with
  | zero => simp [firstCode, codesOf, fill_zero]
  | succ l ih =>
    rw [firstCode, ih, fill_succ, codesOf, if_neg (by omega)]
    omega

theorem firstCode_succ (ls : List Nat) (l : Nat) : firstCode ls (l + 1) = fill l ls * 2 := by
  rw [firstCode, firstCode_add_codesOf]

/-- What is taken of the shorter codes takes as much of the longer ones. -/
theorem fill_mul_le (ls : List Nat) (k n : Nat) : fill k ls * 2 ^ n ≤ fill (k + n) ls := by
  induction n with
  | zero => simp
  | succ n ih =>
    rw [← Nat.add_assoc, fill_succ, Nat.pow_succ]
    have : fill k ls * (2 ^ n * 2) = 2 * (fill k ls * 2 ^ n) := by ring
    omega

/-! ### The tables that are built -/

theorem getD_foldl_count {counts : Array Nat} (hsize : counts.size = 16)
    (hmax : ∀ l ∈ ls, l ≤ 15) (l : Nat) :
    (ls.foldl (fun counts l => if l == 0 then counts else counts.modify l (· + 1)) counts).getD l 0 =
      counts.getD l 0 + codesOf ls l := by
  induction ls generalizing counts with
  | nil => simp [codesOf]
  | cons x ls ih =>
    have hx := hmax x (List.mem_cons_self ..)
    have hmax := fun l hl => hmax l (List.mem_cons_of_mem x hl)
    rw [List.foldl_cons, ← List.singleton_append, codesOf_append]
    by_cases hx0 : x = 0
    · rw [if_pos (by simpa using hx0), ih hsize hmax, hx0, codesOf_zero, Nat.zero_add]
    · rw [if_neg (by simpa using hx0), ih (by simpa using hsize) hmax,
        getD_modify_add (by omega), codesOf_singleton hx0, Nat.add_assoc]

theorem getD_lengthCounts (hmax : ∀ l ∈ ls, l ≤ 15) (l : Nat) :
    (lengthCounts ls.toArray).getD l 0 = codesOf ls l := by
  have h := getD_foldl_count (show (Array.replicate 16 0).size = 16 by simp) hmax l
  rw [getD_replicate, Nat.zero_add] at h
  rwa [lengthCounts, List.foldl_toArray]

/-- The first codes are the table of `firstCode`. -/
theorem firstCodes_lengthCounts (hmax : ∀ l ∈ ls, l ≤ 15) :
    firstCodes (lengthCounts ls.toArray) = ((List.range 16).map (firstCode ls)).toArray := by
  have hsteps : ∀ n, (List.range n).foldl
      (fun (acc : Array Nat × Nat) l =>
        let code :=
          if l == 0 then 0 else (acc.2 + (lengthCounts ls.toArray).getD (l - 1) 0) * 2
        (acc.1.push code, code)) (#[], 0) =
      (((List.range n).map (firstCode ls)).toArray, firstCode ls (n - 1)) := by
    intro n
    induction n with
    | zero => rfl
    | succ n ih =>
      rw [List.range_succ, List.foldl_append, ih]
      cases n with
      | zero => rfl
      | succ n => simp [getD_lengthCounts hmax, firstCode]
  rw [firstCodes, hsteps]

/-- The codes handed out to some symbols, from `first` on, and the next code of each length. -/
structure Assigned (first : Array Nat) (ls : List Nat) (codes next : Array Nat) : Prop where
  size_eq : codes.size = ls.length
  next_size : next.size = 16
  next_eq : ∀ l, next.getD l 0 = first.getD l 0 + codesOf ls l
  code_eq : ∀ s, ls.getD s 0 ≠ 0 →
    codes.getD s 0 = first.getD (ls.getD s 0) 0 + (ls.take s).count (ls.getD s 0)

namespace Assigned

variable {first codes next : Array Nat} {x : Nat}

/-- The codes before the last one. -/
theorem code_eq_of_ne (h : Assigned first ls codes next) {s : Nat} (hne : s ≠ ls.length)
    (hs : (ls ++ [x]).getD s 0 ≠ 0) : codes.getD s 0 =
      first.getD ((ls ++ [x]).getD s 0) 0 + ((ls ++ [x]).take s).count ((ls ++ [x]).getD s 0) := by
  have hlt : s < ls.length := by
    by_contra hge
    simp [List.getElem?_eq_none (show (ls ++ [x]).length ≤ s by simp; omega)] at hs
  have hget : (ls ++ [x]).getD s 0 = ls.getD s 0 := by simp [List.getElem?_append_left hlt]
  rw [hget] at hs ⊢
  rw [List.take_append_of_le_length hlt.le, h.code_eq s hs]

/-- A symbol without a code. -/
theorem skip (h : Assigned first ls codes next) :
    Assigned first (ls ++ [0]) (codes.push 0) next where
  size_eq := by simp [h.size_eq]
  next_size := h.next_size
  next_eq l := by rw [h.next_eq, codesOf_append, codesOf_zero, Nat.add_zero]
  code_eq s hs := by
    have hne : s ≠ ls.length := by
      rintro rfl
      simp at hs
    rw [getD_push, if_neg (h.size_eq ▸ hne), h.code_eq_of_ne hne hs]

/-- A symbol that gets the next code of its length. -/
theorem give (h : Assigned first ls codes next) (hx : x ≤ 15) (hx0 : x ≠ 0) :
    Assigned first (ls ++ [x]) (codes.push (next.getD x 0)) (next.modify x (· + 1)) where
  size_eq := by simp [h.size_eq]
  next_size := by simpa using h.next_size
  next_eq l := by
    rw [getD_modify_add (by rw [h.next_size]; omega), h.next_eq, codesOf_append,
      codesOf_singleton hx0, Nat.add_assoc]
  code_eq s hs := by
    rw [getD_push, h.size_eq]
    split
    · next hlast =>
      subst hlast
      simp [h.next_eq, codesOf, hx0]
    · next hne => exact h.code_eq_of_ne hne hs

end Assigned

/-- How codes are handed out, from the first one of each length on. -/
theorem assigned_foldl {first : Array Nat} (hsize : first.size = 16) (hmax : ∀ l ∈ ls, l ≤ 15) :
    let handed := ls.foldl
      (fun (acc : Array Nat × Array Nat) l =>
        if l == 0 then (acc.1.push 0, acc.2)
        else (acc.1.push (acc.2.getD l 0), acc.2.modify l (· + 1))) (#[], first)
    Assigned first ls handed.1 handed.2 := by
  induction ls using List.reverseRecOn with
  | nil => exact ⟨rfl, hsize, by simp [codesOf], by simp⟩
  | append_singleton ls x ih =>
    have ih := ih fun l hl => hmax l (List.mem_append_left _ hl)
    rw [List.foldl_append, List.foldl_cons, List.foldl_nil]
    by_cases hx : x = 0
    · subst hx
      exact ih.skip
    · rw [if_neg (by simpa using hx)]
      exact ih.give (hmax x (by simp)) hx

/-- The codes of one length are consecutive, in the order of their symbols. -/
theorem getD_canonicalCodes (hmax : ∀ l ∈ ls, l ≤ 15) {s : Nat} (hs : ls.getD s 0 ≠ 0) :
    (canonicalCodes ls.toArray).getD s 0 =
      firstCode ls (ls.getD s 0) + (ls.take s).count (ls.getD s 0) := by
  have hlt : ls.getD s 0 < 16 := by
    refine Nat.lt_succ_of_le ?_
    by_cases h : s < ls.length
    · simpa [h] using hmax _ (List.getElem_mem h)
    · simp [List.getElem?_eq_none (Nat.le_of_not_lt h)]
  rw [canonicalCodes, firstCodes_lengthCounts hmax, List.foldl_toArray,
    (assigned_foldl (by simp) hmax).code_eq s hs]
  congr 1
  rw [Array.getD_eq_getD_getElem?, List.getElem?_toArray, List.getElem?_map,
    List.getElem?_range hlt]
  rfl

/-! ### The symbols in order of their codes -/

/-- The symbols whose codes have some length. -/
theorem getElem?_filter_zipIdx {l s : Nat} (h : ls[s]? = some l) (k : Nat) :
    (((ls.zipIdx k).filter fun p => p.1 == l).map (·.2))[(ls.take s).count l]? = some (s + k) := by
  induction ls generalizing s k with
  | nil => simp at h
  | cons x ls ih =>
    rw [List.zipIdx_cons]
    cases s with
    | zero =>
      obtain rfl : x = l := by simpa using h
      simp
    | succ s =>
      have ih := ih (by simpa using h) (k + 1)
      rw [List.take_succ_cons]
      by_cases hx : x = l
      · subst hx
        simpa [Nat.add_assoc, Nat.add_comm 1] using ih
      · simpa [hx, Nat.add_assoc, Nat.add_comm 1] using ih

theorem length_filter_zipIdx (ls : List Nat) (l : Nat) :
    ((ls.zipIdx.filter fun p => p.1 == l).map (·.2)).length = ls.count l := by
  rw [List.length_map, ← List.countP_eq_length_filter, List.count]
  conv_rhs => rw [← List.zipIdx_map_fst 0 ls, List.countP_map]
  rfl

theorem count_take_lt {l s : Nat} (h : ls[s]? = some (l + 1)) :
    (ls.take s).count (l + 1) < codesOf ls (l + 1) := by
  obtain ⟨hlt, -⟩ := List.getElem?_eq_some_iff.mp (getElem?_filter_zipIdx h 0)
  rw [length_filter_zipIdx] at hlt
  simpa [codesOf] using hlt

/-- The symbols with the codes up to some length. -/
def ordered (ls : List Nat) (n : Nat) : List Nat :=
  (List.range n).flatMap fun l => (ls.zipIdx.filter fun p => p.1 == l + 1).map (·.2)

theorem ordered_succ (ls : List Nat) (n : Nat) : ordered ls (n + 1) =
    ordered ls n ++ (ls.zipIdx.filter fun p => p.1 == n + 1).map (·.2) := by
  simp [ordered, List.range_succ]

theorem length_ordered (ls : List Nat) (n : Nat) : (ordered ls n).length = shorter ls (n + 1) := by
  induction n with
  | zero => simp [ordered, shorter, codesOf]
  | succ n ih =>
    rw [ordered_succ, List.length_append, ih, length_filter_zipIdx, shorter_succ ls (n + 1), codesOf,
      if_neg (by omega)]

theorem getElem?_ordered {l s n : Nat} (h : ls[s]? = some (l + 1)) (hl : l < n) :
    (ordered ls n)[shorter ls (l + 1) + (ls.take s).count (l + 1)]? = some s := by
  have hcount := getElem?_filter_zipIdx h 0
  induction n with
  | zero => omega
  | succ n ih =>
    rw [ordered_succ]
    by_cases hn : l = n
    · subst hn
      rw [List.getElem?_append_right (by rw [length_ordered]; omega), length_ordered,
        Nat.add_sub_cancel_left]
      exact hcount
    · have hget := ih (by omega)
      obtain ⟨hlt, -⟩ := List.getElem?_eq_some_iff.mp hget
      rw [List.getElem?_append_left hlt, hget]

/-! ### Reading -/

theorem getD_counts (hmax : ∀ l ∈ ls, l ≤ 15) (l : Nat) :
    (Code.ofLengths ls).counts.getD l 0 = codesOf ls l := getD_lengthCounts hmax l

/-- The room is what the table does not take. -/
theorem room_ofLengths (hmax : ∀ l ∈ ls, l ≤ 15) :
    (Code.ofLengths ls).room = 2 ^ 15 - fill 15 ls := by
  have hsteps : ∀ n : Nat, (List.range n).foldl
      (fun (left : Int) l => 2 * left - (Code.ofLengths ls).counts.getD (l + 1) 0) 1 =
      2 ^ n - fill n ls := by
    intro n
    induction n with
    | zero => simp [fill_zero]
    | succ n ih =>
      rw [List.range_succ, List.foldl_append, ih, List.foldl_cons, List.foldl_nil,
        getD_counts hmax, codesOf, if_neg (by omega), fill_succ, pow_succ]
      push_cast
      ring
  exact hsteps 15

/-- The bits of the code of a symbol. -/
def symbolBits (ls : List Nat) (s : Nat) : List Bool :=
  codeBits (ls.getD s 0) ((canonicalCodes ls.toArray).getD s 0)

/-- A bit added to what stands before it. -/
theorem div_pow_succ (n d : Nat) :
    n / 2 ^ (d + 1) * 2 + (if (n / 2 ^ d % 2 == 1) = true then 1 else 0) = n / 2 ^ d := by
  rw [ite_mod_two, Nat.pow_succ, ← Nat.div_div_eq_div_mul]
  omega

/-- A code is told from those that are shorter, and the symbol with it found: `d` bits are left
behind the next one. -/
theorem take_codeBits (hmax : ∀ l ∈ ls, l ≤ 15) {l s : Nat} (h : ls[s]? = some (l + 1))
    {code : Nat} (hcode : code = firstCode ls (l + 1) + (ls.take s).count (l + 1))
    (bad : Damage) (rest : List Bool) {d fuel k : Nat} (hk : k + d = l) (hfuel : d < fuel) :
    (Code.ofLengths ls).take bad fuel (k + 1) (firstCode ls (k + 1)) (shorter ls (k + 1))
      (code / 2 ^ (d + 1) * 2) (codeBits (d + 1) code ++ rest) = .ok (s, rest) := by
  have hl : l + 1 ≤ 15 := hmax _ (List.mem_of_getElem? h)
  obtain ⟨fuel, rfl⟩ : ∃ n, fuel = n + 1 := ⟨fuel - 1, by omega⟩
  induction d generalizing fuel k with
  | zero =>
    obtain rfl : k = l := hk
    have hsymbol := getElem?_ordered (n := 15) h (by omega)
    have hcount := count_take_lt h
    have hget : (Code.ofLengths ls).symbols.getD
        (shorter ls (k + 1) + (code - firstCode ls (k + 1))) 0 = s := by
      rw [hcode, Nat.add_sub_cancel_left, Array.getD_eq_getD_getElem?]
      exact congrArg (·.getD 0) (List.getElem?_toArray.trans hsymbol)
    rw [codeBits, List.cons_append, Code.take, div_pow_succ, getD_counts hmax]
    rw [Nat.pow_zero, Nat.div_one, if_pos (by omega), hget]
    rfl
  | succ d ih =>
    -- the beginning of a longer code is none of the codes of its length
    have hbeyond : ¬ code / 2 ^ (d + 1) < firstCode ls (k + 1) + codesOf ls (k + 1) := by
      rw [firstCode_add_codesOf, Nat.not_lt, Nat.le_div_iff_mul_le (Nat.two_pow_pos _)]
      calc fill (k + 1) ls * 2 ^ (d + 1) = fill (k + 1) ls * 2 ^ d * 2 := by ring
        _ ≤ fill (k + 1 + d) ls * 2 := Nat.mul_le_mul_right 2 (fill_mul_le ..)
        _ = firstCode ls (l + 1) := by rw [firstCode_succ, show k + 1 + d = l by omega]
        _ ≤ code := hcode ▸ Nat.le_add_right ..
    obtain ⟨fuel, rfl⟩ : ∃ n, fuel = n + 1 := ⟨fuel - 1, by omega⟩
    rw [codeBits, List.cons_append, Code.take, div_pow_succ, getD_counts hmax, if_neg hbeyond,
      ← firstCode_succ_eq, ← shorter_succ]
    exact ih (k := k + 1) (by omega) fuel (by omega)

/-- Lengths within the limit that leave room for one another. -/
structure PrefixFree (ls : List Nat) : Prop where
  le_limit : ∀ l ∈ ls, l ≤ 15
  fill_le : fill 15 ls ≤ 2 ^ 15

/-- The code of a symbol is read as that symbol, whatever comes behind it. -/
theorem PrefixFree.symbol_symbolBits (h : PrefixFree ls) {s : Nat} (hs : ls.getD s 0 ≠ 0)
    (bad : Damage) (rest : List Bool) :
    (Code.ofLengths ls).symbol bad (symbolBits ls s ++ rest) = .ok (s, rest) := by
  obtain ⟨hmax, hfill⟩ := h
  obtain ⟨l, hl⟩ : ∃ l, ls[s]? = some (l + 1) := by
    cases h : ls[s]? with
    | none => simp [h] at hs
    | some l =>
      obtain ⟨l, rfl⟩ : ∃ n, l = n + 1 := ⟨l - 1, by simp [h] at hs; omega⟩
      exact ⟨l, rfl⟩
  have hl15 : l + 1 ≤ 15 := hmax _ (List.mem_of_getElem? hl)
  have hget : ls.getD s 0 = l + 1 := by simp [hl]
  have hcode : firstCode ls (l + 1) + (ls.take s).count (l + 1) < 2 ^ (l + 1) := by
    have hroom : fill (l + 1) ls * 2 ^ (14 - l) ≤ 2 ^ (l + 1) * 2 ^ (14 - l) := by
      rw [← Nat.pow_add, show l + 1 + (14 - l) = 15 by omega]
      refine (fill_mul_le ls (l + 1) (14 - l)).trans ?_
      rwa [show l + 1 + (14 - l) = 15 by omega]
    have hle := Nat.le_of_mul_le_mul_right hroom (Nat.two_pow_pos _)
    have hlt := count_take_lt hl
    have hfirst := firstCode_add_codesOf ls (l + 1)
    omega
  have htake := take_codeBits (k := 0) hmax hl rfl bad rest (Nat.zero_add l)
    (show l < 15 by omega)
  rw [Nat.div_eq_of_lt hcode] at htake
  rw [symbolBits, getD_canonicalCodes hmax hs, hget]
  exact htake

/-- Symbols without a code at the end of a table leave the code alone. -/
theorem ofLengths_append_zeros (ls : List Nat) (n : Nat) :
    Code.ofLengths (ls ++ List.replicate n 0) = Code.ofLengths ls := by
  have hcounts : lengthCounts (ls ++ List.replicate n 0).toArray = lengthCounts ls.toArray := by
    rw [lengthCounts, lengthCounts, List.foldl_toArray, List.foldl_toArray, List.foldl_append]
    induction n with
    | zero => rfl
    | succ n ih => exact ih
  have hsymbols : ∀ l k, (((List.replicate n 0).zipIdx k).filter fun s => s.1 == l + 1) = [] := by
    intro l k
    rw [List.filter_eq_nil_iff]
    intro s hs
    have hzero := List.eq_of_mem_replicate (List.fst_mem_of_mem_zipIdx hs)
    simp [hzero]
  simp [Code.ofLengths, hcounts, hsymbols, List.zipIdx_append]

end HotSwap.Codec.Deflate
