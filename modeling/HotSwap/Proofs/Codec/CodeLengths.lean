/-
The lengths of a block's own codes.

Every symbol that occurs gets a code, no code is longer than the limit, and the codes take all the
room there is, neither more nor less.  Where the tree was cut, each code too many is made up for by
lengthening another one.

* `filled`, `handed` — the room and the number of codes that so many of each length come to;
* `repair_spec` — making up for what was cut;
* `handOut_spec` — handing the lengths out;
* `joinedTree_spec`, `Lengthened` — the leaves of the tree, and the lengths that they are given;
* `codeLengths_spec` — the lengths make a complete code for all symbols that occur.
-/
import HotSwap.Proofs.Codec.CanonicalCodes
import HotSwap.Proofs.Codec.Forests

namespace HotSwap.Codec.Deflate

/-! ### So many codes of each length -/

section Counts

variable {c c' : Nat → Nat} {b k limit x e fuel : Nat} {counts : Array Nat}

/-- The room that codes up to some length take, in codes of that length. -/
def filled (c : Nat → Nat) : Nat → Nat
  | 0 => 0
  | k + 1 => 2 * filled c k + c (k + 1)

/-- How many codes there are up to some length. -/
def handed (c : Nat → Nat) : Nat → Nat
  | 0 => 0
  | k + 1 => handed c k + c (k + 1)

/-- More codes of length `b`. -/
theorem filled_add (hb : 1 ≤ b) (h : ∀ l, c' l = c l + if l = b then x else 0) (k : Nat) :
    filled c' k = filled c k + if b ≤ k then x * 2 ^ (k - b) else 0 := by
  induction k with
  | zero => rw [if_neg (by omega)]; rfl
  | succ k ih =>
    rw [filled, filled, ih, h]
    rcases Nat.lt_trichotomy b (k + 1) with hlt | heq | hgt
    · rw [if_pos (by omega), if_neg (by omega), if_pos (by omega),
        show k + 1 - b = k - b + 1 by omega, Nat.pow_succ, ← Nat.mul_assoc]
      omega
    · rw [if_neg (by omega), if_pos heq.symm, if_pos (by omega), heq, Nat.sub_self]
      omega
    · rw [if_neg (by omega), if_neg (by omega), if_neg (by omega)]
      omega

theorem handed_add (hb : 1 ≤ b) (h : ∀ l, c' l = c l + if l = b then x else 0) (k : Nat) :
    handed c' k = handed c k + if b ≤ k then x else 0 := by
  induction k with
  | zero => rw [if_neg (by omega)]; rfl
  | succ k ih =>
    rw [handed, handed, ih, h]
    split <;> split <;> split <;> omega

/-- No codes take no room. -/
theorem filled_of_unused (h : ∀ l, 1 ≤ l → l ≤ k → c l = 0) : filled c k = 0 ∧ handed c k = 0 := by
  induction k with
  | zero => exact ⟨rfl, rfl⟩
  | succ k ih =>
    obtain ⟨hfilled, hhanded⟩ := ih fun l hl hle => h l hl (by omega)
    rw [filled, handed, hfilled, hhanded, h (k + 1) (by omega) (by omega)]
    exact ⟨rfl, rfl⟩

theorem longestUsed_spec (counts : Array Nat) (b : Nat) :
    (∀ l, 1 ≤ l → l ≤ b → counts.getD l 0 = 0) ∨
      1 ≤ longestUsed counts b ∧ longestUsed counts b ≤ b ∧
        counts.getD (longestUsed counts b) 0 ≠ 0 := by
  induction b with
  | zero => exact .inl fun l hl hle => by omega
  | succ b ih =>
    rw [longestUsed]
    split
    · next hzero =>
      rcases ih with hnone | ⟨hpos, hle, hne⟩
      · refine .inl fun l hl hle => ?_
        by_cases heq : l = b + 1
        · exact heq ▸ eq_of_beq hzero
        · exact hnone l hl (by omega)
      · exact .inr ⟨hpos, by omega, hne⟩
    · next hne => exact .inr ⟨by omega, Nat.le_refl _, by simpa using hne⟩

theorem getD_modify_pred {a : Array Nat} (hb : a.getD b 0 ≠ 0) (l : Nat) :
    a.getD l 0 = (a.modify b (· - 1)).getD l 0 + if l = b then 1 else 0 := by
  have hlt : b < a.size := by
    by_contra hge
    exact hb (by rw [Array.getD_eq_getD_getElem?, Array.getElem?_eq_none (by omega)]; rfl)
  rw [getD_modify]
  by_cases hl : b = l
  · subst hl
    rw [if_pos ⟨rfl, hlt⟩, if_pos rfl]
    omega
  · rw [if_neg fun h => hl h.1, if_neg (Ne.symm hl)]
    rfl

/-- One code is lengthened, and takes one of the longest as its brother. -/
def repairStep (limit : Nat) (counts : Array Nat) : Array Nat :=
  let bits := longestUsed counts (limit - 1)
  ((counts.modify bits (· - 1)).modify (bits + 1) (· + 2)).modify limit (· - 1)

theorem repair_succ (limit fuel overflow : Nat) (counts : Array Nat) :
    repair limit (fuel + 1) overflow counts =
      if overflow == 0 then counts else repair limit fuel (overflow - 2) (repairStep limit counts) :=
  rfl

/-- Each step of the repair makes room for one code, and leaves their number alone. -/
theorem repairStep_spec (hlimit : limit ≤ 15) (hsize : counts.size = 16)
    (hfilled : 2 ^ limit < filled (counts.getD · 0) limit) (hlongest : 1 ≤ counts.getD limit 0)
    (hhanded : handed (counts.getD · 0) limit ≤ 2 ^ limit) :
    (repairStep limit counts).size = 16 ∧
      filled ((repairStep limit counts).getD · 0) limit + 1 = filled (counts.getD · 0) limit ∧
      handed ((repairStep limit counts).getD · 0) limit = handed (counts.getD · 0) limit ∧
      counts.getD limit 0 ≤ (repairStep limit counts).getD limit 0 + 1 := by
  rw [repairStep]
  rcases longestUsed_spec counts (limit - 1) with hnone | ⟨hused, hle, hne⟩
  · -- codes of the greatest length alone are too few to take so much room
    cases limit with
    | zero => simp [filled] at hfilled
    | succ limit =>
      obtain ⟨hf, hh⟩ := filled_of_unused (c := (counts.getD · 0)) (k := limit) hnone
      rw [filled, hf] at hfilled
      rw [handed, hh] at hhanded
      omega
  · generalize longestUsed counts (limit - 1) = bits at *
    have hone := getD_modify_pred hne
    have hsize₁ : (counts.modify bits (· - 1)).size = 16 := by simpa using hsize
    generalize counts.modify bits (· - 1) = c₁ at *
    have htwo := getD_modify_add (a := c₁) (b := bits + 1) (x := 2) (by omega)
    have hsize₂ : (c₁.modify (bits + 1) (· + 2)).size = 16 := by simpa using hsize₁
    generalize c₁.modify (bits + 1) (· + 2) = c₂ at *
    have hlimit₁ := hone limit
    have hlimit₂ := htwo limit
    rw [if_neg (by omega)] at hlimit₁
    have hthree := getD_modify_pred (a := c₂) (b := limit) (by omega)
    have hsize₃ : (c₂.modify limit (· - 1)).size = 16 := by simpa using hsize₂
    generalize c₂.modify limit (· - 1) = c₃ at *
    have hlimit₃ := hthree limit
    rw [if_pos rfl] at hlimit₃
    have hf₁ := filled_add hused hone limit
    have hf₂ := filled_add (by omega) htwo limit
    have hf₃ := filled_add (by omega) hthree limit
    have hh₁ := handed_add hused hone limit
    have hh₂ := handed_add (by omega) htwo limit
    have hh₃ := handed_add (by omega) hthree limit
    rw [if_pos (by omega)] at hf₁ hf₂ hf₃ hh₁ hh₂ hh₃
    rw [Nat.sub_self] at hf₃
    -- the room of the code that is lengthened is that of the two that are longer by one
    have hpow := two_pow_sub (show bits < limit by omega)
    exact ⟨hsize₃, by omega, by omega, by omega⟩

/-- The repair makes room for all codes that are too many. -/
theorem repair_spec (hlimit : limit ≤ 15) (hsize : counts.size = 16)
    (hfilled : filled (counts.getD · 0) limit = 2 ^ limit + e) (he : e ≤ counts.getD limit 0)
    (hhanded : handed (counts.getD · 0) limit ≤ 2 ^ limit) (hfuel : e ≤ fuel) :
    filled ((repair limit fuel (2 * e) counts).getD · 0) limit = 2 ^ limit ∧
      handed ((repair limit fuel (2 * e) counts).getD · 0) limit =
        handed (counts.getD · 0) limit := by
  induction fuel generalizing e counts with
  | zero =>
    obtain rfl : e = 0 := by omega
    exact ⟨hfilled, rfl⟩
  | succ fuel ih =>
    rw [repair_succ]
    split
    · next hzero =>
      obtain rfl : e = 0 := by simpa using hzero
      exact ⟨hfilled, rfl⟩
    · next hpos =>
      obtain ⟨e, rfl⟩ : ∃ n, e = n + 1 := ⟨e - 1, by simp at hpos; omega⟩
      obtain ⟨hsize', hfilled', hhanded', hlongest⟩ :=
        repairStep_spec hlimit hsize (by omega) (by omega) hhanded
      rw [show 2 * (e + 1) - 2 = 2 * e by omega, ← hhanded']
      exact ih hsize' (by omega) (by omega) (by omega) (by omega)

end Counts

/-! ### Lengths for some symbols -/

section Lengths

variable {lengths : Array Nat} {ss : List Nat} {v : Nat → Nat} {k limit bits : Nat}

theorem fill_set {ls : List Nat} {s : Nat} (hlt : s < ls.length) (hs : ls.getD s 0 = 0) (k x : Nat) :
    fill k (ls.set s x) = fill k ls + weight k x := by
  induction ls generalizing s with
  | nil => simp at hlt
  | cons l ls ih =>
    cases s with
    | zero =>
      obtain rfl : l = 0 := by simpa using hs
      simp [fill, weight]
      omega
    | succ s =>
      have ih := ih (by simpa using hlt) (by simpa using hs)
      simp only [fill, List.set_cons_succ, List.map_cons, List.sum_cons] at ih ⊢
      omega

/-- What is entered for symbols that had no length is what they have then. -/
theorem foldl_setIfInBounds (hnodup : ss.Nodup) (hlt : ∀ s ∈ ss, s < lengths.size)
    (hzero : ∀ s ∈ ss, lengths.getD s 0 = 0) (k : Nat) :
    let entered := ss.foldl (fun ls s => ls.setIfInBounds s (v s)) lengths
    entered.size = lengths.size ∧
      (∀ s, entered.getD s 0 = if s ∈ ss then v s else lengths.getD s 0) ∧
      fill k entered.toList = fill k lengths.toList + (ss.map fun s => weight k (v s)).sum := by
  induction ss generalizing lengths with
  | nil => simp
  | cons x ss ih =>
    obtain ⟨hx, hnodup⟩ := List.nodup_cons.mp hnodup
    have hxlt := hlt x (List.mem_cons_self ..)
    have hset : ∀ s, (lengths.setIfInBounds x (v x)).getD s 0 =
        if s = x then v x else lengths.getD s 0 := by
      intro s
      rw [getD_setIfInBounds]
      by_cases hs : x = s
      · rw [if_pos ⟨hs, hs ▸ hxlt⟩, if_pos hs.symm]
      · rw [if_neg fun h => hs h.1, if_neg (Ne.symm hs)]
    have hne : ∀ s ∈ ss, s ≠ x := fun s hs h => hx (h ▸ hs)
    obtain ⟨hsize, hget, hfill⟩ := @ih (lengths.setIfInBounds x (v x)) hnodup
      (fun s hs => by simpa using hlt s (List.mem_cons_of_mem _ hs))
      (fun s hs => by
        rw [hset, if_neg (hne s hs)]
        exact hzero s (List.mem_cons_of_mem _ hs))
    rw [List.foldl_cons]
    refine ⟨hsize.trans (by simp), fun s => ?_, hfill.trans ?_⟩
    · rw [hget, hset]
      by_cases hs : s ∈ ss
      · rw [if_pos hs, if_pos (List.mem_cons_of_mem _ hs)]
      · rw [if_neg hs]
        by_cases hsx : s = x
        · rw [if_pos hsx, if_pos (by simp [hsx]), hsx]
        · rw [if_neg hsx, if_neg (by simp [hsx, hs])]
    · rw [Array.toList_setIfInBounds, fill_set (by simpa using hxlt), List.map_cons, List.sum_cons,
        Nat.add_assoc]
      rw [List.getD_eq_getElem?_getD, Array.getElem?_toList, ← Array.getD_eq_getD_getElem?]
      exact hzero x (List.mem_cons_self ..)

/-- Handing out so many lengths to so many symbols. -/
theorem handOut_spec {counts : Array Nat} (hnodup : ss.Nodup)
    (hlt : ∀ s ∈ ss, s < lengths.size) (hzero : ∀ s ∈ ss, lengths.getD s 0 = 0)
    (hlength : ss.length = handed (counts.getD · 0) bits) (hbits : bits ≤ limit) :
    let out := handOut counts bits ss lengths
    out.size = lengths.size ∧ (∀ s ∈ ss, out.getD s 0 ≠ 0 ∧ out.getD s 0 ≤ bits) ∧
      (∀ s, s ∉ ss → out.getD s 0 = lengths.getD s 0) ∧
      fill limit out.toList =
        fill limit lengths.toList + filled (counts.getD · 0) bits * 2 ^ (limit - bits) := by
  induction bits generalizing ss lengths with
  | zero =>
    obtain rfl : ss = [] := List.eq_nil_of_length_eq_zero hlength
    simp [handOut, filled]
  | succ bits ih =>
    rw [handOut]
    dsimp only
    set n := counts.getD (bits + 1) 0 with hn
    rw [handed] at hlength
    have htake : (ss.take n).length = n := by
      rw [List.length_take]
      omega
    have hsplit := List.take_append_drop n ss
    have hmemTake : ∀ s ∈ ss.take n, s ∈ ss := fun s hs => List.mem_of_mem_take hs
    have hmemDrop : ∀ s ∈ ss.drop n, s ∈ ss := fun s hs => List.mem_of_mem_drop hs
    have hdisjoint : ∀ s ∈ ss.drop n, s ∉ ss.take n := by
      rw [← hsplit] at hnodup
      exact fun s hs hs' => (List.nodup_append.mp hnodup).2.2 s hs' s hs rfl
    obtain ⟨hsize, hget, hfill⟩ := foldl_setIfInBounds (v := fun _ => bits + 1)
      (hnodup.sublist (List.take_sublist n ss)) (fun s hs => hlt s (hmemTake s hs))
      (fun s hs => hzero s (hmemTake s hs)) limit
    generalize (ss.take n).foldl (fun ls s => ls.setIfInBounds s (bits + 1)) lengths = given at *
    obtain ⟨hsize', hgiven, hkept, hfill'⟩ := @ih given (ss.drop n)
      (hnodup.sublist (List.drop_sublist n ss))
      (fun s hs => hsize ▸ hlt s (hmemDrop s hs))
      (fun s hs => by rw [hget, if_neg (hdisjoint s hs)]; exact hzero s (hmemDrop s hs))
      (by rw [List.length_drop]; omega) (by omega)
    have hmem : ∀ s, s ∈ ss ↔ s ∈ ss.take n ∨ s ∈ ss.drop n := by
      intro s
      rw [← List.mem_append, hsplit]
    refine ⟨hsize'.trans hsize, fun s hs => ?_, fun s hs => ?_, ?_⟩
    · by_cases hdrop : s ∈ ss.drop n
      · obtain ⟨hne, hle⟩ := hgiven s hdrop
        exact ⟨hne, by omega⟩
      · rw [hkept s hdrop, hget, if_pos (((hmem s).mp hs).resolve_right hdrop)]
        omega
    · rw [hmem, not_or] at hs
      rw [hkept s hs.2, hget, if_neg hs.1]
    · have hsum : ((ss.take n).map fun _ => weight limit (bits + 1)).sum =
          n * 2 ^ (limit - (bits + 1)) := by
        rw [List.map_const', List.sum_replicate_nat, htake, weight, if_neg (by omega)]
      rw [hfill', hfill, hsum, filled, two_pow_sub hbits, ← hn]
      ring

end Lengths

/-! ### The lengths of a code -/

section Main

variable {frequencies : Array Nat} {limit : Nat}

/-- Enough symbols get a code, and all that occur. -/
theorem coded_spec (h : 3 ≤ frequencies.size) :
    (coded frequencies).Nodup ∧ (∀ s ∈ coded frequencies, s < frequencies.size) ∧
      2 ≤ (coded frequencies).length ∧
      ∀ s, frequencies.getD s 0 ≠ 0 → s ∈ coded frequencies := by
  have hmem : ∀ s, s ∈ (List.range frequencies.size).filter (frequencies.getD · 0 != 0) ↔
      s < frequencies.size ∧ frequencies.getD s 0 ≠ 0 := by
    intro s
    rw [List.mem_filter, List.mem_range, bne_iff_ne]
  have hnodup : ((List.range frequencies.size).filter (frequencies.getD · 0 != 0)).Nodup :=
    List.nodup_range.filter _
  have hin : ∀ s, frequencies.getD s 0 ≠ 0 → s < frequencies.size := by
    intro s hs
    by_contra hge
    exact hs (by rw [Array.getD_eq_getD_getElem?, Array.getElem?_eq_none (by omega)]; rfl)
  rw [coded]
  generalize (List.range frequencies.size).filter (frequencies.getD · 0 != 0) = occurring at *
  split
  · refine ⟨by simp, by simp; omega, by simp, fun s hs => ?_⟩
    exact absurd ((hmem s).mpr ⟨hin s hs, hs⟩) (by simp)
  · next n =>
    have hn := ((hmem n).mp (by simp)).1
    have hall : ∀ s, frequencies.getD s 0 ≠ 0 → s = n := fun s hs => by
      simpa using (hmem s).mpr ⟨hin s hs, hs⟩
    split
    · refine ⟨by simp, by simp; omega, by simp, fun s hs => ?_⟩
      simp [hall s hs]
    · refine ⟨by simp; omega, by simp; omega, by simp, fun s hs => ?_⟩
      simp [hall s hs]
  · next hnil hone =>
    refine ⟨hnodup, fun s hs => ((hmem s).mp hs).1, ?_, fun s hs => (hmem s).mpr ⟨hin s hs, hs⟩⟩
    rcases occurring with _ | ⟨n, _ | ⟨m, rest⟩⟩
    · exact absurd rfl hnil
    · exact absurd rfl (hone n)
    · simp

/-- Lengths within a limit whose codes take all the room there is. -/
structure Complete (limit : Nat) (ls : List Nat) : Prop where
  le_limit : ∀ l ∈ ls, l ≤ limit
  fill_eq : fill limit ls = 2 ^ limit

namespace Complete

variable {ls : List Nat}

theorem fill_add (h : Complete limit ls) (n : Nat) : fill (limit + n) ls = 2 ^ (limit + n) := by
  induction n with
  | zero => exact h.fill_eq
  | succ n ih =>
    have hcount : ls.count (limit + n + 1) = 0 :=
      List.count_eq_zero_of_not_mem fun hmem => by
        have := h.le_limit _ hmem
        omega
    rw [← Nat.add_assoc, fill_succ, ih, hcount, Nat.pow_succ]
    omega

theorem fill_fifteen (h : Complete limit ls) (hlimit : limit ≤ 15) : fill 15 ls = 2 ^ 15 := by
  have hfill := h.fill_add (15 - limit)
  rwa [show limit + (15 - limit) = 15 by omega] at hfill

theorem prefixFree (h : Complete limit ls) (hlimit : limit ≤ 15) : PrefixFree ls :=
  ⟨fun l hl => (h.le_limit l hl).trans hlimit, (h.fill_fifteen hlimit).le⟩

theorem room_eq (h : Complete limit ls) (hlimit : limit ≤ 15) : (Code.ofLengths ls).room = 0 := by
  rw [room_ofLengths (h.prefixFree hlimit).le_limit, h.fill_fifteen hlimit]
  rfl

end Complete

variable {leaves : List Nat} {acc : Array Nat × Nat} {elements : Nat}

/-- How many leaves there are of each depth. -/
theorem foldl_modify_depth {d : Nat → Nat} (hlimit : limit ≤ 15)
    (hd : ∀ n ∈ leaves, 1 ≤ d n ∧ d n ≤ limit) {counts : Array Nat} (hsize : counts.size = 16) :
    let counted := leaves.foldl (fun cs n => cs.modify (d n) (· + 1)) counts
    counted.size = 16 ∧
      filled (counted.getD · 0) limit =
        filled (counts.getD · 0) limit + (leaves.map fun n => 2 ^ (limit - d n)).sum ∧
      handed (counted.getD · 0) limit = handed (counts.getD · 0) limit + leaves.length ∧
      counted.getD limit 0 = counts.getD limit 0 + leaves.countP fun n => d n == limit := by
  induction leaves generalizing counts with
  | nil => exact ⟨hsize, rfl, rfl, rfl⟩
  | cons n leaves ih =>
    obtain ⟨hpos, hle⟩ := hd n (List.mem_cons_self ..)
    have hadd := getD_modify_add (a := counts) (b := d n) (x := 1) (by omega)
    have hfilled := filled_add hpos hadd limit
    have hhanded := handed_add hpos hadd limit
    have hlongest := hadd limit
    rw [if_pos hle] at hfilled hhanded
    obtain ⟨hsize', hfilled', hhanded', hlongest'⟩ :=
      @ih (fun n hn => hd n (List.mem_cons_of_mem _ hn)) (counts.modify (d n) (· + 1)) (by simpa)
    rw [List.foldl_cons]
    refine ⟨hsize', ?_, ?_, ?_⟩
    · rw [hfilled', List.map_cons, List.sum_cons]
      omega
    · rw [hhanded', List.length_cons]
      omega
    · rw [hlongest', List.countP_cons, hlongest]
      by_cases hn : d n = limit
      · rw [if_pos hn.symm, if_pos (by simpa using hn)]
        omega
      · rw [if_neg (Ne.symm hn), if_neg (by simpa using hn)]
        omega

/-- Lengths within the limit that some symbols have, and no others, and that take all the room
there is. -/
structure Lengthened (limit elements : Nat) (symbols : List Nat) (lengths : Array Nat) : Prop where
  size_eq : lengths.size = elements
  given : ∀ s ∈ symbols, lengths.getD s 0 ≠ 0 ∧ lengths.getD s 0 ≤ limit
  kept : ∀ s, s ∉ symbols → lengths.getD s 0 = 0
  fill_eq : fill limit lengths.toList = 2 ^ limit

theorem Lengthened.complete {out : Array Nat} (h : Lengthened limit elements leaves out) :
    Complete limit out.toList := by
  refine ⟨fun l hl => ?_, h.fill_eq⟩
  obtain ⟨s, hs⟩ := List.mem_iff_getElem?.mp hl
  have hget : out.getD s 0 = l := by
    rw [Array.getD_eq_getD_getElem?, ← Array.getElem?_toList, hs]
    rfl
  by_cases hmem : s ∈ leaves
  · exact hget ▸ (h.given s hmem).2
  · rw [← hget, h.kept s hmem]
    exact Nat.zero_le limit

theorem fill_replicate_zero (k n : Nat) : fill k (Array.replicate n 0).toList = 0 := by
  rw [Array.toList_replicate, fill_replicate, weight, if_pos (.inl rfl), Nat.mul_zero]

namespace Levelled

variable (h : Levelled limit leaves acc) (hnodup : leaves.Nodup)
  (hlt : ∀ s ∈ leaves, s < elements) (htwo : 2 ≤ leaves.length)

include h htwo in
theorem depth_spec : ∀ s ∈ leaves, 1 ≤ acc.1.getD s 0 ∧ acc.1.getD s 0 ≤ limit := fun s hs =>
  ⟨h.pos htwo s hs, h.le_limit s hs⟩

include h hnodup hlt htwo

/-- Where nothing was cut, the depths are the lengths. -/
theorem lengthened_depths (huncut : acc.2 = 0) : Lengthened limit elements leaves
    (leaves.foldl (fun ls n => ls.setIfInBounds n (acc.1.getD n 0))
      (Array.replicate elements 0)) := by
  have hdepth := h.depth_spec htwo
  have hsum := h.sum_eq
  obtain ⟨hsize, hget, hfill⟩ := foldl_setIfInBounds (v := (acc.1.getD · 0)) hnodup
    (show ∀ s ∈ leaves, s < (Array.replicate elements 0).size by simpa using hlt)
    (fun s _ => getD_replicate elements s) limit
  refine ⟨hsize.trans (by simp), fun s hs => ?_, fun s hs => ?_, ?_⟩
  · rw [hget, if_pos hs]
    have := hdepth s hs
    omega
  · rw [hget, if_neg hs, getD_replicate]
  · have hweights : (leaves.map fun s => weight limit (acc.1.getD s 0)) =
        leaves.map fun s => 2 ^ (limit - acc.1.getD s 0) :=
      List.map_congr_left fun s hs => by
        rw [weight, if_neg]
        have := hdepth s hs
        omega
    rw [hfill, fill_replicate_zero, hweights, hsum, huncut]
    simp

/-- Where nodes were cut, the lengths are handed out once the counts are repaired. -/
theorem lengthened_handOut (hlimit : limit ≤ 15) (hroom : elements ≤ 2 ^ limit) :
    Lengthened limit elements leaves
      (handOut (repair limit elements acc.2
          (leaves.foldl (fun cs n => cs.modify (acc.1.getD n 0) (· + 1)) (Array.replicate 16 0)))
        limit leaves.reverse (Array.replicate elements 0)) := by
  obtain ⟨e, he⟩ : ∃ e, acc.2 = 2 * e := ⟨acc.2 / 2, by have := h.even; omega⟩
  have hsum := h.sum_eq
  have hlongest := h.le_longest
  rw [he, Nat.mul_div_cancel_left e (by omega)] at hsum hlongest
  rw [he]
  have hlength := length_le_of_lt hnodup hlt
  have hcountP := List.countP_le_length (l := leaves) (p := fun r => acc.1.getD r 0 == limit)
  -- the counts are those of the leaves
  obtain ⟨hsize, hfilled, hhanded, hcount⟩ :=
    foldl_modify_depth hlimit (h.depth_spec htwo) (show (Array.replicate 16 0).size = 16 by simp)
  obtain ⟨hfilled₀, hhanded₀⟩ :=
    filled_of_unused (c := ((Array.replicate 16 0).getD · 0)) (k := limit)
      fun l _ _ => getD_replicate 16 l
  rw [hfilled₀, Nat.zero_add, hsum] at hfilled
  rw [hhanded₀, Nat.zero_add] at hhanded
  rw [getD_replicate, Nat.zero_add] at hcount
  generalize leaves.foldl (fun cs n => cs.modify (acc.1.getD n 0) (· + 1)) (Array.replicate 16 0) =
    counts at *
  obtain ⟨hrepaired, hsame⟩ := repair_spec hlimit hsize hfilled (by omega) (by omega)
    (show e ≤ elements by omega)
  obtain ⟨hsize', hgiven, hkept, hfill⟩ := handOut_spec (List.nodup_reverse.mpr hnodup)
    (show ∀ s ∈ leaves.reverse, s < (Array.replicate elements 0).size by simpa using hlt)
    (fun s _ => getD_replicate elements s)
    (show leaves.reverse.length = handed ((repair limit elements (2 * e) counts).getD · 0) limit
      by rw [List.length_reverse, hsame, hhanded])
    (Nat.le_refl limit)
  refine ⟨hsize'.trans (by simp), fun s hs => hgiven s (by simpa using hs), fun s hs => ?_, ?_⟩
  · rw [hkept s (by simpa using hs), getD_replicate]
  · rw [hfill, fill_replicate_zero, hrepaired]
    simp

end Levelled

/-- The symbols that get a code, each as a tree of its own. -/
def seedlings (frequencies : Array Nat) : Forest where
  heap := (0 :: coded frequencies).toArray
  size := (coded frequencies).length
  frequency :=
    (coded frequencies).foldl (fun fs n => if fs.getD n 0 == 0 then fs.setIfInBounds n 1 else fs)
      frequencies ++ Array.replicate (frequencies.size + 1) 0
  depth := Array.replicate (2 * frequencies.size + 1) 0
  parent := Array.replicate (2 * frequencies.size + 1) 0

/-- The forest in which all trees have been joined. -/
def joinedTree (frequencies : Array Nat) : Forest :=
  Forest.joinAll (2 * frequencies.size) frequencies.size
    (Forest.settleAll ((coded frequencies).length / 2) (seedlings frequencies))

theorem codeLengths_eq (limit : Nat) (frequencies : Array Nat) : codeLengths limit frequencies =
    let leaves := (joinedTree frequencies).taken.filter (· < frequencies.size)
    let (depths, overflow) := cutDepths limit (joinedTree frequencies)
    if overflow == 0 then
      leaves.foldl (fun ls n => ls.setIfInBounds n (depths.getD n 0))
        (Array.replicate frequencies.size 0)
    else
      handOut (repair limit frequencies.size overflow
          (leaves.foldl (fun cs n => cs.modify (depths.getD n 0) (· + 1)) (Array.replicate 16 0)))
        limit leaves.reverse (Array.replicate frequencies.size 0) := rfl

/-- The leaves of the tree in the end are the symbols that get a code. -/
theorem joinedTree_spec (h : 3 ≤ frequencies.size) (hlimit : 1 ≤ limit) :
    ((joinedTree frequencies).taken.filter (· < frequencies.size)).Perm (coded frequencies) ∧
      Levelled limit ((joinedTree frequencies).taken.filter (· < frequencies.size))
        (cutDepths limit (joinedTree frequencies)) := by
  obtain ⟨hnodup, hlt, htwo, -⟩ := coded_spec h
  have hlength := length_le_of_lt hnodup hlt
  have hfits : (seedlings frequencies).size < (seedlings frequencies).heap.size := by
    simp [seedlings]
  have hroots : (seedlings frequencies).roots = coded frequencies := by
    simp [seedlings, Forest.roots]
  have hparent : (seedlings frequencies).parent.size = 2 * frequencies.size + 1 := by
    simp [seedlings]
  have hsize : (seedlings frequencies).size = (coded frequencies).length := rfl
  -- the heap is ordered first
  have hsettled := Forest.settleAll_rearranged hfits
    (show (coded frequencies).length / 2 ≤ (seedlings frequencies).size by omega)
  rw [joinedTree]
  generalize Forest.settleAll _ (seedlings frequencies) = f₁ at hsettled ⊢
  have hroots₁ : f₁.roots.Perm (coded frequencies) := hroots ▸ hsettled.perm
  have hsound : f₁.Sound frequencies.size := by
    refine ⟨?_, ?_, hroots₁.nodup_iff.mpr hnodup, fun r hr => hlt r (hroots₁.mem_iff.mp hr), ?_⟩
    · rw [hsettled.size_eq]
      omega
    · rw [hsettled.size_eq, hsettled.heap_size]
      exact hfits
    · rw [hsettled.size_eq, hsettled.parent_eq]
      omega
  have hgrown := hsound.grown hlimit (Nat.le_refl _)
    (show f₁.size ≤ 2 * frequencies.size by rw [hsettled.size_eq]; omega)
  generalize Forest.joinAll _ _ f₁ = f at hgrown ⊢
  obtain ⟨root, top, htaken, hlevelled, hleaves⟩ := hgrown.taken
  rw [hsettled.taken_eq, show (seedlings frequencies).taken = [] from rfl, List.append_nil] at htaken
  have hkeep : f₁.roots.filter (· < frequencies.size) = f₁.roots :=
    List.filter_eq_self.mpr fun r hr => by simpa using hsound.lt_node r hr
  have hperm : (f.taken.filter (· < frequencies.size)).Perm f₁.roots :=
    htaken ▸ hkeep ▸ hleaves
  refine ⟨hperm.trans hroots₁, ?_⟩
  rw [cutDepths_eq, htaken, List.drop_succ_cons, List.drop_zero]
  exact hlevelled.perm (htaken ▸ hperm)

/-- The code lengths for some frequencies make a complete code for all symbols that occur. -/
theorem codeLengths_spec (hsize : 3 ≤ frequencies.size) (hone : 1 ≤ limit) (hlimit : limit ≤ 15)
    (hroom : frequencies.size ≤ 2 ^ limit) :
    (codeLengths limit frequencies).size = frequencies.size ∧
      Complete limit (codeLengths limit frequencies).toList ∧
      ∀ s, frequencies.getD s 0 ≠ 0 → (codeLengths limit frequencies).getD s 0 ≠ 0 := by
  obtain ⟨hnodup, hlt, htwo, hoccur⟩ := coded_spec hsize
  obtain ⟨hperm, hlevelled⟩ := joinedTree_spec hsize hone
  have hcoded : Lengthened limit frequencies.size
      ((joinedTree frequencies).taken.filter (· < frequencies.size))
      (codeLengths limit frequencies) := by
    have hnodup := hperm.nodup_iff.mpr hnodup
    have hlt := fun s hs => hlt s (hperm.mem_iff.mp hs)
    have htwo := hperm.length_eq ▸ htwo
    rw [codeLengths_eq]
    dsimp only
    split
    · next huncut =>
      exact hlevelled.lengthened_depths hnodup hlt htwo (by simpa using huncut)
    · exact hlevelled.lengthened_handOut hnodup hlt htwo hlimit hroom
  exact ⟨hcoded.size_eq, hcoded.complete, fun s hs =>
    (hcoded.given s (hperm.mem_iff.mpr (hoccur s hs))).1⟩

end Main

end HotSwap.Codec.Deflate
