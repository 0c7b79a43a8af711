/-
The description of a block's own codes can be read.

The lengths of both codes are written as symbols for single lengths and for repetitions, with a
code whose lengths come first.

* `LengthSymbol.Means`, `Describes` — the lengths that a symbol, or a list of them, stands for;
* `describes_lengthSymbols` — the symbols that are written stand for the lengths;
* `takeLengths_bits` — they are read back as the lengths;
* `takeCodes_bits` — both codes are read back from their description.
-/
import Mathlib.Data.List.TakeWhile
import HotSwap.Proofs.Codec.CodeLengths

namespace HotSwap.Codec.Deflate

variable {last : Option Nat} {syms syms' : List LengthSymbol} {ls ls' : List Nat} {fuel : Nat}

/-! ### Symbols for lengths -/

/-- A symbol stands for so many equal lengths, where the last one before is `last`. -/
inductive LengthSymbol.Means : (last : Option Nat) → LengthSymbol → (length count : Nat) → Prop
  | one {last : Option Nat} {l : Nat} (h : l < 16) : Means last { symbol := l } l 1
  | again {l v : Nat} (h : v < 4) :
      Means (some l) { symbol := 16, extra := 2, value := v } l (v + 3)
  | zeros {last : Option Nat} {v : Nat} (h : v < 8) :
      Means last { symbol := 17, extra := 3, value := v } 0 (v + 3)
  | manyZeros {last : Option Nat} {v : Nat} (h : v < 128) :
      Means last { symbol := 18, extra := 7, value := v } 0 (v + 11)

/-- Symbols stand for some lengths, where the last one before is `last`. -/
inductive Describes : (last : Option Nat) → List LengthSymbol → List Nat → Prop
  | nil {last : Option Nat} : Describes last [] []
  | cons {last : Option Nat} {s : LengthSymbol} {l n : Nat} {syms : List LengthSymbol}
      {ls : List Nat} (h : s.Means last l n) (hs : Describes (some l) syms ls) :
      Describes last (s :: syms) (List.replicate n l ++ ls)

namespace Describes

theorem append (h : Describes last syms ls) (h' : ∀ last, Describes last syms' ls') :
    Describes last (syms ++ syms') (ls ++ ls') := by
  induction h with
  | nil => exact h' _
  | cons h _ ih =>
    rw [List.append_assoc]
    exact .cons h ih

theorem length_le (h : Describes last syms ls) : syms.length ≤ ls.length := by
  induction h with
  | nil => exact Nat.le_refl 0
  | cons h _ ih =>
    rw [List.length_cons, List.length_append, List.length_replicate]
    cases h <;> omega

theorem symbol_lt (h : Describes last syms ls) : ∀ s ∈ syms, s.symbol < 19 := by
  induction h with
  | nil => simp
  | cons h _ ih =>
    intro s hs
    rcases List.mem_cons.mp hs with rfl | hs
    · cases h with
      | one hl => exact hl.trans (by decide)
      | again _ => exact (by decide : 16 < 19)
      | zeros _ => exact (by decide : 17 < 19)
      | manyZeros _ => exact (by decide : 18 < 19)
    · exact ih s hs

/-- So many lengths, one symbol for each. -/
theorem replicate {l : Nat} (hl : l < 16) (n : Nat) (last : Option Nat) :
    Describes last (List.replicate n { symbol := l }) (List.replicate n l) := by
  induction n generalizing last with
  | zero => exact .nil
  | succ n ih => exact .cons (.one hl) (ih (some l))

end Describes

/-- The symbols for a run stand for it; where they stand for a repetition from the start, it is
one of the length before. -/
theorem describes_runSymbols {l count : Nat} (hl : l < 16) (hfuel : count < fuel)
    (repeated : Bool) (hlast : repeated = true → last = some l) :
    Describes last (runSymbols l fuel repeated count) (List.replicate count l) := by
  induction fuel generalizing count repeated last with
  | zero => omega
  | succ fuel ih =>
    have hrest : ∀ n, 1 ≤ n → n ≤ count → ∀ again,
        Describes (some l) (runSymbols l fuel again (count - n)) (List.replicate (count - n) l) :=
      fun n hn hle again => ih (by omega) again fun _ => rfl
    have hsplit : ∀ n, n ≤ count →
        List.replicate count l = List.replicate n l ++ List.replicate (count - n) l := by
      intro n hn
      rw [← List.replicate_add, Nat.add_sub_of_le hn]
    rw [runSymbols]
    split
    · next hzero =>
      obtain rfl : count = 0 := by simpa using hzero
      exact .nil
    split
    · next hl0 =>
      obtain rfl : l = 0 := by simpa using hl0
      split
      · exact .replicate hl count last
      split
      · next hfew hten =>
        have hmeans : LengthSymbol.Means last _ 0 (count - 3 + 3) := .zeros (by omega)
        rw [Nat.sub_add_cancel (by omega)] at hmeans
        rw [hsplit count (Nat.le_refl _), Nat.sub_self]
        exact .cons hmeans .nil
      · next hfew hmany =>
        have hmeans : LengthSymbol.Means last _ 0 (min count 138 - 11 + 11) :=
          .manyZeros (by omega)
        rw [Nat.sub_add_cancel (by omega)] at hmeans
        rw [hsplit (min count 138) (by omega)]
        exact .cons hmeans (hrest _ (by omega) (by omega) _)
    split
    · next hrepeated =>
      split
      · exact .replicate hl count last
      · next hthree =>
        have hmeans : LengthSymbol.Means (some l) _ l (min count 6 - 3 + 3) := .again (by omega)
        rw [Nat.sub_add_cancel (by omega), ← hlast hrepeated] at hmeans
        rw [hsplit (min count 6) (by omega)]
        exact .cons hmeans (hrest _ (by omega) (by omega) _)
    split
    · exact .replicate hl count last
    · next hfour =>
      -- one length, and the repetition of it
      have hmeans : LengthSymbol.Means (some l) _ l (min count 7 - 4 + 3) := .again (by omega)
      have hsplit' : List.replicate count l = List.replicate 1 l ++
          (List.replicate (min count 7 - 4 + 3) l ++ List.replicate (count - min count 7) l) := by
        rw [← List.replicate_add, ← List.replicate_add]
        congr 1
        omega
      rw [hsplit']
      exact .cons (.one hl) (.cons hmeans (hrest _ (by omega) (by omega) _))

theorem flatMap_runs (ls : List Nat) :
    (runs ls).flatMap (fun r => List.replicate r.2 r.1) = ls := by
  induction ls with
  | nil => rfl
  | cons x ls ih =>
    rw [runs]
    split
    · next y n more hruns =>
      rw [hruns] at ih
      split
      · next hxy =>
        obtain rfl : x = y := by simpa using hxy
        rw [List.flatMap_cons, List.replicate_succ, List.cons_append]
        rw [List.flatMap_cons] at ih
        rw [ih]
      · rw [List.flatMap_cons, ih]
        rfl
    · next hruns =>
      rw [hruns] at ih
      rw [← ih]
      rfl

theorem mem_runs {r : Nat × Nat} (h : r ∈ runs ls) : r.1 ∈ ls := by
  induction ls generalizing r with
  | nil => simp [runs] at h
  | cons x ls ih =>
    rw [runs] at h
    split at h
    · next y n more hruns =>
      rw [hruns] at ih
      split at h
      · next hxy =>
        obtain rfl : x = y := by simpa using hxy
        rcases List.mem_cons.mp h with rfl | h
        · exact List.mem_cons_self ..
        · exact List.mem_cons_of_mem _ (ih (List.mem_cons_of_mem _ h))
      · rcases List.mem_cons.mp h with rfl | h
        · exact List.mem_cons_self ..
        · exact List.mem_cons_of_mem _ (ih h)
    · obtain rfl := List.mem_singleton.mp h
      exact List.mem_cons_self ..

/-- The symbols for some lengths stand for them, whatever was before. -/
theorem describes_lengthSymbols (h : ∀ l ∈ ls, l ≤ 15) (last : Option Nat) :
    Describes last (lengthSymbols ls) ls := by
  have hruns : ∀ rs : List (Nat × Nat), (∀ r ∈ rs, r.1 < 16) → ∀ last,
      Describes last (rs.flatMap fun r => runSymbols r.1 (r.2 + 1) false r.2)
        (rs.flatMap fun r => List.replicate r.2 r.1) := by
    intro rs hrs
    induction rs with
    | nil => exact fun _ => .nil
    | cons r rs ih =>
      intro last
      rw [List.flatMap_cons, List.flatMap_cons]
      refine Describes.append ?_ (ih fun r' hr' => hrs r' (List.mem_cons_of_mem _ hr'))
      exact describes_runSymbols (hrs r (List.mem_cons_self ..)) (Nat.lt_succ_self _) false (by simp)
  have hall := hruns (runs ls) (fun r hr => Nat.lt_succ_of_le (h _ (mem_runs hr))) last
  rwa [flatMap_runs] at hall

/-! ### Reading the lengths -/

variable {lls : List Nat} {total : Nat} {found : List Nat}

/-- The bits of a symbol for lengths. -/
def LengthSymbol.bits (lls : List Nat) (s : LengthSymbol) : List Bool :=
  symbolBits lls s.symbol ++ numberBits s.extra s.value

/-- How the reader takes a symbol: as a length, or as a repetition. -/
theorem LengthSymbol.Means.reading {s : LengthSymbol} {l n : Nat} (h : s.Means last l n) :
    s = { symbol := l } ∧ l < 16 ∧ n = 1 ∨
      ¬ s.symbol < 16 ∧ ∃ base, (if s.symbol == 16 then (last, 2, 3)
          else if s.symbol == 17 then (some 0, 3, 3) else (some 0, 7, 11)) =
        (some l, s.extra, base) ∧ base + s.value = n ∧ s.value < 2 ^ s.extra := by
  cases h with
  | one hl => exact .inl ⟨rfl, hl, rfl⟩
  | again hv => exact .inr ⟨by simp, 3, rfl, Nat.add_comm .., hv⟩
  | zeros hv => exact .inr ⟨by simp, 3, rfl, Nat.add_comm .., hv⟩
  | manyZeros hv => exact .inr ⟨by simp, 11, rfl, Nat.add_comm .., hv⟩

theorem LengthSymbol.Means.pos {s : LengthSymbol} {l n : Nat} (h : s.Means last l n) : 1 ≤ n := by
  cases h <;> omega

/-- A symbol is read as the lengths that it stands for. -/
theorem takeLengths_symbol (hlls : PrefixFree lls) {s : LengthSymbol} {l n : Nat}
    (h : s.Means found.head? l n) (hs : lls.getD s.symbol 0 ≠ 0) (hroom : found.length + n ≤ total)
    (rest : List Bool) :
    takeLengths (.ofLengths lls) total (fuel + 1) (s.bits lls ++ rest) found =
      takeLengths (.ofLengths lls) total fuel rest (List.replicate n l ++ found) := by
  have hsymbol := hlls.symbol_symbolBits hs .codeLengthSet (numberBits s.extra s.value ++ rest)
  have hopen : ¬ (found.length == total) = true := by
    have := h.pos
    simp
    omega
  rw [takeLengths, LengthSymbol.bits, List.append_assoc, if_neg hopen, hsymbol]
  simp only [bind, Except.bind]
  rcases h.reading with ⟨rfl, hl, rfl⟩ | ⟨hl, base, hrepeat, hn, hvalue⟩
  · rw [if_pos hl]
    rfl
  · rw [if_neg hl, hrepeat, takeBits_numberBits hvalue]
    dsimp only
    rw [if_neg (by omega), hn]

/-- The lengths that symbols stand for are read from their bits. -/
theorem takeLengths_bits (hlls : PrefixFree lls) (h : Describes found.head? syms ls)
    (hcoded : ∀ s ∈ syms, lls.getD s.symbol 0 ≠ 0) (hroom : found.length + ls.length ≤ total)
    (fuel : Nat) (rest : List Bool) :
    takeLengths (.ofLengths lls) total (fuel + syms.length)
      (syms.flatMap (LengthSymbol.bits lls) ++ rest) found =
        takeLengths (.ofLengths lls) total fuel rest (ls.reverse ++ found) := by
  induction syms generalizing found ls with
  | nil =>
    obtain ⟨⟩ := h
    rfl
  | cons s syms ih =>
    obtain _ | @⟨_, _, l, n, _, ls, hmeans, hdescribes⟩ := h
    rw [List.length_append, List.length_replicate] at hroom
    have hlast : (List.replicate n l ++ found).head? = some l := by
      obtain ⟨n, rfl⟩ : ∃ k, n = k + 1 := ⟨n - 1, by have := hmeans.pos; omega⟩
      rfl
    rw [List.length_cons, ← Nat.add_assoc, List.flatMap_cons, List.append_assoc,
      takeLengths_symbol hlls hmeans (hcoded s (List.mem_cons_self ..)) (by omega),
      ih (hlast ▸ hdescribes) (fun s hs => hcoded s (List.mem_cons_of_mem _ hs))
        (by rw [List.length_append, List.length_replicate]; omega)]
    simp

/-! ### Zeros at the end -/

/-- What is left when the zeros at the end are dropped. -/
theorem exists_dropped_zeros (ls : List Nat) :
    ∃ n, ls = (ls.reverse.dropWhile (· == 0)).reverse ++ List.replicate n 0 := by
  have hzeros : ls.reverse.takeWhile (· == 0) =
      List.replicate (ls.reverse.takeWhile (· == 0)).length 0 :=
    List.eq_replicate_of_mem fun l hl => by simpa using List.mem_takeWhile_imp hl
  have hsplit := congrArg List.reverse (List.takeWhile_append_dropWhile (p := (· == 0))
    (l := ls.reverse))
  rw [List.reverse_append, List.reverse_reverse, hzeros, List.reverse_replicate] at hsplit
  exact ⟨_, hsplit.symm⟩

theorem exists_trimmed (lengths : Array Nat) :
    ∃ n, lengths.toList = trimmed lengths ++ List.replicate n 0 := exists_dropped_zeros _

theorem ofLengths_trimmed (lengths : Array Nat) :
    Code.ofLengths (trimmed lengths) = Code.ofLengths lengths.toList := by
  obtain ⟨n, hn⟩ := exists_trimmed lengths
  rw [hn, ofLengths_append_zeros]

theorem length_trimmed_le (lengths : Array Nat) : (trimmed lengths).length ≤ lengths.size := by
  obtain ⟨n, hn⟩ := exists_trimmed lengths
  have hlength := congrArg List.length hn
  rw [List.length_append, Array.length_toList] at hlength
  omega

theorem getD_trimmed (lengths : Array Nat) (s : Nat) :
    (trimmed lengths).getD s 0 = lengths.getD s 0 := by
  obtain ⟨n, hn⟩ := exists_trimmed lengths
  rw [← getD_toList, hn]
  by_cases h : s < (trimmed lengths).length
  · simp [List.getElem?_append_left h]
  · have h := Nat.le_of_not_lt h
    simp only [List.getD_eq_getElem?_getD, List.getElem?_append_right h, List.getElem?_replicate,
      List.getElem?_eq_none h]
    split
    · rfl
    · rfl

/-! ### Both codes -/

/-- Codes that a block can have of its own. -/
structure Codes.Own (codes : Codes) : Prop where
  literals_size : codes.literalLengths.size = 286
  distances_size : codes.distanceLengths.size = 30
  literals : Complete 15 codes.literalLengths.toList
  distances : Complete 15 codes.distanceLengths.toList
  ends : codes.literalLengths.getD endOfBlock 0 ≠ 0

/-- The bits of a description. -/
def Description.bits (d : Description) : List Bool :=
  numberBits 5 (d.literals.length - 257) ++ (numberBits 5 (d.distances.length - 1) ++
    (numberBits 4 (d.sent - 4) ++
      ((lengthOrder.toList.take d.sent).flatMap (fun s => numberBits 3 (d.lengthLengths.getD s 0)) ++
        d.symbols.flatMap (LengthSymbol.bits d.lengthLengths.toList))))

theorem LengthSymbol.toList_put (lengths : Array Nat) (s : LengthSymbol) (bits : Array Bool) :
    (putBits s.extra s.value (putCode (lengths.getD s.symbol 0)
      ((canonicalCodes lengths).getD s.symbol 0) bits)).toList =
        bits.toList ++ s.bits lengths.toList := by
  simp only [toList_putBits, toList_putCode, LengthSymbol.bits, symbolBits, Array.toArray_toList,
    getD_toList, List.append_assoc]

theorem Description.toList_put (d : Description) (bits : Array Bool) :
    (d.put bits).toList = bits.toList ++ d.bits := by
  rw [put, toList_foldl fun bits s => LengthSymbol.toList_put d.lengthLengths s bits,
    toList_foldl fun bits s => toList_putBits 3 (d.lengthLengths.getD s 0) bits]
  simp only [toList_putBits, Description.bits, List.append_assoc]

/-- What is known of the description of two codes. -/
structure Description.Sound (codes : Codes) (d : Description) : Prop where
  literals_eq : d.literals = trimmed codes.literalLengths
  distances_eq : d.distances = trimmed codes.distanceLengths
  describes : Describes none d.symbols (d.literals ++ d.distances)
  lengthLengths_size : d.lengthLengths.size = 19
  complete : Complete 7 d.lengthLengths.toList
  coded : ∀ s ∈ d.symbols, d.lengthLengths.getD s.symbol 0 ≠ 0
  four_le_sent : 4 ≤ d.sent
  sent_le : d.sent ≤ 19
  unsent : ∀ s ∈ lengthOrder.toList.drop d.sent, d.lengthLengths.getD s 0 = 0

/-- How often symbols were counted. -/
theorem getD_foldl_modify {α : Type} (f : α → Nat) (xs : List α) (counts : Array Nat) :
    let counted := xs.foldl (fun cs x => cs.modify (f x) (· + 1)) counts
    counted.size = counts.size ∧ ∀ k < counts.size,
      counted.getD k 0 = counts.getD k 0 + xs.countP fun x => f x == k := by
  induction xs generalizing counts with
  | nil => exact ⟨rfl, fun _ _ => rfl⟩
  | cons x xs ih =>
    obtain ⟨hsize, hget⟩ := ih (counts.modify (f x) (· + 1))
    rw [Array.size_modify] at hsize hget
    rw [List.foldl_cons]
    refine ⟨hsize, fun k hk => ?_⟩
    rw [hget k hk, getD_modify, List.countP_cons]
    by_cases hx : f x = k
    · rw [if_pos ⟨hx, hk⟩, if_pos (by simpa using hx)]
      omega
    · rw [if_neg fun h => hx h.1, if_neg (by simpa using hx)]
      omega

/-- The lengths behind those that are sent are zeros. -/
theorem eq_zero_of_unsent {lengths : Array Nat} {order : List Nat} {sent : Nat}
    (h : ((order.map (lengths.getD · 0)).reverse.dropWhile (· == 0)).length ≤ sent) :
    ∀ s ∈ order.drop sent, lengths.getD s 0 = 0 := by
  intro s hs
  obtain ⟨n, hzeros⟩ := exists_dropped_zeros (order.map (lengths.getD · 0))
  have hmem : lengths.getD s 0 ∈ (order.map (lengths.getD · 0)).drop sent := by
    rw [← List.map_drop]
    exact List.mem_map_of_mem hs
  rw [← List.length_reverse] at h
  rw [hzeros, List.drop_append, List.drop_eq_nil_of_le h, List.nil_append] at hmem
  exact List.eq_of_mem_replicate (List.mem_of_mem_drop hmem)

/-- The symbols for the lengths of both codes. -/
theorem Codes.Own.describes {codes : Codes} (h : codes.Own) : Describes none
    (lengthSymbols (trimmed codes.literalLengths) ++ lengthSymbols (trimmed codes.distanceLengths))
    (trimmed codes.literalLengths ++ trimmed codes.distanceLengths) := by
  obtain ⟨n, hn⟩ := exists_trimmed codes.literalLengths
  obtain ⟨m, hm⟩ := exists_trimmed codes.distanceLengths
  have hliterals : ∀ l ∈ trimmed codes.literalLengths, l ≤ 15 := fun l hl =>
    h.literals.le_limit l (hn ▸ List.mem_append_left _ hl)
  have hdistances : ∀ l ∈ trimmed codes.distanceLengths, l ≤ 15 := fun l hl =>
    h.distances.le_limit l (hm ▸ List.mem_append_left _ hl)
  exact (describes_lengthSymbols hliterals none).append (describes_lengthSymbols hdistances)

theorem Codes.Own.sound_describe {codes : Codes} (h : codes.Own) :
    (describe codes).Sound codes := by
  have hdescribes : Describes none (describe codes).symbols
      ((describe codes).literals ++ (describe codes).distances) := h.describes
  have hlls : (describe codes).lengthLengths = codeLengths 7 ((describe codes).symbols.foldl
      (fun cs s => cs.modify s.symbol (· + 1)) (Array.replicate 19 0)) := by rw [describe]
  have hsent : (describe codes).sent = max 4 ((lengthOrder.toList.map fun s =>
      (describe codes).lengthLengths.getD s 0).reverse.dropWhile (· == 0)).length := by
    rw [describe]
  have hleft : (describe codes).literals = trimmed codes.literalLengths := rfl
  have hright : (describe codes).distances = trimmed codes.distanceLengths := rfl
  generalize describe codes = d at *
  obtain ⟨hsize, hcounts⟩ := getD_foldl_modify (fun s : LengthSymbol => s.symbol)
    d.symbols (Array.replicate 19 0)
  rw [Array.size_replicate] at hsize hcounts
  generalize d.symbols.foldl (fun cs s => cs.modify s.symbol (· + 1)) (Array.replicate 19 0) =
    counts at *
  obtain ⟨hlength, hcomplete, hcoded⟩ := codeLengths_spec (by omega) (show 1 ≤ 7 by omega)
    (by omega) (hsize ▸ (by decide : 19 ≤ 2 ^ 7))
  rw [← hlls] at hlength hcomplete hcoded
  have hdropped : ((lengthOrder.toList.map (d.lengthLengths.getD · 0)).reverse.dropWhile
      (· == 0)).length ≤ 19 := by
    refine (List.dropWhile_suffix _).length_le.trans ?_
    rw [List.length_reverse, List.length_map]
    decide
  refine ⟨hleft, hright, hdescribes, hlength.trans hsize, hcomplete,
    fun s hs => hcoded s.symbol ?_, by omega, by omega, eq_zero_of_unsent (by omega)⟩
  have hpos : 0 < d.symbols.countP fun x => x.symbol == s.symbol :=
    List.countP_pos_iff.mpr ⟨s, hs, by simp⟩
  rw [hcounts s.symbol (hdescribes.symbol_lt s hs)]
  omega

theorem takeLengthLengths_bits {v : Nat → Nat} (order : List Nat) (h : ∀ s ∈ order, v s < 2 ^ 3)
    (rest : List Bool) (lengths : Array Nat) :
    takeLengthLengths order (order.flatMap (fun s => numberBits 3 (v s)) ++ rest) lengths =
      .ok (order.foldl (fun ls s => ls.setIfInBounds s (v s)) lengths, rest) := by
  induction order generalizing lengths with
  | nil => rfl
  | cons s order ih =>
    rw [List.flatMap_cons, List.append_assoc, takeLengthLengths,
      takeBits_numberBits (h s (List.mem_cons_self ..))]
    exact ih (fun s hs => h s (List.mem_cons_of_mem _ hs)) _

/-- The lengths that are sent, and zeros for the others, are all lengths. -/
theorem Description.Sound.foldl_sent {codes : Codes} {d : Description} (h : d.Sound codes) :
    (lengthOrder.toList.take d.sent).foldl
      (fun ls s => ls.setIfInBounds s (d.lengthLengths.getD s 0)) (Array.replicate 19 0) =
        d.lengthLengths := by
  have hnodup : lengthOrder.toList.Nodup := by decide
  have hlt : ∀ s ∈ lengthOrder.toList, s < 19 := by decide
  have hall : ∀ s < 19, s ∈ lengthOrder.toList := by decide
  obtain ⟨hsize, hget, -⟩ := foldl_setIfInBounds (v := (d.lengthLengths.getD · 0))
    (hnodup.sublist (List.take_sublist d.sent _))
    (show ∀ s ∈ lengthOrder.toList.take d.sent, s < (Array.replicate 19 0).size from
      fun s hs => by simpa using hlt s (List.mem_of_mem_take hs))
    (fun s _ => getD_replicate 19 s) 15
  have hnineteen := h.lengthLengths_size
  rw [Array.size_replicate] at hsize
  refine ext_getD (hsize.trans hnineteen.symm) fun s hs => ?_
  rw [hget]
  split
  · rfl
  · next hout =>
    have hmem := hall s (hsize ▸ hs)
    rw [← List.take_append_drop d.sent lengthOrder.toList, List.mem_append] at hmem
    rw [h.unsent s (hmem.resolve_left hout), getD_replicate]

theorem Codes.Own.literals_length {codes : Codes} (h : codes.Own) :
    257 ≤ (trimmed codes.literalLengths).length ∧ (trimmed codes.literalLengths).length ≤ 286 := by
  refine ⟨?_, h.literals_size ▸ length_trimmed_le _⟩
  by_contra hlt
  refine h.ends ((getD_trimmed _ _).symm.trans ?_)
  rw [List.getD_eq_getElem?_getD, List.getElem?_eq_none (by rw [endOfBlock]; omega)]
  rfl

theorem Codes.Own.distances_length {codes : Codes} (h : codes.Own) :
    1 ≤ (trimmed codes.distanceLengths).length ∧ (trimmed codes.distanceLengths).length ≤ 30 := by
  refine ⟨?_, h.distances_size ▸ length_trimmed_le _⟩
  by_contra hlt
  obtain ⟨n, hn⟩ := exists_trimmed codes.distanceLengths
  have hfill := h.distances.fill_eq
  rw [hn, List.eq_nil_of_length_eq_zero (by omega : (trimmed codes.distanceLengths).length = 0)]
    at hfill
  simp [fill, weight] at hfill

/-- The lengths of both codes are read back. -/
theorem Description.Sound.takeLengths {codes : Codes} {d : Description} (h : d.Sound codes)
    (hlit : d.literals.length ≤ 286) (hdist : d.distances.length ≤ 30) (rest : List Bool) :
    takeLengths (.ofLengths d.lengthLengths.toList) (d.literals.length + d.distances.length) 400
      (d.symbols.flatMap (LengthSymbol.bits d.lengthLengths.toList) ++ rest) [] =
        .ok (d.literals ++ d.distances, rest) := by
  have hfew := h.describes.length_le
  rw [List.length_append] at hfew
  have hread := takeLengths_bits (h.complete.prefixFree (by omega))
    (show Describes ([] : List Nat).head? _ _ from h.describes)
    (fun s hs => by rw [getD_toList]; exact h.coded s hs) (Nat.le_refl _)
    (399 - d.symbols.length + 1) rest
  rw [List.length_nil, Nat.zero_add, List.length_append,
    show 399 - d.symbols.length + 1 + d.symbols.length = 400 by omega] at hread
  rw [hread, Deflate.takeLengths, if_pos (by simp [Nat.add_comm])]
  simp

/-- Both codes are read back from their description. -/
theorem takeCodes_bits {codes : Codes} {d : Description} (h : codes.Own) (hd : d.Sound codes)
    (rest : List Bool) :
    takeCodes (d.bits ++ rest) = .ok (.ofLengths codes.literalLengths.toList,
      .ofLengths codes.distanceLengths.toList, rest) := by
  obtain ⟨hlit, hlit'⟩ := h.literals_length
  obtain ⟨hdist, hdist'⟩ := h.distances_length
  rw [← hd.literals_eq] at hlit hlit'
  rw [← hd.distances_eq] at hdist hdist'
  have hfour := hd.four_le_sent
  have hsent := hd.sent_le
  have hseven : ∀ s, d.lengthLengths.getD s 0 ≤ 7 := fun s => by
    rw [← getD_toList]
    exact getD_le hd.complete.le_limit s
  have hsent_lengths := takeLengthLengths_bits (v := (d.lengthLengths.getD · 0))
    (lengthOrder.toList.take d.sent) (fun s _ => Nat.lt_succ_of_le (hseven s))
    (d.symbols.flatMap (LengthSymbol.bits d.lengthLengths.toList) ++ rest) (Array.replicate 19 0)
  rw [hd.foldl_sent] at hsent_lengths
  have hlengths := hd.takeLengths hlit' hdist' rest
  have hrooms : (Code.ofLengths d.literals).room = 0 ∧ (Code.ofLengths d.distances).room = 0 := by
    rw [hd.literals_eq, hd.distances_eq, ofLengths_trimmed, ofLengths_trimmed]
    exact ⟨h.literals.room_eq (Nat.le_refl 15), h.distances.room_eq (Nat.le_refl 15)⟩
  have hends : ¬ (d.literals.getD endOfBlock 0 == 0) = true := by
    rw [hd.literals_eq, getD_trimmed]
    simpa using h.ends
  rw [Description.bits, takeCodes]
  simp only [List.append_assoc]
  rw [takeBits_numberBits (by omega)]
  simp only [bind, Except.bind]
  rw [takeBits_numberBits (by omega)]
  dsimp only
  rw [takeBits_numberBits (by omega)]
  dsimp only
  rw [if_neg (by simp; omega), Nat.sub_add_cancel hd.four_le_sent, hsent_lengths]
  dsimp only
  rw [if_neg (by simp [hd.complete.room_eq]), Nat.sub_add_cancel hlit, Nat.add_assoc,
    Nat.sub_add_cancel hdist, hlengths]
  dsimp only
  rw [List.take_left, List.drop_left, if_neg hends, if_neg (by simp [hrooms.1]),
    if_neg (by simp [hrooms.2]), hd.literals_eq, hd.distances_eq, ofLengths_trimmed,
    ofLengths_trimmed]
  rfl

end HotSwap.Codec.Deflate
