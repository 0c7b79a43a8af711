/-
Tokens can be read.

The tokens of a byte string stand for its bytes one after another, references for bytes that
stood there before.  Tokens that are written with codes for all their symbols are read back as
these bytes.

* `codeIn_of_spans` — a value in the bounds of a table is its base and its extra bits;
* `Token.At`, `Covers` — a token, or a list of them, stands for the bytes from some place on;
* `toList_putTokens`, `takeSymbols_bits` — the bits of coded tokens, and that they are read back.
-/
import HotSwap.Proofs.Codec.CanonicalCodes

namespace HotSwap.Codec.Deflate

/-! ### Bases and extra bits -/

/-- The values of each entry of a table reach up to the base of the next one, and those of the
last one up to `top`. -/
def Spans (bases : Array (Nat × Nat)) (top : Nat) : Prop :=
  ∀ i < bases.size,
    (bases.getD (i + 1) (top, 0)).1 ≤ (bases.getD i (0, 0)).1 + 2 ^ (bases.getD i (0, 0)).2

instance (bases : Array (Nat × Nat)) (top : Nat) : Decidable (Spans bases top) := by
  unfold Spans
  infer_instance

/-- What a list begins with, as far as something holds: its last entry, and the one behind. -/
theorem takeWhile_last {α : Type} (q : α → Bool) {l : List α} {x : α} (hx : l[0]? = some x)
    (hq : q x = true) :
    ∃ i y, (l.takeWhile q).length = i + 1 ∧ l[i]? = some y ∧ q y = true ∧
      ∀ z, l[i + 1]? = some z → q z = false := by
  induction l generalizing x with
  | nil => simp at hx
  | cons a l ih =>
    obtain rfl : a = x := by simpa using hx
    rw [List.takeWhile_cons_of_pos hq, List.length_cons]
    cases l with
    | nil => exact ⟨0, a, by simp, rfl, hq, by simp⟩
    | cons b l =>
      by_cases hb : q b = true
      · obtain ⟨i, y, hlen, hy, hqy, hbehind⟩ := ih rfl hb
        exact ⟨i + 1, y, by rw [hlen], by simpa using hy, hqy, by simpa using hbehind⟩
      · refine ⟨0, a, by simp [hb], rfl, hq, fun z hz => ?_⟩
        obtain rfl : b = z := by simpa using hz
        simpa using hb

/-- A value in the bounds of a table is some base and what its extra bits say. -/
theorem codeIn_of_spans {bases : Array (Nat × Nat)} {top value : Nat} (h : Spans bases top)
    {low : Nat × Nat} (hlow : bases[0]? = some low) (hle : low.1 ≤ value) (hlt : value < top) :
    ∃ base, bases[(codeIn bases value).1]? = some (base, (codeIn bases value).2.1) ∧
      base + (codeIn bases value).2.2 = value ∧
      (codeIn bases value).2.2 < 2 ^ (codeIn bases value).2.1 := by
  obtain ⟨i, ⟨base, extra⟩, hlen, hget, hbase, hbehind⟩ :=
    takeWhile_last (fun b : Nat × Nat => decide (b.1 ≤ value)) (l := bases.toList)
      (by simpa using hlow) (by simpa using hle)
  have hbase : base ≤ value := by simpa using hbase
  rw [Array.getElem?_toList] at hget
  have hgetD : bases.getD i (0, 0) = (base, extra) := by
    rw [Array.getD_eq_getD_getElem?, hget]
    rfl
  have hcode : codeIn bases value = (i, extra, value - base) := by
    simp only [codeIn, hlen, Nat.add_sub_cancel, hgetD]
  -- the value is below the base behind, or else below `top`
  have hnext : value < (bases.getD (i + 1) (top, 0)).1 := by
    rw [Array.getD_eq_getD_getElem?]
    cases hz : bases[i + 1]? with
    | none => exact hlt
    | some z => simpa using hbehind z (by simpa using hz)
  have hspan := h i (Array.getElem?_eq_some_iff.mp hget).1
  rw [hgetD] at hspan
  rw [hcode]
  refine ⟨base, hget, ?_, ?_⟩
  · dsimp only
    omega
  · dsimp only at hspan ⊢
    omega

theorem spans_lengthBases : Spans lengthBases 259 := by decide

theorem spans_distanceBases : Spans distanceBases 32769 := by decide

/-- A length is some base and what its extra bits say. -/
theorem lengthCode_spec {length : Nat} (hlow : 3 ≤ length) (hhigh : length ≤ 258) :
    ∃ base, lengthBases[(lengthCode length).1]? = some (base, (lengthCode length).2.1) ∧
      base + (lengthCode length).2.2 = length ∧
      (lengthCode length).2.2 < 2 ^ (lengthCode length).2.1 :=
  codeIn_of_spans spans_lengthBases (show lengthBases[0]? = some (3, 0) from rfl) hlow
    (Nat.lt_succ_of_le hhigh)

/-- A distance is some base and what its extra bits say. -/
theorem distanceCode_spec {distance : Nat} (hlow : 1 ≤ distance) (hhigh : distance ≤ 32768) :
    ∃ base, distanceBases[(distanceCode distance).1]? = some (base, (distanceCode distance).2.1) ∧
      base + (distanceCode distance).2.2 = distance ∧
      (distanceCode distance).2.2 < 2 ^ (distanceCode distance).2.1 :=
  codeIn_of_spans spans_distanceBases (show distanceBases[0]? = some (1, 0) from rfl) hlow
    (Nat.lt_succ_of_le hhigh)

/-! ### What tokens stand for -/

variable {bytes : Bytes} {ts ts' : List Token} {i j k : Nat}

/-- The number of bytes that a token stands for. -/
def Token.span : Token → Nat
  | .literal _ => 1
  | .reference length _ => length

/-- A token stands for the bytes from place `i` on. -/
def Token.At (bytes : Bytes) (i : Nat) : Token → Prop
  | .literal b => bytes[i]? = some b
  | .reference length distance =>
    3 ≤ length ∧ length ≤ 258 ∧ 1 ≤ distance ∧ distance ≤ 32768 ∧ distance ≤ i ∧
      ∀ k < length, i + k < bytes.length ∧ bytes[i - distance + k]? = bytes[i + k]?

/-- Tokens stand for the bytes from place `i` to place `j`. -/
def Covers (bytes : Bytes) (j : Nat) : (i : Nat) → List Token → Prop
  | i, [] => i = j
  | i, t :: ts => t.At bytes i ∧ Covers bytes j (i + t.span) ts

theorem Token.At.le_length {t : Token} (h : t.At bytes i) : i + t.span ≤ bytes.length := by
  cases t with
  | literal b => exact (List.getElem?_eq_some_iff.mp h).1
  | reference length distance =>
    obtain ⟨hlen, -, -, -, -, hbytes⟩ := h
    have := (hbytes (length - 1) (by omega)).1
    simp only [span]
    omega

theorem Covers.append (h : Covers bytes j i ts) (h' : Covers bytes k j ts') :
    Covers bytes k i (ts ++ ts') := by
  induction ts generalizing i with
  | nil => exact h ▸ h'
  | cons t ts ih => exact ⟨h.1, ih h.2⟩

theorem Covers.of_append (h : Covers bytes k i (ts ++ ts')) :
    ∃ j, Covers bytes j i ts ∧ Covers bytes k j ts' := by
  induction ts generalizing i with
  | nil => exact ⟨i, rfl, h⟩
  | cons t ts ih =>
    obtain ⟨j, hts, hts'⟩ := ih h.2
    exact ⟨j, ⟨h.1, hts⟩, hts'⟩

theorem Covers.eq_add (h : Covers bytes j i ts) : j = i + (ts.map Token.span).sum := by
  induction ts generalizing i with
  | nil => exact h.symm
  | cons t ts ih =>
    rw [ih h.2, List.map_cons, List.sum_cons, Nat.add_assoc]

theorem push_take (h : bytes[i]? = some b) :
    (bytes.take i).toArray.push b = (bytes.take (i + 1)).toArray := by
  rw [List.take_add_one, h]
  simp

/-- A reference that stands for some bytes copies them. -/
theorem copyBack_take {distance length : Nat} (hpos : 1 ≤ distance) (hle : distance ≤ i)
    (h : ∀ k < length, i + k < bytes.length ∧ bytes[i - distance + k]? = bytes[i + k]?) :
    copyBack distance length (bytes.take i).toArray = (bytes.take (i + length)).toArray := by
  induction length generalizing i with
  | zero => rfl
  | succ length ih =>
    obtain ⟨hlt, hbyte⟩ := h 0 (by omega)
    rw [Nat.add_zero] at hlt
    have hsize : (bytes.take i).toArray.size = i := by simp; omega
    have hcopied : (bytes.take i).toArray.getD (i - distance) 0 = bytes[i] := by
      rw [Array.getD_eq_getD_getElem?, List.getElem?_toArray, List.getElem?_take_of_lt (by omega)]
      exact congrArg (·.getD 0) (hbyte.trans (List.getElem?_eq_getElem hlt))
    rw [copyBack, hsize, hcopied, push_take (List.getElem?_eq_getElem hlt),
      ih (by omega) fun k hk => ?_]
    · rw [Nat.add_assoc, Nat.add_comm 1]
    · have := h (k + 1) (by omega)
      rw [show i + 1 + k = i + (k + 1) by omega,
        show i + 1 - distance + k = i - distance + (k + 1) by omega]
      exact this

/-! ### Coded blocks -/

/-- The bits of a token. -/
def Token.bits (lits dists : List Nat) : Token → List Bool
  | .literal b => symbolBits lits b.toNat
  | .reference length distance =>
    symbolBits lits (257 + (lengthCode length).1) ++
      (numberBits (lengthCode length).2.1 (lengthCode length).2.2 ++
        (symbolBits dists (distanceCode distance).1 ++
          numberBits (distanceCode distance).2.1 (distanceCode distance).2.2))

/-- There are codes for the symbols of a token. -/
def Token.Coded (lits dists : List Nat) : Token → Prop
  | .literal b => lits.getD b.toNat 0 ≠ 0
  | .reference length distance =>
    lits.getD (257 + (lengthCode length).1) 0 ≠ 0 ∧ dists.getD (distanceCode distance).1 0 ≠ 0

theorem toList_putTokens (codes : Codes) (ts : List Token) (bits : Array Bool) :
    (putTokens codes ts bits).toList = bits.toList ++
      (ts.flatMap (Token.bits codes.literalLengths.toList codes.distanceLengths.toList) ++
        symbolBits codes.literalLengths.toList endOfBlock) := by
  rw [putTokens]
  dsimp only
  rw [toList_putCode, symbolBits, Array.toArray_toList, getD_toList, ← List.append_assoc]
  congr 1
  refine toList_foldl (fun bits t => ?_) ts bits
  cases t with
  | literal b =>
    simp only [toList_putCode, Token.bits, symbolBits, Array.toArray_toList, getD_toList]
  | reference length distance =>
    simp only [toList_putCode, toList_putBits, Token.bits, symbolBits, Array.toArray_toList,
      getD_toList, List.append_assoc]

section Steps

variable {literals distances : Code} {fuel s : Nat} {bits rest : List Bool} {out : Array UInt8}

-- the equations of the reader are stated for the symbol that is read: unfolding it would count
-- down from 257

theorem takeSymbols_literal (hs : literals.symbol .literalCode bits = .ok (s, rest))
    (h : s < endOfBlock) : takeSymbols literals distances (fuel + 1) bits out =
      takeSymbols literals distances fuel rest (out.push (UInt8.ofNat s)) := by
  change (literals.symbol .literalCode bits).bind _ = _
  rw [hs]
  exact if_pos h

theorem takeSymbols_end (hs : literals.symbol .literalCode bits = .ok (endOfBlock, rest)) :
    takeSymbols literals distances (fuel + 1) bits out = .ok (rest, out) := by
  change (literals.symbol .literalCode bits).bind _ = _
  rw [hs]
  rfl

theorem takeSymbols_reference {base extra more d dbase dextra dmore : Nat}
    {rest₁ rest₂ rest₃ : List Bool} (hs : literals.symbol .literalCode bits = .ok (s, rest₁))
    (h : endOfBlock < s) (hbase : lengthBases[s - 257]? = some (base, extra))
    (hmore : takeBits extra rest₁ = .ok (more, rest₂))
    (hd : distances.symbol .distanceCode rest₂ = .ok (d, rest₃))
    (hdbase : distanceBases[d]? = some (dbase, dextra))
    (hdmore : takeBits dextra rest₃ = .ok (dmore, rest)) (hle : dbase + dmore ≤ out.size) :
    takeSymbols literals distances (fuel + 1) bits out =
      takeSymbols literals distances fuel rest (copyBack (dbase + dmore) (base + more) out) := by
  change (literals.symbol .literalCode bits).bind _ = _
  rw [hs]
  refine (if_neg (by omega)).trans ((if_neg (by simp; omega)).trans ?_)
  rw [hbase]
  change (takeBits extra rest₁).bind _ = _
  rw [hmore]
  change (distances.symbol .distanceCode rest₂).bind _ = _
  rw [hd]
  dsimp only [Except.bind]
  rw [hdbase]
  change (takeBits dextra rest₃).bind _ = _
  rw [hdmore]
  exact if_neg (by omega)

end Steps

variable {lits dists : List Nat}

/-- Tokens with codes for all their symbols are read as the bytes that they stand for. -/
theorem takeSymbols_bits (hlits : PrefixFree lits) (hdists : PrefixFree dists)
    (hend : lits.getD endOfBlock 0 ≠ 0) (hcoded : ∀ t ∈ ts, t.Coded lits dists)
    (h : Covers bytes j i ts) {fuel : Nat} (hfuel : ts.length < fuel) (rest : List Bool) :
    takeSymbols (.ofLengths lits) (.ofLengths dists) fuel
      (ts.flatMap (Token.bits lits dists) ++ (symbolBits lits endOfBlock ++ rest))
      (bytes.take i).toArray = .ok (rest, (bytes.take j).toArray) := by
  induction ts generalizing i fuel with
  | nil =>
    obtain rfl : i = j := h
    obtain ⟨fuel, rfl⟩ : ∃ n, fuel = n + 1 := ⟨fuel - 1, by omega⟩
    exact takeSymbols_end (hlits.symbol_symbolBits hend _ _)
  | cons t ts ih =>
    obtain ⟨fuel, rfl⟩ : ∃ n, fuel = n + 1 := ⟨fuel - 1, by omega⟩
    obtain ⟨hat, hts⟩ := h
    have hcodes := hcoded t (List.mem_cons_self ..)
    have ih := ih (fun t ht => hcoded t (List.mem_cons_of_mem _ ht)) hts
      (show ts.length < fuel by simpa using hfuel)
    rw [List.flatMap_cons, List.append_assoc]
    cases t with
    | literal b =>
      rw [Token.bits, takeSymbols_literal (hlits.symbol_symbolBits hcodes _ _) b.toNat_lt,
        UInt8.ofNat_toNat, push_take hat]
      exact ih
    | reference length distance =>
      obtain ⟨hlow, hhigh, hpos, hfar, hle, hbytes⟩ := hat
      obtain ⟨hcode, hdcode⟩ := hcodes
      obtain ⟨base, hbase, hlength, hextra⟩ := lengthCode_spec hlow hhigh
      obtain ⟨dbase, hdbase, hdistance, hdextra⟩ := distanceCode_spec hpos hfar
      have hsize : distance ≤ (bytes.take i).toArray.size := by
        have := (hbytes 0 (by omega)).1
        simp
        omega
      simp only [Token.bits, List.append_assoc]
      rw [takeSymbols_reference (hlits.symbol_symbolBits hcode _ _)
        (show 256 < 257 + (lengthCode length).1 by omega)
        (by rw [Nat.add_sub_cancel_left]; exact hbase) (takeBits_numberBits hextra _)
        (hdists.symbol_symbolBits hdcode _ _) hdbase (takeBits_numberBits hdextra _)
        (by rwa [hdistance]), hlength, hdistance, copyBack_take hpos hle hbytes]
      exact ih

end HotSwap.Codec.Deflate
