/-
Numbers, codes and bytes as bits.

What is written bit by bit is read back, whatever comes behind it.

* `numberBits`, `codeBits` — the bits of a number, the lowest first, and of a code, the highest
  first;
* `takeBits_numberBits` — a number is read back from its bits;
* `bitsOf_pack` — packed bits are read back, with zeros up to a whole byte.
-/
import Mathlib.Data.List.Perm.Subperm
import Mathlib.Tactic.Ring
import HotSwap.Codec.Deflate.Decoder
import HotSwap.Codec.Deflate.Encoder

namespace HotSwap.Codec.Deflate

/-! ### Tables -/

theorem getD_modify (a : Array Nat) (i j : Nat) (f : Nat → Nat) :
    (a.modify i f).getD j 0 = if i = j ∧ j < a.size then f (a.getD j 0) else a.getD j 0 := by
  rw [Array.getD_eq_getD_getElem?, Array.getElem?_modify, Array.getD_eq_getD_getElem?]
  by_cases hij : i = j
  · subst hij
    by_cases hi : i < a.size
    · simp [hi]
    · simp [hi]
  · simp [hij]

theorem getD_modify_add {a : Array Nat} {b x : Nat} (hb : b < a.size) (l : Nat) :
    (a.modify b (· + x)).getD l 0 = a.getD l 0 + if l = b then x else 0 := by
  rw [getD_modify]
  by_cases hl : b = l
  · rw [if_pos ⟨hl, hl ▸ hb⟩, if_pos hl.symm]
  · rw [if_neg fun h => hl h.1, if_neg (Ne.symm hl)]
    rfl

theorem getD_push (a : Array Nat) (x j : Nat) :
    (a.push x).getD j 0 = if j = a.size then x else a.getD j 0 := by
  rw [Array.getD_eq_getD_getElem?, Array.getElem?_push, Array.getD_eq_getD_getElem?]
  split
  · rfl
  · rfl

theorem getD_replicate (n k : Nat) : (Array.replicate n 0).getD k 0 = 0 := by
  rw [Array.getD_eq_getD_getElem?, Array.getElem?_replicate]
  split <;> rfl

theorem getD_setIfInBounds (a : Array Nat) (k x h : Nat) :
    (a.setIfInBounds k x).getD h 0 = if k = h ∧ h < a.size then x else a.getD h 0 := by
  rw [Array.getD_eq_getD_getElem?, Array.getElem?_setIfInBounds, Array.getD_eq_getD_getElem?]
  by_cases hkh : k = h
  · subst hkh
    by_cases hk : k < a.size
    · simp [hk]
    · simp [hk]
  · simp [hkh]

theorem getD_le {ls : List Nat} {most : Nat} (h : ∀ l ∈ ls, l ≤ most) (s : Nat) :
    ls.getD s 0 ≤ most := by
  rw [List.getD_eq_getElem?_getD]
  cases hs : ls[s]? with
  | none => exact Nat.zero_le most
  | some l => exact h l (List.mem_of_getElem? hs)

theorem getD_toList (a : Array Nat) (s : Nat) : a.toList.getD s 0 = a.getD s 0 := by
  rw [Array.getD_eq_getD_getElem?, List.getD_eq_getElem?_getD, Array.getElem?_toList]

theorem ext_getD {a b : Array Nat} (hsize : a.size = b.size)
    (h : ∀ i < a.size, a.getD i 0 = b.getD i 0) : a = b :=
  Array.ext hsize fun i hi hi' => by
    have hget := h i hi
    rwa [Array.getD_eq_getD_getElem?, Array.getElem?_eq_getElem hi, Array.getD_eq_getD_getElem?,
      Array.getElem?_eq_getElem hi'] at hget

theorem length_le_of_lt {l : List Nat} {n : Nat} (hnodup : l.Nodup) (h : ∀ s ∈ l, s < n) :
    l.length ≤ n := by
  have hsub : l ⊆ List.range n := fun s hs => List.mem_range.mpr (h s hs)
  simpa using (List.subperm_of_subset hnodup hsub).length_le

theorem two_pow_sub {k n : Nat} (h : k < n) : 2 ^ (n - k) = 2 * 2 ^ (n - (k + 1)) := by
  rw [show n - k = n - (k + 1) + 1 by omega, Nat.pow_succ, Nat.mul_comm]

/-! ### Numbers and codes -/

/-- The bits of a number, the lowest first. -/
def numberBits : (width : Nat) → Nat → List Bool
  | 0, _ => []
  | w + 1, n => (n % 2 == 1) :: numberBits w (n / 2)

/-- The bits of a code, the highest first. -/
def codeBits : (width : Nat) → Nat → List Bool
  | 0, _ => []
  | w + 1, code => (code / 2 ^ w % 2 == 1) :: codeBits w code

@[simp] theorem length_numberBits (w n : Nat) : (numberBits w n).length = w := by
  induction w generalizing n with
  | zero => rfl
  | succ w ih => rw [numberBits, List.length_cons, ih]

@[simp] theorem length_codeBits (w code : Nat) : (codeBits w code).length = w := by
  induction w with
  | zero => rfl
  | succ w ih => rw [codeBits, List.length_cons, ih]

@[simp] theorem toList_putBits (w n : Nat) (bits : Array Bool) :
    (putBits w n bits).toList = bits.toList ++ numberBits w n := by
  induction w generalizing n bits with
  | zero => simp [putBits, numberBits]
  | succ w ih => simp [putBits, numberBits, ih]

@[simp] theorem toList_putCode (w code : Nat) (bits : Array Bool) :
    (putCode w code bits).toList = bits.toList ++ codeBits w code := by
  induction w generalizing bits with
  | zero => simp [putCode, codeBits]
  | succ w ih => simp [putCode, codeBits, ih]

/-- What is appended step by step is appended. -/
theorem toList_foldl {α : Type} {write : Array Bool → α → Array Bool} {bitsOf : α → List Bool}
    (h : ∀ bits x, (write bits x).toList = bits.toList ++ bitsOf x) (xs : List α)
    (bits : Array Bool) : (xs.foldl write bits).toList = bits.toList ++ xs.flatMap bitsOf := by
  induction xs generalizing bits with
  | nil => simp
  | cons x xs ih => rw [List.foldl_cons, ih, h, List.flatMap_cons, List.append_assoc]

/-- A bit as a number. -/
theorem ite_mod_two (n : Nat) : (if (n % 2 == 1) = true then 1 else 0) = n % 2 := by
  split
  · next h => exact (eq_of_beq h).symm
  · next h =>
    have : n % 2 ≠ 1 := by simpa using h
    omega

/-- A number is read back from its bits. -/
theorem takeBits_numberBits {w n : Nat} (h : n < 2 ^ w) (rest : List Bool) :
    takeBits w (numberBits w n ++ rest) = .ok (n, rest) := by
  induction w generalizing n with
  | zero =>
    obtain rfl : n = 0 := by simpa using h
    rfl
  | succ w ih =>
    rw [numberBits, List.cons_append, takeBits, ih (by rw [Nat.pow_succ] at h; omega)]
    dsimp only
    rw [ite_mod_two]
    have := Nat.mod_add_div n 2
    rw [this]

/-! ### Bytes -/

theorem bitsOf_append (bs bs' : Bytes) : bitsOf (bs ++ bs') = bitsOf bs ++ bitsOf bs' :=
  List.flatMap_append

/-- The bits of a byte are those of its number. -/
theorem bitsOf_singleton (b : UInt8) : bitsOf [b] = numberBits 8 b.toNat := by
  simp [bitsOf, numberBits, List.range_succ, Nat.div_div_eq_div_mul]

@[simp] theorem length_bitsOf (bs : Bytes) : (bitsOf bs).length = 8 * bs.length := by
  induction bs with
  | nil => rfl
  | cons b bs ih =>
    rw [show b :: bs = [b] ++ bs from rfl, bitsOf_append, List.length_append, bitsOf_singleton, ih]
    simp
    omega

theorem bitsValue_lt (bits : List Bool) : bitsValue bits < 2 ^ bits.length := by
  induction bits with
  | nil => simp [bitsValue]
  | cons b bits ih =>
    rw [bitsValue, List.length_cons, Nat.pow_succ]
    split <;> omega

/-- The bits of the number that has these bits, with zeros above. -/
theorem numberBits_bitsValue {bits : List Bool} {w : Nat} (h : bits.length ≤ w) :
    numberBits w (bitsValue bits) = bits ++ List.replicate (w - bits.length) false := by
  induction bits generalizing w with
  | nil =>
    rw [bitsValue, List.nil_append, List.length_nil, Nat.sub_zero]
    clear h
    induction w with
    | zero => rfl
    | succ w ih => rw [numberBits, List.replicate_succ, ← ih]; rfl
  | cons b bits ih =>
    cases w with
    | zero => simp at h
    | succ w =>
      have hlow : ((if b then 1 else 0) + 2 * bitsValue bits) % 2 = if b then 1 else 0 := by
        split <;> omega
      have hhigh : ((if b then 1 else 0) + 2 * bitsValue bits) / 2 = bitsValue bits := by
        split <;> omega
      rw [bitsValue, numberBits, hlow, hhigh, ih (by simpa using h)]
      cases b <;> simp

/-- Packed bits are read back, with zeros up to a whole byte. -/
theorem bitsOf_pack {bits : List Bool} {fuel : Nat} (h : bits.length < fuel) :
    bitsOf (pack fuel bits) = bits ++ List.replicate ((8 - bits.length % 8) % 8) false := by
  induction fuel generalizing bits with
  | zero => omega
  | succ fuel ih =>
    rw [pack]
    split
    · next hnil =>
      obtain rfl := List.isEmpty_iff.mp hnil
      rfl
    · next hne =>
      have hpos : 0 < bits.length := List.length_pos_iff.mpr (by simpa using hne)
      have hbyte : (UInt8.ofNat (bitsValue (bits.take 8))).toNat = bitsValue (bits.take 8) := by
        have hlt := bitsValue_lt (bits.take 8)
        have hle : 2 ^ (bits.take 8).length ≤ 2 ^ 8 :=
          Nat.pow_le_pow_right (by omega) (List.length_take_le 8 bits)
        rw [UInt8.toNat_ofNat']
        omega
      rw [show ∀ (b : UInt8) bs, b :: bs = [b] ++ bs from fun _ _ => rfl, bitsOf_append,
        bitsOf_singleton, hbyte, numberBits_bitsValue (List.length_take_le 8 bits),
        ih (by simp; omega)]
      by_cases hlen : 8 ≤ bits.length
      · have hmod : (bits.length - 8) % 8 = bits.length % 8 := by omega
        simp [Nat.min_eq_left hlen, hmod, ← List.append_assoc]
      · have hdrop : bits.drop 8 = [] := List.drop_eq_nil_of_le (by omega)
        have htake : bits.take 8 = bits := List.take_of_length_le (by omega)
        rw [hdrop, htake]
        have hpad : (8 - bits.length % 8) % 8 = 8 - bits.length := by omega
        simp [hpad]

end HotSwap.Codec.Deflate
