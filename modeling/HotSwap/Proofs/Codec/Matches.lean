/-
The tokens of a byte string stand for it.

A search compares bytes before it offers a reference, so the tokens that come out of the walk
stand for all the bytes, whichever references are taken and whatever the chains hold, as long as
they hold only positions that were met.

* `Chains.Below` — only positions before some place stand on the chains;
* `searchChain_offers` — a search keeps what it began with, or finds bytes that agree;
* `Walk.Sound` — what holds at every position of the walk;
* `covers_tokens` — the tokens of a byte string stand for its bytes.
-/
import HotSwap.Codec.Deflate.Matches
import HotSwap.Proofs.Codec.Spelling

namespace HotSwap.Codec.Deflate

variable {bytes : Bytes} {data : Array UInt8} {c : Chains} {i j bound fuel : Nat}

/-! ### Chains -/

/-- No position from `i` on is the latest one of its hash, or before another on a chain. -/
def Chains.Below (c : Chains) (i : Nat) : Prop :=
  (∀ h, c.head.getD h 0 ≠ 0 → c.head.getD h 0 < i) ∧
    ∀ k, c.previous.getD k 0 ≠ 0 → c.previous.getD k 0 < i

theorem Chains.below_empty (n : Nat) : (Chains.empty n).Below 0 :=
  ⟨fun _ hne => absurd (getD_replicate ..) hne, fun _ hne => absurd (getD_replicate ..) hne⟩

namespace Chains.Below

theorem mono (h : c.Below i) (hij : i ≤ j) : c.Below j :=
  ⟨fun k hk => (h.1 k hk).trans_le hij, fun k hk => (h.2 k hk).trans_le hij⟩

theorem insert (h : c.Below i) (data : Array UInt8) : (c.insert data i).1.Below (i + 1) := by
  refine ⟨fun k hk => ?_, fun k hk => ?_⟩
  · simp only [Chains.insert, getD_setIfInBounds] at hk ⊢
    split at hk
    · next hset => rw [if_pos hset]; omega
    · next hset =>
      rw [if_neg hset]
      exact (h.1 k hk).trans (Nat.lt_succ_self i)
  · simp only [Chains.insert, getD_setIfInBounds] at hk ⊢
    split at hk
    · next hset =>
      rw [if_pos hset]
      exact (h.1 _ hk).trans (Nat.lt_succ_self i)
    · next hset =>
      rw [if_neg hset]
      exact (h.2 k hk).trans (Nat.lt_succ_self i)

/-- Entering a position points the chain at positions before it only. -/
theorem previous_insert (h : c.Below i) (data : Array UInt8) {k : Nat}
    (hk : (c.insert data i).1.previous.getD k 0 ≠ 0) :
    (c.insert data i).1.previous.getD k 0 < i := by
  simp only [Chains.insert, getD_setIfInBounds] at hk ⊢
  split at hk
  · next hset => rw [if_pos hset]; exact h.1 _ hk
  · next hset => rw [if_neg hset]; exact h.2 k hk

theorem insertAll (h : c.Below i) (data : Array UInt8) (n : Nat) :
    (Chains.insertAll data n i c).Below (i + n) := by
  induction n generalizing i c with
  | zero => exact h
  | succ n ih =>
    rw [Chains.insertAll, show i + (n + 1) = i + 1 + n by omega]
    apply ih
    split
    · exact h.insert data
    · exact h.mono (by omega)

end Chains.Below

/-! ### Agreements -/

/-- Some bytes from place `j` on are those from `i` on, as far as the format can refer to them. -/
def Agrees (data : Array UInt8) (i bound length j : Nat) : Prop :=
  j < i ∧ i - j ≤ reach ∧ length ≤ bound ∧
    ∀ k < length, data.getD (j + k) 0 = data.getD (i + k) 0

theorem agreement_spec (data : Array UInt8) (j i bound : Nat) :
    agreement data j i bound ≤ bound ∧
      ∀ k < agreement data j i bound, data.getD (j + k) 0 = data.getD (i + k) 0 := by
  induction bound generalizing i j with
  | zero => exact ⟨Nat.le_refl 0, fun k hk => absurd hk (Nat.not_lt_zero k)⟩
  | succ bound ih =>
    rw [agreement]
    obtain ⟨hle, hagree⟩ := ih (j + 1) (i + 1)
    split
    · next heq =>
      refine ⟨by omega, fun k hk => ?_⟩
      cases k with
      | zero => simpa using heq
      | succ k =>
        rw [show j + (k + 1) = j + 1 + k by omega, show i + (k + 1) = i + 1 + k by omega]
        exact hagree k (by omega)
    · exact ⟨Nat.zero_le _, fun k hk => absurd hk (Nat.not_lt_zero k)⟩

/-- What a search offers is what it began with, or it is longer and agrees. -/
def Offers (data : Array UInt8) (i bound best position : Nat) (found : Nat × Nat) : Prop :=
  found = (best, position) ∨ best < found.1 ∧ Agrees data i bound found.1 found.2

theorem searchChain_offers (data : Array UInt8) {previous : Array Nat}
    (hprevious : ∀ k, previous.getD k 0 ≠ 0 → previous.getD k 0 < i) (bound fuel : Nat)
    {candidate : Nat} (hcandidate : candidate < i) (hreach : i - candidate ≤ reach)
    (best position : Nat) :
    Offers data i bound best position
      (searchChain data previous i bound (i - reach) fuel candidate best position) := by
  induction fuel generalizing candidate best position with
  | zero => exact .inl rfl
  | succ fuel ih =>
    rw [searchChain]
    generalize hsize : (if (data.getD (candidate + best) 0 == data.getD (i + best) 0 &&
      decide (best < bound)) = true then agreement data candidate i bound else 0) = size
    -- only bytes that were compared count
    have hagrees : Agrees data i bound size candidate := by
      refine ⟨hcandidate, hreach, ?_⟩
      subst hsize
      split
      · exact agreement_spec data candidate i bound
      · exact ⟨Nat.zero_le _, fun k hk => absurd hk (Nat.not_lt_zero k)⟩
    have hnext : ¬ previous.getD candidate 0 ≤ i - reach →
        previous.getD candidate 0 < i ∧ i - previous.getD candidate 0 ≤ reach := fun h =>
      ⟨hprevious candidate (by omega), by omega⟩
    split
    · next hlonger =>
      split
      · exact .inr ⟨hlonger, hagrees⟩
      · next hgo =>
        obtain ⟨hlt, hle⟩ := hnext (by simp only [Bool.or_eq_true, decide_eq_true_eq] at hgo; omega)
        rcases ih hlt hle size candidate with heq | ⟨hbest, hfound⟩
        · rw [heq]
          exact .inr ⟨hlonger, hagrees⟩
        · exact .inr ⟨hlonger.trans hbest, hfound⟩
    · split
      · exact .inl rfl
      · next hgo =>
        obtain ⟨hlt, hle⟩ := hnext hgo
        exact ih hlt hle best position

/-- A reference to bytes that agree stands for them. -/
theorem Agrees.reference_at {length : Nat} (h : Agrees bytes.toArray i bound length j)
    (hbound : bound ≤ longest) (hroom : i + bound ≤ bytes.length) (hlength : 3 ≤ length) :
    (Token.reference length (i - j)).At bytes i := by
  obtain ⟨hlt, hreach, hle, hbytes⟩ := h
  have hlongest : longest = 258 := rfl
  have hfar : reach ≤ 32768 := by decide
  refine ⟨hlength, by omega, by omega, by omega, by omega, fun k hk => ⟨by omega, ?_⟩⟩
  have hbyte := hbytes k hk
  rw [show i - (i - j) = j by omega, List.getElem?_eq_getElem (by omega),
    List.getElem?_eq_getElem (by omega)]
  simpa [show j + k < bytes.length by omega, show i + k < bytes.length by omega] using hbyte

/-! ### The walk -/

namespace Walk

variable {w : Walk}

/-- The chains with position `i`, and what its chain held before. -/
def enter (w : Walk) (data : Array UInt8) (i : Nat) : Chains × Nat :=
  if 3 ≤ data.size - i then w.chains.insert data i else (w.chains, 0)

/-- The reference that is looked for at position `i`, from what its chain held. -/
def look (w : Walk) (data : Array UInt8) (i : Nat) (chains : Chains) (found : Nat) : Nat × Nat :=
  if found != 0 && w.length < longest && i - found ≤ reach then
    let fuel := if goodLength ≤ w.length then chainLimit / 4 else chainLimit
    let (length, position) := searchChain data chains.previous i (min longest (data.size - i))
      (i - reach) fuel found w.length w.position
    let length := min length (data.size - i)
    if length == 3 && farForThree < i - position then (2, position) else (length, position)
  else (2, w.position)

/-- The tokens with the byte that waits as a literal. -/
def flushed (w : Walk) (data : Array UInt8) (i : Nat) : Array Token :=
  if w.pending then w.tokens.push (.literal (data.getD (i - 1) 0)) else w.tokens

/-- Entering a position points the chains at positions before it only. -/
theorem enter_spec (h : w.chains.Below i) (data : Array UInt8) :
    (w.enter data i).1.Below (i + 1) ∧
      (∀ k, (w.enter data i).1.previous.getD k 0 ≠ 0 → (w.enter data i).1.previous.getD k 0 < i) ∧
      ((w.enter data i).2 ≠ 0 → (w.enter data i).2 < i) := by
  rw [enter]
  split
  · exact ⟨h.insert data, fun _ => h.previous_insert data, h.1 _⟩
  · exact ⟨h.mono (Nat.le_succ i), h.2, fun hne => absurd rfl hne⟩

/-- A reference that is longer than the one before stands for bytes. -/
theorem look_spec (w : Walk) (bytes : Bytes) {chains : Chains} {found : Nat}
    (hprevious : ∀ k, chains.previous.getD k 0 ≠ 0 → chains.previous.getD k 0 < i)
    (hfound : found ≠ 0 → found < i) :
    let looked := w.look bytes.toArray i chains found
    3 ≤ looked.1 → looked.1 ≤ w.length ∨ (Token.reference looked.1 (i - looked.2)).At bytes i := by
  intro looked hlength
  have hlook : looked = w.look bytes.toArray i chains found := rfl
  rw [look] at hlook
  split at hlook
  · next hsearch =>
    simp only [Bool.and_eq_true, decide_eq_true_eq, bne_iff_ne] at hsearch
    have hoffers := searchChain_offers bytes.toArray hprevious
      (min longest (bytes.toArray.size - i))
      (if goodLength ≤ w.length then chainLimit / 4 else chainLimit) (hfound hsearch.1.1) hsearch.2
      w.length w.position
    dsimp only at hlook
    generalize searchChain _ _ _ _ _ _ _ _ _ = offered at hoffers hlook
    obtain ⟨length, position⟩ := offered
    dsimp only at hlook
    split at hlook
    · rw [hlook] at hlength
      exact absurd hlength (by simp)
    · rw [hlook] at hlength ⊢
      rcases hoffers with heq | ⟨-, hagrees⟩
      · obtain ⟨rfl, rfl⟩ := Prod.mk.inj heq
        exact .inl (Nat.min_le_left ..)
      · have hle := hagrees.2.2.1
        have hsize : bytes.toArray.size = bytes.length := by simp
        rw [show min length (bytes.toArray.size - i) = length by omega] at hlength ⊢
        refine .inr (hagrees.reference_at (Nat.min_le_left ..) ?_ hlength)
        have := hagrees.1
        omega
  · rw [hlook] at hlength
    exact absurd hlength (by simp)

end Walk

/-- What holds of the walk at position `i`: its tokens stand for the bytes before, but for the
last one where that still waits, and the reference that it holds stands for the bytes from
that one on. -/
structure Walk.Sound (bytes : Bytes) (i : Nat) (w : Walk) : Prop where
  below : w.chains.Below i
  le_length : i ≤ bytes.length
  pos_of_pending : w.pending = true → 1 ≤ i
  covers : Covers bytes (if w.pending then i - 1 else i) 0 w.tokens.toList
  reference_at : 3 ≤ w.length →
    w.pending = true ∧ (Token.reference w.length (i - 1 - w.position)).At bytes (i - 1)

namespace Walk.Sound

variable {w : Walk}

/-- A literal for the byte that waits. -/
theorem covers_flushed (h : w.Sound bytes i) :
    Covers bytes i 0 (w.flushed bytes.toArray i).toList := by
  have hcovers := h.covers
  rw [flushed]
  split
  · next hpending =>
    rw [if_pos hpending] at hcovers
    have hpos := h.pos_of_pending hpending
    have hle := h.le_length
    rw [Array.toList_push]
    refine hcovers.append ⟨?_, by simp only [Token.span, Covers]; omega⟩
    have hlt : i - 1 < bytes.length := by omega
    simp [Token.At, hlt]
  · next hpending =>
    rwa [if_neg hpending] at hcovers

/-- The reference that is held stands, and the walk goes on behind it. -/
theorem covers_push_reference (h : w.Sound bytes i) (hlength : 3 ≤ w.length) :
    Covers bytes (i + w.length - 1) 0
        (w.tokens.push (.reference w.length (i - 1 - w.position))).toList ∧
      i + w.length - 1 ≤ bytes.length := by
  obtain ⟨hpending, hat⟩ := h.reference_at hlength
  have hpos := h.pos_of_pending hpending
  have hcovers := h.covers
  have hle := hat.le_length
  rw [if_pos hpending] at hcovers
  rw [Array.toList_push]
  simp only [Token.span] at hle
  refine ⟨hcovers.append ⟨hat, ?_⟩, by omega⟩
  simp only [Token.span, Covers]
  omega

end Walk.Sound

theorem walk_succ (data : Array UInt8) (fuel i : Nat) (w : Walk) :
    walk data (fuel + 1) i w =
      if data.size ≤ i then w.flushed data i
      else
        let (chains, found) := w.enter data i
        let (length, position) := w.look data i chains found
        if 3 ≤ w.length && length ≤ w.length then
          walk data fuel (i + w.length - 1)
            { chains := Chains.insertAll data (w.length - 2) (i + 1) chains
              position
              tokens := w.tokens.push (.reference w.length (i - 1 - w.position)) }
        else
          walk data fuel (i + 1)
            { chains, length, position, pending := true, tokens := w.flushed data i } := rfl

/-- The walk from a position on. -/
theorem covers_walk {w : Walk} (h : w.Sound bytes i) (hfuel : bytes.length - i < fuel) :
    Covers bytes bytes.length 0 (walk bytes.toArray fuel i w).toList := by
  induction fuel generalizing i w with
  | zero => omega
  | succ fuel ih =>
    rw [walk_succ]
    split
    · next hend =>
      obtain rfl : i = bytes.length := Nat.le_antisymm h.le_length (by simpa using hend)
      exact h.covers_flushed
    · next hgo =>
      have hlt : i < bytes.length := by simpa using hgo
      obtain ⟨hbelow, hprevious, hfound⟩ := Walk.enter_spec h.below bytes.toArray
      generalize w.enter bytes.toArray i = entered at *
      obtain ⟨chains, found⟩ := entered
      have hlooked := Walk.look_spec w bytes hprevious hfound
      dsimp only at hlooked ⊢
      generalize w.look bytes.toArray i chains found = looked at *
      obtain ⟨length, position⟩ := looked
      dsimp only at hlooked ⊢
      split
      · next hstands =>
        simp only [Bool.and_eq_true, decide_eq_true_eq] at hstands
        obtain ⟨hcovers, hle⟩ := h.covers_push_reference hstands.1
        have hlength := hstands.1
        refine ih ⟨?_, hle, by simp, by simpa using hcovers, by simp⟩ (by omega)
        exact (hbelow.insertAll bytes.toArray (w.length - 2)).mono (by omega)
      · next hwaits =>
        simp only [Bool.and_eq_true, decide_eq_true_eq] at hwaits
        refine ih ⟨hbelow, hlt, by simp, by simpa using h.covers_flushed, fun hlength => ?_⟩
          (by omega)
        rcases hlooked hlength with hle | hat
        · exact absurd ⟨hlength.trans hle, hle⟩ hwaits
        · exact ⟨rfl, by simpa using hat⟩

/-- The tokens of a byte string stand for its bytes. -/
theorem covers_tokens (bytes : Bytes) : Covers bytes bytes.length 0 (tokens bytes) := by
  refine covers_walk ⟨Chains.below_empty _, Nat.zero_le _, ?_, ?_, ?_⟩ (by simp; omega)
  · simp
  · simp [Covers]
  · simp

end HotSwap.Codec.Deflate
