/-
A deflate stream can be read.

Each block is read back as the bytes that its tokens stand for, in whichever of the three ways it
is written, and so are all the blocks of a stream.

* `Delivers` — some bits are read as a block that stands for the bytes from one place to another;
* `delivers_plain`, `delivers_fixed`, `delivers_own` — each way to write a block delivers;
* `decode_encode` — a stream is read back, with what comes behind it left over.
-/
import HotSwap.Proofs.Codec.Descriptions
import HotSwap.Proofs.Codec.Matches

namespace HotSwap.Codec.Deflate

variable {bytes : Bytes} {ts : List Token} {i j total fuel : Nat} {bits rest : List Bool}
  {out : Array UInt8}

/-! ### Reading a block -/

/-- Whether a block is the last one, as a number. -/
def finalBit (last : Bool) : Nat := if last then 1 else 0

/-- What a block is the end of, or goes on with. -/
def goOn (last : Bool) (total fuel : Nat) (bits : List Bool) (out : Array UInt8) :
    Except Damage (List Bool × Array UInt8) :=
  if last then .ok (bits, out) else takeBlocks total fuel bits out

theorem finalBit_lt (last : Bool) : finalBit last < 2 ^ 1 := by
  cases last <;> decide

theorem ite_finalBit (last : Bool) (total fuel : Nat) (bits : List Bool) (out : Array UInt8) :
    (if finalBit last == 1 then .ok (bits, out) else takeBlocks total fuel bits out) =
      goOn last total fuel bits out := by
  cases last <;> rfl

/-- The header of a block. -/
theorem takeBits_header {kind : Nat} (hkind : kind < 2 ^ 2) (last : Bool) (bits : List Bool) :
    ∃ bits', takeBits 1 (numberBits 3 (2 * kind + finalBit last) ++ bits) =
        .ok (finalBit last, bits') ∧ takeBits 2 bits' = .ok (kind, bits) := by
  have hlast := finalBit_lt last
  have hlow : (2 * kind + finalBit last) % 2 = finalBit last % 2 := by omega
  have hhigh : (2 * kind + finalBit last) / 2 = kind := by omega
  have hsplit : numberBits 3 (2 * kind + finalBit last) =
      numberBits 1 (finalBit last) ++ numberBits 2 kind := by
    rw [numberBits, hlow, hhigh]
    rfl
  refine ⟨numberBits 2 kind ++ bits, ?_, takeBits_numberBits hkind bits⟩
  rw [hsplit, List.append_assoc, takeBits_numberBits hlast]

variable {last : Bool} {out' : Array UInt8} {header : List Bool}

theorem takeBlocks_plain {n check : Nat} {bits₁ bits₂ bits₃ : List Bool}
    (hfinal : takeBits 1 header = .ok (finalBit last, bits₁))
    (hkind : takeBits 2 bits₁ = .ok (0, bits))
    (hn : takeBits 16 (bits.drop (bits.length % 8)) = .ok (n, bits₂))
    (hcheck : takeBits 16 bits₂ = .ok (check, bits₃)) (hsum : n + check = 65535)
    (hbytes : takeBytes n bits₃ out = .ok (rest, out')) :
    takeBlocks total (fuel + 1) header out = goOn last total fuel rest out' := by
  change (takeBits 1 header).bind _ = _
  rw [hfinal]
  change (takeBits 2 bits₁).bind _ = _
  rw [hkind]
  change (takeBits 16 (bits.drop (bits.length % 8))).bind _ = _
  rw [hn]
  change (takeBits 16 bits₂).bind _ = _
  rw [hcheck]
  refine (if_pos (by simpa using hsum)).trans ?_
  change (takeBytes n bits₃ out).bind _ = _
  rw [hbytes, ← ite_finalBit]
  rfl

theorem takeBlocks_fixed {bits₁ : List Bool}
    (hfinal : takeBits 1 header = .ok (finalBit last, bits₁))
    (hkind : takeBits 2 bits₁ = .ok (1, bits))
    (hsymbols : takeSymbols (.ofLengths fixedLiteralLengths.toList)
      (.ofLengths fixedDistanceLengths.toList) (total + 1) bits out = .ok (rest, out')) :
    takeBlocks total (fuel + 1) header out = goOn last total fuel rest out' := by
  change (takeBits 1 header).bind _ = _
  rw [hfinal]
  change (takeBits 2 bits₁).bind _ = _
  rw [hkind]
  change (takeSymbols _ _ (total + 1) bits out).bind _ = _
  rw [hsymbols, ← ite_finalBit]
  rfl

theorem takeBlocks_own {literals distances : Code} {bits₁ bits₂ : List Bool}
    (hfinal : takeBits 1 header = .ok (finalBit last, bits₁))
    (hkind : takeBits 2 bits₁ = .ok (2, bits))
    (hcodes : takeCodes bits = .ok (literals, distances, bits₂))
    (hsymbols : takeSymbols literals distances (total + 1) bits₂ out = .ok (rest, out')) :
    takeBlocks total (fuel + 1) header out = goOn last total fuel rest out' := by
  change (takeBits 1 header).bind _ = _
  rw [hfinal]
  change (takeBits 2 bits₁).bind _ = _
  rw [hkind]
  change (takeCodes bits).bind _ = _
  rw [hcodes]
  change (takeSymbols literals distances (total + 1) bits₂ out).bind _ = _
  rw [hsymbols, ← ite_finalBit]
  rfl

/-! ### Three ways to write a block -/

/-- Bits that are written behind `written` others are read as a block that stands for the bytes
from place `i` to place `j`, if whole bytes are read. -/
structure Delivers (bytes : Bytes) (i j : Nat) (last : Bool) (written : Nat) (bits : List Bool) :
    Prop where
  three_le : 3 ≤ bits.length
  reads : ∀ total fuel rest, bits.length ≤ total → (written + bits.length + rest.length) % 8 = 0 →
    takeBlocks total (fuel + 1) (bits ++ rest) (bytes.take i).toArray =
      goOn last total fuel rest (bytes.take j).toArray

/-- The bits of tokens, each of which has a code, are at least as many as the tokens. -/
theorem length_le_bits {lits dists : List Nat} (h : ∀ t ∈ ts, t.Coded lits dists) :
    ts.length ≤ (ts.flatMap (Token.bits lits dists)).length := by
  induction ts with
  | nil => exact Nat.le_refl 0
  | cons t ts ih =>
    have ih := ih fun t ht => h t (List.mem_cons_of_mem _ ht)
    have ht := h t (List.mem_cons_self ..)
    have hpos : 1 ≤ (t.bits lits dists).length := by
      cases t with
      | literal b =>
        rw [Token.bits, symbolBits, length_codeBits]
        exact Nat.pos_of_ne_zero ht
      | reference length distance =>
        rw [Token.bits, List.length_append, symbolBits, length_codeBits]
        have := Nat.pos_of_ne_zero ht.1
        omega
    rw [List.length_cons, List.flatMap_cons, List.length_append]
    omega

theorem takeBytes_bits (plain : Bytes) (rest : List Bool) (out : Array UInt8) :
    takeBytes plain.length (plain.flatMap (fun b => numberBits 8 b.toNat) ++ rest) out =
      .ok (rest, out ++ plain.toArray) := by
  induction plain generalizing out with
  | nil => simp [takeBytes]
  | cons b plain ih =>
    rw [List.length_cons, List.flatMap_cons, List.append_assoc, takeBytes,
      takeBits_numberBits b.toNat_lt]
    simp only [bind, Except.bind]
    rw [ih, UInt8.ofNat_toNat]
    simp

theorem toList_align (bits : Array Bool) : (align bits).toList =
    bits.toList ++ List.replicate ((8 - bits.size % 8) % 8) false := by
  rw [align, Array.toList_append, Array.toList_replicate]

/-- A block of plain bytes. -/
theorem delivers_plain {plain : Bytes} (hplain : plain = (bytes.drop i).take (j - i)) (hij : i ≤ j)
    (hlength : plain.length ≤ 65535) (last : Bool) (bits : Array Bool) :
    ∃ tail, (plain.foldl (fun bits b => putBits 8 b.toNat bits)
        (putBits 16 (65535 - plain.length) (putBits 16 plain.length
          (align (putBits 3 (finalBit last) bits))))).toList = bits.toList ++ tail ∧
      Delivers bytes i j last bits.size tail := by
  have hsize : (putBits 3 (finalBit last) bits).size = bits.size + 3 := by
    rw [← Array.length_toList, toList_putBits, List.length_append, length_numberBits,
      Array.length_toList]
  refine ⟨numberBits 3 (2 * 0 + finalBit last) ++
    (List.replicate ((8 - (bits.size + 3) % 8) % 8) false ++
      (numberBits 16 plain.length ++ (numberBits 16 (65535 - plain.length) ++
        plain.flatMap fun b => numberBits 8 b.toNat))), ?_, by simp,
    fun total fuel rest _ hwhole => ?_⟩
  · rw [toList_foldl fun bits (b : UInt8) => toList_putBits 8 b.toNat bits, toList_putBits,
      toList_putBits, toList_align, toList_putBits, hsize, Nat.mul_zero, Nat.zero_add]
    simp only [List.append_assoc]
  · simp only [List.length_append, length_numberBits, List.length_replicate] at hwhole
    simp only [List.append_assoc]
    generalize hbody : plain.flatMap (fun b => numberBits 8 b.toNat) ++ rest = body
    have hlen := congrArg List.length hbody
    rw [List.length_append] at hlen
    obtain ⟨bits', hfinal, hkind⟩ := takeBits_header (by decide : 0 < 2 ^ 2) last
      (List.replicate ((8 - (bits.size + 3) % 8) % 8) false ++
        (numberBits 16 plain.length ++ (numberBits 16 (65535 - plain.length) ++ body)))
    -- the zeros reach to a whole byte
    have hn : takeBits 16 ((List.replicate ((8 - (bits.size + 3) % 8) % 8) false ++
        (numberBits 16 plain.length ++ (numberBits 16 (65535 - plain.length) ++ body))).drop
          ((List.replicate ((8 - (bits.size + 3) % 8) % 8) false ++ (numberBits 16 plain.length ++
            (numberBits 16 (65535 - plain.length) ++ body))).length % 8)) =
        .ok (plain.length, numberBits 16 (65535 - plain.length) ++ body) := by
      have hskip : (List.replicate ((8 - (bits.size + 3) % 8) % 8) false ++
          (numberBits 16 plain.length ++
            (numberBits 16 (65535 - plain.length) ++ body))).length % 8 =
          (List.replicate ((8 - (bits.size + 3) % 8) % 8) false).length := by
        simp only [List.length_append, length_numberBits, List.length_replicate]
        omega
      rw [hskip, List.drop_left, takeBits_numberBits (by omega)]
    rw [takeBlocks_plain hfinal hkind hn (takeBits_numberBits (by omega) body) (by omega)
      (hbody ▸ takeBytes_bits plain rest _)]
    congr 1
    rw [hplain, List.append_toArray]
    congr 1
    rw [← List.take_add, Nat.add_sub_of_le hij]

/-- Tokens in the bounds of the format. -/
def Token.Bounded : Token → Prop
  | .literal _ => True
  | .reference length distance => (3 ≤ length ∧ length ≤ 258) ∧ 1 ≤ distance ∧ distance ≤ 32768

theorem Token.At.bounded {t : Token} (h : t.At bytes i) : t.Bounded := by
  cases t with
  | literal b => trivial
  | reference length distance => exact ⟨⟨h.1, h.2.1⟩, h.2.2.1, h.2.2.2.1⟩

theorem Covers.bounded (h : Covers bytes j i ts) : ∀ t ∈ ts, t.Bounded := by
  induction ts generalizing i with
  | nil => simp
  | cons t ts ih =>
    intro t' ht'
    rcases List.mem_cons.mp ht' with rfl | ht'
    · exact h.1.bounded
    · exact ih h.2 t' ht'

/-- The codes of a reference are in their alphabets. -/
theorem Token.Bounded.codes_lt {length distance : Nat}
    (h : (Token.reference length distance).Bounded) :
    (lengthCode length).1 < 29 ∧ (distanceCode distance).1 < 30 := by
  obtain ⟨⟨hlow, hhigh⟩, hpos, hfar⟩ := h
  obtain ⟨base, hbase, -⟩ := lengthCode_spec hlow hhigh
  obtain ⟨dbase, hdbase, -⟩ := distanceCode_spec hpos hfar
  exact ⟨(Array.getElem?_eq_some_iff.mp hbase).1, (Array.getElem?_eq_some_iff.mp hdbase).1⟩

/-! ### The fixed codes -/

theorem toList_fixedLiteralLengths : fixedLiteralLengths.toList =
    List.replicate 144 8 ++ List.replicate 112 9 ++ List.replicate 24 7 ++ List.replicate 8 8 := by
  simp only [fixedLiteralLengths, Array.toList_append, Array.toList_replicate]

theorem mem_fixedLiteralLengths {l : Nat} (h : l ∈ fixedLiteralLengths.toList) :
    7 ≤ l ∧ l ≤ 9 := by
  simp only [toList_fixedLiteralLengths, List.mem_append, List.mem_replicate] at h
  omega

theorem mem_fixedDistanceLengths {l : Nat} (h : l ∈ fixedDistanceLengths.toList) : l = 5 := by
  rw [fixedDistanceLengths, Array.toList_replicate] at h
  exact List.eq_of_mem_replicate h

theorem prefixFree_fixedLiteralLengths : PrefixFree fixedLiteralLengths.toList where
  le_limit l hl := (mem_fixedLiteralLengths hl).2.trans (by decide)
  fill_le := by
    rw [toList_fixedLiteralLengths, fill_append, fill_append, fill_append, fill_replicate,
      fill_replicate, fill_replicate, fill_replicate]
    decide

theorem prefixFree_fixedDistanceLengths : PrefixFree fixedDistanceLengths.toList where
  le_limit l hl := by rw [mem_fixedDistanceLengths hl]; decide
  fill_le := by
    rw [fixedDistanceLengths, Array.toList_replicate, fill_replicate]
    decide

/-- Every symbol of the alphabets has a fixed code. -/
theorem getD_ne_zero {ls : List Nat} (h : ∀ l ∈ ls, l ≠ 0) {s : Nat} (hs : s < ls.length) :
    ls.getD s 0 ≠ 0 := by
  rw [List.getD_eq_getElem?_getD, List.getElem?_eq_getElem hs]
  exact h _ (List.getElem_mem hs)

theorem fixedLiteralLengths_ne_zero {s : Nat} (hs : s < 288) :
    fixedLiteralLengths.toList.getD s 0 ≠ 0 :=
  getD_ne_zero (fun l hl => by have := mem_fixedLiteralLengths hl; omega)
    (by
      rw [toList_fixedLiteralLengths]
      simp only [List.length_append, List.length_replicate]
      omega)

theorem fixedDistanceLengths_ne_zero {s : Nat} (hs : s < 30) :
    fixedDistanceLengths.toList.getD s 0 ≠ 0 :=
  getD_ne_zero (fun l hl => by rw [mem_fixedDistanceLengths hl]; decide)
    (by rwa [fixedDistanceLengths, Array.toList_replicate, List.length_replicate])

theorem Token.Bounded.coded_fixed {t : Token} (h : t.Bounded) :
    t.Coded fixedLiteralLengths.toList fixedDistanceLengths.toList := by
  cases t with
  | literal b => exact fixedLiteralLengths_ne_zero (b.toNat_lt.trans (by decide))
  | reference length distance =>
    obtain ⟨hlength, hdistance⟩ := h.codes_lt
    exact ⟨fixedLiteralLengths_ne_zero (by omega), fixedDistanceLengths_ne_zero hdistance⟩

/-- A block with the fixed codes. -/
theorem delivers_fixed (h : Covers bytes j i ts) (last : Bool) (bits : Array Bool) :
    ∃ tail, (putTokens Codes.fixed ts (putBits 3 (2 + finalBit last) bits)).toList =
        bits.toList ++ tail ∧ Delivers bytes i j last bits.size tail := by
  have hcoded : ∀ t ∈ ts, t.Coded fixedLiteralLengths.toList fixedDistanceLengths.toList :=
    fun t ht => (h.bounded t ht).coded_fixed
  refine ⟨numberBits 3 (2 * 1 + finalBit last) ++
    (ts.flatMap (Token.bits fixedLiteralLengths.toList fixedDistanceLengths.toList) ++
      symbolBits fixedLiteralLengths.toList endOfBlock), ?_, by simp,
    fun total fuel rest htotal _ => ?_⟩
  · rw [toList_putTokens, toList_putBits, List.append_assoc]
    rfl
  · have hfew := length_le_bits hcoded
    simp only [List.length_append] at htotal
    simp only [List.append_assoc]
    obtain ⟨bits', hfinal, hkind⟩ := takeBits_header (by decide : 1 < 2 ^ 2) last
      (ts.flatMap (Token.bits fixedLiteralLengths.toList fixedDistanceLengths.toList) ++
        (symbolBits fixedLiteralLengths.toList endOfBlock ++ rest))
    exact takeBlocks_fixed hfinal hkind (takeSymbols_bits prefixFree_fixedLiteralLengths
      prefixFree_fixedDistanceLengths (fixedLiteralLengths_ne_zero (by decide)) hcoded h
      (by omega) rest)

/-! ### Codes of a block's own -/

/-- The frequencies with those of one token more. -/
def counted (acc : Array Nat × Array Nat) : Token → Array Nat × Array Nat
  | .literal b => (acc.1.modify b.toNat (· + 1), acc.2)
  | .reference length distance =>
    (acc.1.modify (257 + (lengthCode length).1) (· + 1),
      acc.2.modify (distanceCode distance).1 (· + 1))

theorem frequencies_eq (ts : List Token) : frequencies ts =
    ts.foldl counted ((Array.replicate 286 0).modify endOfBlock (· + 1), Array.replicate 30 0) := rfl

theorem Token.Coded.mono {lits dists lits' dists' : List Nat} {t : Token}
    (h : t.Coded lits dists) (hlits : ∀ s, lits.getD s 0 ≤ lits'.getD s 0)
    (hdists : ∀ s, dists.getD s 0 ≤ dists'.getD s 0) : t.Coded lits' dists' := by
  cases t with
  | literal b =>
    have hle := hlits b.toNat
    exact fun hzero => h (by omega)
  | reference length distance =>
    have hle := hlits (257 + (lengthCode length).1)
    have hle' := hdists (distanceCode distance).1
    exact ⟨fun hzero => h.1 (by omega), fun hzero => h.2 (by omega)⟩

theorem le_getD_modify (a : Array Nat) (b k : Nat) :
    a.getD k 0 ≤ (a.modify b (· + 1)).getD k 0 := by
  rw [getD_modify]
  split
  · exact Nat.le_succ _
  · exact Nat.le_refl _

theorem counted_spec {acc : Array Nat × Array Nat} {t : Token} (h : t.Bounded)
    (hsize : acc.1.size = 286) (hsize' : acc.2.size = 30) :
    (counted acc t).1.size = 286 ∧ (counted acc t).2.size = 30 ∧
      (∀ s, acc.1.getD s 0 ≤ (counted acc t).1.getD s 0) ∧
      (∀ s, acc.2.getD s 0 ≤ (counted acc t).2.getD s 0) ∧
      t.Coded (counted acc t).1.toList (counted acc t).2.toList := by
  cases t with
  | literal b =>
    refine ⟨by simpa [counted] using hsize, hsize', fun s => le_getD_modify ..,
      fun s => Nat.le_refl _, ?_⟩
    have hb : b.toNat < 256 := b.toNat_lt
    rw [Token.Coded, getD_toList, counted, getD_modify_add (by omega)]
    simp
  | reference length distance =>
    obtain ⟨hlength, hdistance⟩ := h.codes_lt
    refine ⟨by simpa [counted] using hsize, by simpa [counted] using hsize',
      fun s => le_getD_modify .., fun s => le_getD_modify .., ?_⟩
    rw [Token.Coded, getD_toList, getD_toList, counted, getD_modify_add (by omega),
      getD_modify_add (by omega)]
    simp

/-- The frequencies of the symbols of tokens. -/
theorem foldl_counted (ts : List Token) (h : ∀ t ∈ ts, t.Bounded) {acc : Array Nat × Array Nat}
    (hsize : acc.1.size = 286) (hsize' : acc.2.size = 30) :
    (ts.foldl counted acc).1.size = 286 ∧ (ts.foldl counted acc).2.size = 30 ∧
      (∀ s, acc.1.getD s 0 ≤ (ts.foldl counted acc).1.getD s 0) ∧
      (∀ s, acc.2.getD s 0 ≤ (ts.foldl counted acc).2.getD s 0) ∧
      ∀ t ∈ ts, t.Coded (ts.foldl counted acc).1.toList (ts.foldl counted acc).2.toList := by
  induction ts generalizing acc with
  | nil => exact ⟨hsize, hsize', fun _ => Nat.le_refl _, fun _ => Nat.le_refl _, by simp⟩
  | cons t ts ih =>
    obtain ⟨hs, hs', hle, hle', hcoded⟩ := counted_spec (h t (List.mem_cons_self ..)) hsize hsize'
    obtain ⟨hr, hr', hmore, hmore', hall⟩ :=
      ih (fun t ht => h t (List.mem_cons_of_mem _ ht)) hs hs'
    rw [List.foldl_cons]
    refine ⟨hr, hr', fun s => (hle s).trans (hmore s), fun s => (hle' s).trans (hmore' s), ?_⟩
    intro t' ht'
    rcases List.mem_cons.mp ht' with rfl | ht'
    · refine hcoded.mono (fun s => ?_) fun s => ?_
      · rw [getD_toList, getD_toList]
        exact hmore s
      · rw [getD_toList, getD_toList]
        exact hmore' s
    · exact hall t' ht'

theorem frequencies_spec (h : ∀ t ∈ ts, t.Bounded) :
    (frequencies ts).1.size = 286 ∧ (frequencies ts).2.size = 30 ∧
      (frequencies ts).1.getD endOfBlock 0 ≠ 0 ∧
      ∀ t ∈ ts, t.Coded (frequencies ts).1.toList (frequencies ts).2.toList := by
  rw [frequencies_eq]
  generalize hstart : (Array.replicate 286 0).modify endOfBlock (· + 1) = start
  have hstart_size : start.size = 286 := by
    rw [← hstart, Array.size_modify, Array.size_replicate]
  have hstart_end : start.getD endOfBlock 0 = 1 := by
    rw [← hstart, getD_modify_add (by rw [Array.size_replicate]; decide), getD_replicate]
    rfl
  obtain ⟨hsize, hsize', hle, -, hcoded⟩ := foldl_counted ts h
    (show (start, Array.replicate 30 0).1.size = 286 from hstart_size) Array.size_replicate
  refine ⟨hsize, hsize', fun hzero => ?_, hcoded⟩
  have hend := hle endOfBlock
  rw [hstart_end, hzero] at hend
  omega

/-- The codes that are made for tokens. -/
def ownCodes (ts : List Token) : Codes where
  literalLengths := codeLengths 15 (frequencies ts).1
  distanceLengths := codeLengths 15 (frequencies ts).2

theorem ownCodes_spec (h : ∀ t ∈ ts, t.Bounded) : (ownCodes ts).Own ∧
    ∀ t ∈ ts, t.Coded (ownCodes ts).literalLengths.toList (ownCodes ts).distanceLengths.toList := by
  obtain ⟨hsize, hsize', hend, hcoded⟩ := frequencies_spec h
  obtain ⟨hlits, hcomplete, hne⟩ := codeLengths_spec (show 3 ≤ (frequencies ts).1.size by omega)
    (show 1 ≤ 15 by omega) (by omega) (by rw [hsize]; decide)
  obtain ⟨hdists, hcomplete', hne'⟩ := codeLengths_spec (show 3 ≤ (frequencies ts).2.size by omega)
    (show 1 ≤ 15 by omega) (by omega) (by rw [hsize']; decide)
  refine ⟨⟨hlits.trans hsize, hdists.trans hsize', hcomplete, hcomplete', hne _ hend⟩, ?_⟩
  intro t ht
  have ht := hcoded t ht
  cases t with
  | literal b =>
    rw [Token.Coded, getD_toList] at ht ⊢
    exact hne _ ht
  | reference length distance =>
    rw [Token.Coded, getD_toList, getD_toList] at ht ⊢
    exact ⟨hne _ ht.1, hne' _ ht.2⟩

/-- A block with codes of its own. -/
theorem delivers_own (h : Covers bytes j i ts) (last : Bool) (bits : Array Bool) :
    ∃ tail, (putTokens (ownCodes ts) ts
        ((describe (ownCodes ts)).put (putBits 3 (4 + finalBit last) bits))).toList =
        bits.toList ++ tail ∧ Delivers bytes i j last bits.size tail := by
  obtain ⟨hown, hcoded⟩ := ownCodes_spec h.bounded
  have hdescribed := hown.sound_describe
  generalize describe (ownCodes ts) = d at hdescribed ⊢
  generalize ownCodes ts = codes at hown hcoded hdescribed ⊢
  refine ⟨numberBits 3 (2 * 2 + finalBit last) ++ (d.bits ++
    (ts.flatMap (Token.bits codes.literalLengths.toList codes.distanceLengths.toList) ++
      symbolBits codes.literalLengths.toList endOfBlock)), ?_, by simp,
    fun total fuel rest htotal _ => ?_⟩
  · rw [toList_putTokens, Description.toList_put, toList_putBits]
    simp only [List.append_assoc]
  · have hfew := length_le_bits hcoded
    simp only [List.length_append] at htotal
    simp only [List.append_assoc]
    obtain ⟨bits', hfinal, hkind⟩ := takeBits_header (by decide : 2 < 2 ^ 2) last
      (d.bits ++ (ts.flatMap
        (Token.bits codes.literalLengths.toList codes.distanceLengths.toList) ++
          (symbolBits codes.literalLengths.toList endOfBlock ++ rest)))
    exact takeBlocks_own hfinal hkind (takeCodes_bits hown hdescribed _)
      (takeSymbols_bits (hown.literals.prefixFree (Nat.le_refl 15))
        (hown.distances.prefixFree (Nat.le_refl 15)) (by rw [getD_toList]; exact hown.ends) hcoded h
        (by omega) rest)

/-! ### Which way is taken -/

theorem codeIn_extra_le {bases : Array (Nat × Nat)} {most : Nat}
    (h : ∀ b ∈ bases.toList, b.2 ≤ most) (value : Nat) : (codeIn bases value).2.1 ≤ most := by
  change (bases.getD ((bases.toList.takeWhile fun b => b.1 ≤ value).length - 1) (0, 0)).2 ≤ most
  rw [Array.getD_eq_getD_getElem?]
  cases hb : bases[(bases.toList.takeWhile fun b => b.1 ≤ value).length - 1]? with
  | none => exact Nat.zero_le most
  | some b => exact h b (by rw [← Array.getElem?_toList] at hb; exact List.mem_of_getElem? hb)

theorem foldl_le {α : Type} {f : Nat → α → Nat} {c : Nat} (h : ∀ n x, f n x ≤ n + c)
    (xs : List α) (n : Nat) : xs.foldl f n ≤ n + c * xs.length := by
  induction xs generalizing n with
  | nil => exact Nat.le_refl n
  | cons x xs ih =>
    have hfirst := h n x
    have hmore := ih (f n x)
    rw [List.foldl_cons, List.length_cons, Nat.mul_succ]
    omega

/-- The fixed codes take at most 32 bits for a token. -/
theorem size_fixed_le (ts : List Token) : size Codes.fixed ts ≤ 9 + 32 * ts.length := by
  have hlits : ∀ s, fixedLiteralLengths.getD s 0 ≤ 9 := fun s => by
    rw [← getD_toList]
    exact getD_le (fun l hl => (mem_fixedLiteralLengths hl).2) s
  have hdists : ∀ s, fixedDistanceLengths.getD s 0 ≤ 5 := fun s => by
    rw [← getD_toList]
    exact getD_le (fun l hl => (mem_fixedDistanceLengths hl).le) s
  have hextra : ∀ length, (lengthCode length).2.1 ≤ 5 := codeIn_extra_le (by decide)
  have hdextra : ∀ distance, (distanceCode distance).2.1 ≤ 13 := codeIn_extra_le (by decide)
  rw [size]
  refine (foldl_le (fun n t => ?_) ts _).trans (Nat.add_le_add_right (hlits endOfBlock) _)
  cases t with
  | literal b =>
    have hb : fixedLiteralLengths.getD b.toNat 0 ≤ 9 := hlits b.toNat
    simp only [Codes.fixed]
    omega
  | reference length distance =>
    have hl := hlits (257 + (lengthCode length).1)
    have hd := hdists (distanceCode distance).1
    have he := hextra length
    have hde := hdextra distance
    change n + fixedLiteralLengths.getD (257 + (lengthCode length).1) 0 + (lengthCode length).2.1 +
      fixedDistanceLengths.getD (distanceCode distance).1 0 + (distanceCode distance).2.1 ≤ n + 32
    omega

/-- A block is written in some way that can be read. -/
theorem delivers_putBlock (h : Covers bytes j i ts) (hfew : ts.length ≤ blockTokens) (last : Bool)
    (bits : Array Bool) :
    ∃ tail, (putBlock last ts ((bytes.drop i).take (j - i)) bits).toList = bits.toList ++ tail ∧
      Delivers bytes i j last bits.size tail := by
  have hsize := size_fixed_le ts
  have hlimit : blockTokens = 16383 := rfl
  have hij : i ≤ j := h.eq_add ▸ Nat.le_add_right ..
  have hfixed := delivers_fixed h last bits
  have hown := delivers_own h last bits
  rw [ownCodes] at hown
  rw [putBlock]
  split
  next lf df hfrequencies =>
  rw [hfrequencies] at hown
  dsimp only
  split
  · next hplain =>
    exact delivers_plain rfl hij (by omega) last bits
  split
  · exact hfixed
  · exact hown

/-! ### Whole streams -/

theorem spanOf_eq (ts : List Token) : spanOf ts = (ts.map Token.span).sum := by
  have hsum : ∀ n, ts.foldl (fun n t => match t with
      | .literal _ => n + 1
      | .reference length _ => n + length) n = n + (ts.map Token.span).sum := by
    induction ts with
    | nil => exact fun n => rfl
    | cons t ts ih =>
      intro n
      rw [List.foldl_cons, ih, List.map_cons, List.sum_cons, ← Nat.add_assoc]
      cases t with
      | literal b => rfl
      | reference length distance => rfl
  exact (hsum 0).trans (Nat.zero_add _)

/-- All blocks from some place on are read back as the bytes from there on. -/
theorem takeBlocks_putBlocks (h : Covers bytes bytes.length i ts) (hi : i ≤ bytes.length)
    (hfuel : ts.length < fuel) (bits : Array Bool) :
    ∃ tail, (putBlocks fuel ts (bytes.drop i) bits).toList = bits.toList ++ tail ∧
      ∀ total fuel' rest, tail.length ≤ total → tail.length < fuel' →
        (bits.size + tail.length + rest.length) % 8 = 0 →
        takeBlocks total fuel' (tail ++ rest) (bytes.take i).toArray = .ok (rest, bytes.toArray) := by
  induction fuel generalizing i ts bits with
  | zero => omega
  | succ fuel ih =>
    rw [putBlocks]
    split
    · next hfew =>
      obtain ⟨tail, htail, hdelivers⟩ := delivers_putBlock h hfew.le true bits
      rw [List.take_of_length_le (by simp)] at htail
      refine ⟨tail, htail, fun total fuel' rest htotal hfuel' hwhole => ?_⟩
      obtain ⟨fuel', rfl⟩ : ∃ n, fuel' = n + 1 := ⟨fuel' - 1, by omega⟩
      rw [hdelivers.reads total fuel' rest htotal hwhole, List.take_length]
      rfl
    · next hmany =>
      have hlimit : blockTokens = 16383 := rfl
      obtain ⟨j, hblock, hafter⟩ :=
        Covers.of_append ((List.take_append_drop blockTokens ts).symm ▸ h)
      have hj : j = i + spanOf (ts.take blockTokens) := by
        rw [spanOf_eq]
        exact hblock.eq_add
      have hspan : spanOf (ts.take blockTokens) = j - i := by omega
      have hle : j ≤ bytes.length := hafter.eq_add ▸ Nat.le_add_right ..
      dsimp only
      rw [hspan, List.drop_drop, Nat.add_sub_of_le (by omega)]
      obtain ⟨tail, htail, hdelivers⟩ :=
        delivers_putBlock hblock (List.length_take_le ..) false bits
      obtain ⟨tail', htail', hreads⟩ := ih hafter hle
        (by rw [List.length_drop]; omega)
        (putBlock false (ts.take blockTokens) ((bytes.drop i).take (j - i)) bits)
      have hsize := congrArg List.length htail
      rw [List.length_append, Array.length_toList, Array.length_toList] at hsize
      refine ⟨tail ++ tail', by rw [htail', htail, List.append_assoc], ?_⟩
      intro total fuel' rest htotal hfuel' hwhole
      rw [List.length_append] at htotal hfuel' hwhole
      have hthree := hdelivers.three_le
      obtain ⟨fuel', rfl⟩ : ∃ n, fuel' = n + 1 := ⟨fuel' - 1, by omega⟩
      rw [List.append_assoc, hdelivers.reads total fuel' (tail' ++ rest) (by omega)
        (by rw [List.length_append]; omega)]
      exact hreads total fuel' rest (by omega) (by omega) (by omega)

/-- A stream is read back as the bytes that it was made from; what is behind it is left. -/
theorem decode_encode (bytes rest : Bytes) : decode (encode bytes ++ rest) = .ok (bytes, rest) := by
  obtain ⟨tail, htail, hreads⟩ := takeBlocks_putBlocks (covers_tokens bytes) (Nat.zero_le _)
    (Nat.lt_add_one _) #[]
  rw [List.drop_zero, Array.toList_empty, List.nil_append] at htail
  have hsize := congrArg List.length htail
  rw [Array.length_toList] at hsize
  have hbits : bitsOf (encode bytes) = tail ++ List.replicate ((8 - tail.length % 8) % 8) false := by
    rw [encode, htail, bitsOf_pack (by omega)]
  have hall : bitsOf (encode bytes ++ rest) =
      tail ++ (List.replicate ((8 - tail.length % 8) % 8) false ++ bitsOf rest) := by
    rw [bitsOf_append, hbits, List.append_assoc]
  have hlength := congrArg List.length hall
  simp only [length_bitsOf, List.length_append, List.length_replicate] at hlength
  have hread := hreads (bitsOf (encode bytes ++ rest)).length
    ((bitsOf (encode bytes ++ rest)).length + 1)
    (List.replicate ((8 - tail.length % 8) % 8) false ++ bitsOf rest)
    (by rw [hall, List.length_append]; omega) (by rw [hall, List.length_append]; omega)
    (by simp; omega)
  rw [← hall] at hread
  -- the zeros up to a whole byte are no byte
  have hleft : (encode bytes ++ rest).length -
      (List.replicate ((8 - tail.length % 8) % 8) false ++ bitsOf rest).length / 8 =
        (encode bytes).length := by
    simp only [List.length_append, List.length_replicate, length_bitsOf]
    omega
  change (takeBlocks (bitsOf (encode bytes ++ rest)).length
    ((bitsOf (encode bytes ++ rest)).length + 1) (bitsOf (encode bytes ++ rest)) #[]).bind _ = _
  rw [show (#[] : Array UInt8) = (bytes.take 0).toArray from rfl, hread]
  change Except.ok (bytes, (encode bytes ++ rest).drop _) = _
  rw [hleft, List.drop_left]

end HotSwap.Codec.Deflate
