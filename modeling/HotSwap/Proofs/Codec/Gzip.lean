/-
What is compressed is read back.

* `gunzip_gzip` — the gzip form of a byte string is read as that byte string.
-/
import HotSwap.Codec.Gzip
import HotSwap.Proofs.Codec.Blocks

namespace HotSwap.Codec

theorem length_littleEndian (w n : Nat) : (littleEndian w n).length = w := by
  induction w generalizing n with
  | zero => rfl
  | succ w ih => rw [littleEndian, List.length_cons, ih]

/-- A number is read back from its bytes. -/
theorem littleEndianValue_littleEndian {w n : Nat} (h : n < 256 ^ w) :
    littleEndianValue (littleEndian w n) = n := by
  induction w generalizing n with
  | zero =>
    obtain rfl : n = 0 := by simpa using h
    rfl
  | succ w ih =>
    rw [Nat.pow_succ] at h
    rw [littleEndian, littleEndianValue, ih (by omega), UInt8.toNat_ofNat']
    omega

/-- A header without options is dropped. -/
theorem dropHeader_plain (rest : Bytes) :
    dropHeader ([0x1f, 0x8b, 8, 0, 0, 0, 0, 0, 2, 3] ++ rest) = .ok (some rest) := by
  have hlength : ¬ ([8, 0, 0, 0, 0, 0, 2, 3] ++ rest : Bytes).length < 8 := by
    simp
  have hdrop : dropExact 8 ([8, 0, 0, 0, 0, 0, 2, 3] ++ rest) = .ok rest := if_neg hlength
  rw [dropHeader]
  simp [bind, Except.bind, pure, Except.pure] at hdrop ⊢
  simp [hdrop]

theorem gunzipMembers_nil (fuel : Nat) : gunzipMembers fuel [] = .ok [] := by
  cases fuel with
  | zero => rfl
  | succ fuel => rfl

/-- A member is read, with what comes behind it. -/
theorem gunzipMembers_gzip (bytes : Bytes) (fuel : Nat) :
    gunzipMembers (fuel + 1) (gzip bytes) = .ok bytes := by
  have hcrc : (crc32 bytes).toNat < 256 ^ 4 := (crc32 bytes).toNat_lt
  have hlength : bytes.length % Nat.pow 2 32 < 256 ^ 4 := Nat.mod_lt _ (by decide)
  have hdecode := Deflate.decode_encode bytes
    (littleEndian 4 (crc32 bytes).toNat ++ littleEndian 4 (bytes.length % Nat.pow 2 32))
  have hgzip : gzip bytes = [0x1f, 0x8b, 8, 0, 0, 0, 0, 0, 2, 3] ++ (Deflate.encode bytes ++
      (littleEndian 4 (crc32 bytes).toNat ++ littleEndian 4 (bytes.length % Nat.pow 2 32))) := by
    rw [gzip, List.append_assoc, List.append_assoc]
  rw [hgzip, gunzipMembers, dropHeader_plain]
  simp only [bind, Except.bind]
  rw [hdecode]
  dsimp only
  generalize hA : littleEndian 4 (crc32 bytes).toNat = checkBytes
  generalize hB : littleEndian 4 (bytes.length % Nat.pow 2 32) = lengthBytes
  have hcheck : littleEndianValue checkBytes = (crc32 bytes).toNat :=
    hA ▸ littleEndianValue_littleEndian hcrc
  have hsize : littleEndianValue lengthBytes = bytes.length % Nat.pow 2 32 :=
    hB ▸ littleEndianValue_littleEndian hlength
  have hfour : checkBytes.length = 4 := hA ▸ length_littleEndian 4 _
  have hfour' : lengthBytes.length = 4 := hB ▸ length_littleEndian 4 _
  have hdrop : (checkBytes ++ lengthBytes).drop 8 = [] :=
    List.drop_eq_nil_of_le (by rw [List.length_append]; omega)
  rw [if_neg (by rw [List.length_append]; omega), List.take_left' hfour, if_neg (by simp [hcheck]),
    List.drop_left' hfour, List.take_of_length_le hfour'.le, if_neg (by simp [hsize]), hdrop,
    List.dropWhile_nil, gunzipMembers_nil]
  simp [pure, Except.pure]

/-- The gzip form of a byte string is read as that byte string. -/
theorem gunzip_gzip (bytes : Bytes) : gunzip (gzip bytes) = .ok bytes :=
  gunzipMembers_gzip bytes _

end HotSwap.Codec
