/-
The gzip format: deflate streams with a header, a check and a length.

* `gzip` — a single member without a time stamp;
* `gunzip` — the contents of all members, one after another;
* `GzipError` — what can be wrong.

Design notes: between members zero bytes are skipped, and anything else that is
no member is refused.
-/
import HotSwap.Codec.Crc32
import HotSwap.Codec.Deflate.Encoder
import HotSwap.Codec.Deflate.Decoder
import HotSwap.Text.Quoted

namespace HotSwap.Codec

/-- What is wrong with gzip data. -/
inductive GzipError where
  /-- It does not begin as gzip data; the first two bytes. -/
  | notGzip (magic : Bytes)
  | method
  | cutShort
  | check
  | length
  | damaged (d : Deflate.Damage)
  deriving DecidableEq, Repr

/-- The text for a damaged deflate stream. -/
def Deflate.Damage.text : Deflate.Damage → String
  | .cutShort => "incomplete or truncated stream"
  | .blockType => "invalid block type"
  | .storedLengths => "invalid stored block lengths"
  | .tooManySymbols => "too many length or distance symbols"
  | .codeLengthSet => "invalid code lengths set"
  | .lengthRepeat => "invalid bit length repeat"
  | .noEndOfBlock => "invalid code -- missing end-of-block"
  | .literalSet => "invalid literal/lengths set"
  | .distanceSet => "invalid distances set"
  | .literalCode => "invalid literal/length code"
  | .distanceCode => "invalid distance code"
  | .distanceTooFar => "invalid distance too far back"

/-- The kind of a gzip error. -/
def GzipError.kind : GzipError → String
  | notGzip _ | method | check | length => "BadGzipFile"
  | cutShort => "EOFError"
  | damaged _ => "error"

/-- The message of a gzip error. -/
def GzipError.message : GzipError → String
  | notGzip magic => "Not a gzipped file (" ++ Text.quotedBytes magic ++ ")"
  | method => "Unknown compression method"
  | cutShort => "Compressed file ended before the end-of-stream marker was reached"
  | check => "CRC check failed"
  | length => "Incorrect length of data produced"
  | damaged d => "Error -3 while decompressing data: " ++ d.text

/-- The little-endian bytes of a number. -/
def littleEndian : (width : Nat) → Nat → Bytes
  | 0, _ => []
  | w + 1, n => UInt8.ofNat (n % 256) :: littleEndian w (n / 256)

/-- The number of little-endian bytes. -/
def littleEndianValue : Bytes → Nat
  | [] => 0
  | b :: rest => b.toNat + 256 * littleEndianValue rest

/-- The gzip form of a byte string. -/
def gzip (bytes : Bytes) : Bytes :=
  [0x1f, 0x8b, 8, 0, 0, 0, 0, 0, 2, 3] ++ Deflate.encode bytes
    ++ littleEndian 4 (crc32 bytes).toNat ++ littleEndian 4 (bytes.length % Nat.pow 2 32)

/-- Drops `n` bytes that have to be there. -/
def dropExact (n : Nat) (bytes : Bytes) : Except GzipError Bytes :=
  if bytes.length < n then .error .cutShort else .ok (bytes.drop n)

/-- Drops a text that ends with a zero byte. -/
def dropText (bytes : Bytes) : Bytes := (bytes.dropWhile (· != 0)).drop 1

/-- Drops the header of a member; nothing for empty data. -/
def dropHeader (bytes : Bytes) : Except GzipError (Option Bytes) := do
  if bytes.isEmpty then return none
  if bytes.take 2 != [0x1f, 0x8b] then throw (.notGzip (bytes.take 2))
  let rest ← dropExact 8 (bytes.drop 2)
  let flags := (bytes.getD 3 0).toNat
  if bytes.getD 2 0 != 8 then throw .method
  let rest ←
    if flags / 4 % 2 == 1 then do
      let after ← dropExact 2 rest
      dropExact (littleEndianValue (rest.take 2)) after
    else pure rest
  let rest := if flags / 8 % 2 == 1 then dropText rest else rest
  let rest := if flags / 16 % 2 == 1 then dropText rest else rest
  let rest ← if flags / 2 % 2 == 1 then dropExact 2 rest else pure rest
  return some rest

/-- Reads members until the data ends; each one takes at least a byte. -/
def gunzipMembers : (fuel : Nat) → Bytes → Except GzipError Bytes
  | 0, _ => .ok []
  | fuel + 1, bytes => do
    match ← dropHeader bytes with
    | none => return []
    | some body =>
      match Deflate.decode body with
      | .error .cutShort => throw .cutShort
      | .error d => throw (.damaged d)
      | .ok (content, rest) =>
        if rest.length < 8 then throw .cutShort
        if littleEndianValue (rest.take 4) != (crc32 content).toNat then throw .check
        if littleEndianValue ((rest.drop 4).take 4) != content.length % Nat.pow 2 32 then throw .length
        let more ← gunzipMembers fuel ((rest.drop 8).dropWhile (· == 0))
        return content ++ more

/-- The content of gzip data. -/
def gunzip (bytes : Bytes) : Except GzipError Bytes := gunzipMembers (bytes.length + 1) bytes

end HotSwap.Codec
