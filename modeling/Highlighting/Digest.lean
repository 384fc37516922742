/-!
# Digests

Files are identified by the MD5 digest of their text, in lower-case hexadecimal. The text is taken
as UTF-8, padded to whole blocks of 64 bytes with its length in bits at the end, and folded block
by block into four words of 32 bits.

## Main definitions

* `Digest.pad`: the padded bytes of a text
* `Digest.compress`: the effect of one block
* `Digest.ofText`: the digest of a text
-/

namespace Highlighting

namespace Digest

/-- The four words that blocks are folded into. -/
structure Words where
  a : UInt32
  b : UInt32
  c : UInt32
  d : UInt32
  deriving DecidableEq, Repr, Inhabited

/-- The words before the first block. -/
def initial : Words :=
  ⟨0x67452301, 0xefcdab89, 0x98badcfe, 0x10325476⟩

/-- The constant that each of the 64 steps adds: the first 32 bits of the fraction of the sine of
the number of the step. -/
def constants : Array UInt32 :=
  #[
    0xd76aa478, 0xe8c7b756, 0x242070db, 0xc1bdceee, 0xf57c0faf, 0x4787c62a,
    0xa8304613, 0xfd469501, 0x698098d8, 0x8b44f7af, 0xffff5bb1, 0x895cd7be,
    0x6b901122, 0xfd987193, 0xa679438e, 0x49b40821, 0xf61e2562, 0xc040b340,
    0x265e5a51, 0xe9b6c7aa, 0xd62f105d, 0x02441453, 0xd8a1e681, 0xe7d3fbc8,
    0x21e1cde6, 0xc33707d6, 0xf4d50d87, 0x455a14ed, 0xa9e3e905, 0xfcefa3f8,
    0x676f02d9, 0x8d2a4c8a, 0xfffa3942, 0x8771f681, 0x6d9d6122, 0xfde5380c,
    0xa4beea44, 0x4bdecfa9, 0xf6bb4b60, 0xbebfbc70, 0x289b7ec6, 0xeaa127fa,
    0xd4ef3085, 0x04881d05, 0xd9d4d039, 0xe6db99e5, 0x1fa27cf8, 0xc4ac5665,
    0xf4292244, 0x432aff97, 0xab9423a7, 0xfc93a039, 0x655b59c3, 0x8f0ccc92,
    0xffeff47d, 0x85845dd1, 0x6fa87e4f, 0xfe2ce6e0, 0xa3014314, 0x4e0811a1,
    0xf7537e82, 0xbd3af235, 0x2ad7d2bb, 0xeb86d391]

/-- By how much each step rotates. A round of 16 steps repeats four amounts. -/
def rotation (step : Nat) : UInt32 :=
  let amounts : Array UInt32 := #[7, 12, 17, 22, 5, 9, 14, 20, 4, 11, 16, 23, 6, 10, 15, 21]
  amounts.getD (step / 16 * 4 + step % 4) 0

/-- Rotates a word to the left. -/
def rotate (x n : UInt32) : UInt32 :=
  (x <<< n) ||| (x >>> (32 - n))

/-- How a step mixes three words, and which word of the block it takes. -/
def mix (step : Nat) (w : Words) : UInt32 × Nat :=
  match step / 16 with
  | 0 => ((w.b &&& w.c) ||| (~~~w.b &&& w.d), step)
  | 1 => ((w.d &&& w.b) ||| (~~~w.d &&& w.c), (5 * step + 1) % 16)
  | 2 => (w.b ^^^ w.c ^^^ w.d, (3 * step + 5) % 16)
  | _ => (w.c ^^^ (w.b ||| ~~~w.d), 7 * step % 16)

/-- One of the 64 steps for a block. -/
def step (block : Array UInt32) (w : Words) (n : Nat) : Words :=
  let (mixed, k) := mix n w
  let sum := w.a + mixed + constants.getD n 0 + block.getD k 0
  ⟨w.d, w.b + rotate sum (rotation n), w.b, w.c⟩

/-- The effect of one block. -/
def compress (w : Words) (block : Array UInt32) : Words :=
  let x := (List.range 64).foldl (step block) w
  ⟨w.a + x.a, w.b + x.b, w.c + x.c, w.d + x.d⟩

/-- The eight bytes of a number, lowest first. -/
def lengthBytes (n : Nat) : List UInt8 :=
  (List.range 8).map fun k => (n / Nat.pow 256 k % 256).toUInt8

/-- The bytes of a text, padded to whole blocks. -/
def pad (bytes : ByteArray) : ByteArray :=
  let zeros := (119 - bytes.size % 64) % 64
  let padding := 0x80 :: List.replicate zeros 0 ++ lengthBytes (8 * bytes.size)
  padding.foldl ByteArray.push bytes

/-- The word of four bytes from an offset on, lowest byte first. -/
def word (bytes : ByteArray) (offset : Nat) : UInt32 :=
  let byte (k : Nat) : UInt32 := (bytes[offset + k]?.getD 0).toUInt32
  byte 0 ||| (byte 1 <<< 8) ||| (byte 2 <<< 16) ||| (byte 3 <<< 24)

/-- The words of the block with a number. -/
def block (bytes : ByteArray) (n : Nat) : Array UInt32 :=
  ((List.range 16).map fun k => word bytes (64 * n + 4 * k)).toArray

/-- A byte as two hexadecimal digits. -/
def byteText (n : Nat) : String :=
  String.ofList [Nat.digitChar (n / 16), Nat.digitChar (n % 16)]

/-- A word as eight hexadecimal digits, lowest byte first. -/
def wordText (x : UInt32) : String :=
  String.join ((List.range 4).map fun k => byteText (x.toNat / Nat.pow 256 k % 256))

/-- The digest of a text. -/
def ofText (text : String) : String :=
  let bytes := pad text.toUTF8
  let w := (List.range (bytes.size / 64)).foldl (fun w n => compress w (block bytes n)) initial
  wordText w.a ++ wordText w.b ++ wordText w.c ++ wordText w.d

end Digest

end Highlighting
