import ScriptAgent.Text.Hex

/-!
# Digests

SHA-256 over the UTF-8 bytes of a text, and the short fingerprint made of its first eight bytes.
-/

namespace ScriptAgent.Digest

/-- A 32-bit word. -/
abbrev Word := UInt32

/-- The eight words that a block changes. -/
structure Working where
  a : Word
  b : Word
  c : Word
  d : Word
  e : Word
  f : Word
  g : Word
  h : Word
deriving DecidableEq, Repr

/-- The words before the first block. -/
def initial : Working :=
  ⟨0x6a09e667, 0xbb67ae85, 0x3c6ef372, 0xa54ff53a, 0x510e527f, 0x9b05688c, 0x1f83d9ab, 0x5be0cd19⟩

/-- The constants of the 64 rounds. -/
def roundConstants : List Word := [
  0x428a2f98, 0x71374491, 0xb5c0fbcf, 0xe9b5dba5, 0x3956c25b, 0x59f111f1, 0x923f82a4, 0xab1c5ed5,
  0xd807aa98, 0x12835b01, 0x243185be, 0x550c7dc3, 0x72be5d74, 0x80deb1fe, 0x9bdc06a7, 0xc19bf174,
  0xe49b69c1, 0xefbe4786, 0x0fc19dc6, 0x240ca1cc, 0x2de92c6f, 0x4a7484aa, 0x5cb0a9dc, 0x76f988da,
  0x983e5152, 0xa831c66d, 0xb00327c8, 0xbf597fc7, 0xc6e00bf3, 0xd5a79147, 0x06ca6351, 0x14292967,
  0x27b70a85, 0x2e1b2138, 0x4d2c6dfc, 0x53380d13, 0x650a7354, 0x766a0abb, 0x81c2c92e, 0x92722c85,
  0xa2bfe8a1, 0xa81a664b, 0xc24b8b70, 0xc76c51a3, 0xd192e819, 0xd6990624, 0xf40e3585, 0x106aa070,
  0x19a4c116, 0x1e376c08, 0x2748774c, 0x34b0bcb5, 0x391c0cb3, 0x4ed8aa4a, 0x5b9cca4f, 0x682e6ff3,
  0x748f82ee, 0x78a5636f, 0x84c87814, 0x8cc70208, 0x90befffa, 0xa4506ceb, 0xbef9a3f7, 0xc67178f2]

/-- A word turned to the right. -/
def rotate (x : Word) (n : Nat) : Word :=
  (x >>> UInt32.ofNat n) ||| (x <<< UInt32.ofNat (32 - n))

/-- The word that four bytes write, the first being the greatest. -/
def wordOf (bytes : List UInt8) : Word :=
  bytes.foldl (fun w b => (w <<< 8) ||| b.toUInt32) 0

/-- The bytes of a number, the greatest first. -/
def bytesOf (count n : Nat) : List UInt8 :=
  (List.range count).reverse.map fun i => UInt8.ofNat (n / Nat.pow 256 i)

/-- A message filled up to whole blocks of 64 bytes: a one bit, zeros, and its length in bits. -/
def padded (message : List UInt8) : List UInt8 :=
  let zeros := (119 - message.length % 64) % 64
  message ++ [0x80] ++ List.replicate zeros 0 ++ bytesOf 8 (message.length * 8)

/-- The pieces of `size` items that a list is made of; the fuel bounds their number. -/
def pieces (size : Nat) : Nat → List α → List (List α)
  | 0, _ => []
  | fuel + 1, xs => if xs.isEmpty then [] else xs.take size :: pieces size fuel (xs.drop size)

/-- The next word of the schedule, the words before being listed latest first. -/
def nextWord (latest : List Word) : Word :=
  let at_ (n : Nat) : Word := latest.getD (n - 1) 0
  let s0 := rotate (at_ 15) 7 ^^^ rotate (at_ 15) 18 ^^^ (at_ 15 >>> 3)
  let s1 := rotate (at_ 2) 17 ^^^ rotate (at_ 2) 19 ^^^ (at_ 2 >>> 10)
  at_ 16 + s0 + at_ 7 + s1

/-- The 64 words made of the 16 words of a block. -/
def schedule (block : List Word) : List Word :=
  ((List.range 48).foldl (fun latest _ => nextWord latest :: latest) block.reverse).reverse

/-- One round with its constant and its word. -/
def round (w : Working) (k word : Word) : Working :=
  let s1 := rotate w.e 6 ^^^ rotate w.e 11 ^^^ rotate w.e 25
  let choice := (w.e &&& w.f) ^^^ ((~~~ w.e) &&& w.g)
  let t1 := w.h + s1 + choice + k + word
  let s0 := rotate w.a 2 ^^^ rotate w.a 13 ^^^ rotate w.a 22
  let majority := (w.a &&& w.b) ^^^ (w.a &&& w.c) ^^^ (w.b &&& w.c)
  ⟨t1 + s0 + majority, w.a, w.b, w.c, w.d + t1, w.e, w.f, w.g⟩

/-- The words after a block of bytes. -/
def compress (w : Working) (block : List UInt8) : Working :=
  let words := schedule ((pieces 4 16 block).map wordOf)
  let v := (roundConstants.zip words).foldl (fun v (k, word) => round v k word) w
  ⟨w.a + v.a, w.b + v.b, w.c + v.c, w.d + v.d, w.e + v.e, w.f + v.f, w.g + v.g, w.h + v.h⟩

/-- The words of a digest in order. -/
def Working.words (w : Working) : List Word :=
  [w.a, w.b, w.c, w.d, w.e, w.f, w.g, w.h]

/-- The digest of bytes. -/
def sha256 (message : List UInt8) : List UInt8 :=
  let bytes := padded message
  ((pieces 64 bytes.length bytes).foldl compress initial).words.flatMap fun w => bytesOf 4 w.toNat

/-- Bytes as hexadecimal digits. -/
def hexText (bytes : List UInt8) : String :=
  String.ofList (bytes.flatMap fun b => [Text.hexDigit (b.toNat / 16), Text.hexDigit (b.toNat % 16)])

/-- The first eight bytes of a text's digest. -/
def fingerprint (s : String) : String :=
  hexText ((sha256 s.toUTF8.toList).take 8)

example : hexText ((sha256 [97, 98, 99]).take 4) = "ba7816bf" := by decide +kernel

end ScriptAgent.Digest
