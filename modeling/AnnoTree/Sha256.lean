import AnnoTree.Text.Quoted
import AnnoTree.Text.Utf8

/-!
# SHA-256

The digest of a sequence of octets (FIPS 180-4): the message is padded to whole blocks of 64
octets, and each block is mixed into eight words.
-/

namespace AnnoTree.Sha256

open AnnoTree.Text

/-! ## §1 Constants -/

/-- The words that the 64 rounds add. -/
def roundWords : List UInt32 :=
  [0x428a2f98, 0x71374491, 0xb5c0fbcf, 0xe9b5dba5, 0x3956c25b, 0x59f111f1, 0x923f82a4, 0xab1c5ed5,
   0xd807aa98, 0x12835b01, 0x243185be, 0x550c7dc3, 0x72be5d74, 0x80deb1fe, 0x9bdc06a7, 0xc19bf174,
   0xe49b69c1, 0xefbe4786, 0x0fc19dc6, 0x240ca1cc, 0x2de92c6f, 0x4a7484aa, 0x5cb0a9dc, 0x76f988da,
   0x983e5152, 0xa831c66d, 0xb00327c8, 0xbf597fc7, 0xc6e00bf3, 0xd5a79147, 0x06ca6351, 0x14292967,
   0x27b70a85, 0x2e1b2138, 0x4d2c6dfc, 0x53380d13, 0x650a7354, 0x766a0abb, 0x81c2c92e, 0x92722c85,
   0xa2bfe8a1, 0xa81a664b, 0xc24b8b70, 0xc76c51a3, 0xd192e819, 0xd6990624, 0xf40e3585, 0x106aa070,
   0x19a4c116, 0x1e376c08, 0x2748774c, 0x34b0bcb5, 0x391c0cb3, 0x4ed8aa4a, 0x5b9cca4f, 0x682e6ff3,
   0x748f82ee, 0x78a5636f, 0x84c87814, 0x8cc70208, 0x90befffa, 0xa4506ceb, 0xbef9a3f7, 0xc67178f2]

/-- The eight words of a running digest. -/
structure State where
  a : UInt32
  b : UInt32
  c : UInt32
  d : UInt32
  e : UInt32
  f : UInt32
  g : UInt32
  h : UInt32
  deriving DecidableEq, Repr

/-- The digest before any block. -/
def initial : State :=
  ⟨0x6a09e667, 0xbb67ae85, 0x3c6ef372, 0xa54ff53a, 0x510e527f, 0x9b05688c, 0x1f83d9ab, 0x5be0cd19⟩

/-- The words of a running digest, in order. -/
def State.words (s : State) : List UInt32 :=
  [s.a, s.b, s.c, s.d, s.e, s.f, s.g, s.h]

/-- Word-wise sum. -/
def State.add (s t : State) : State :=
  ⟨s.a + t.a, s.b + t.b, s.c + t.c, s.d + t.d, s.e + t.e, s.f + t.f, s.g + t.g, s.h + t.h⟩

/-! ## §2 Mixing one block -/

/-- Rotation to the right, by 1 to 31 places. -/
def rotate (x n : UInt32) : UInt32 :=
  (x >>> n) ||| (x <<< (32 - n))

/-- One round, for a round word and a message word. -/
def State.round (s : State) (k w : UInt32) : State :=
  let big := rotate s.e 6 ^^^ rotate s.e 11 ^^^ rotate s.e 25
  let choice := (s.e &&& s.f) ^^^ (s.e.complement &&& s.g)
  let t := s.h + big + choice + k + w
  let small := rotate s.a 2 ^^^ rotate s.a 13 ^^^ rotate s.a 22
  let majority := (s.a &&& s.b) ^^^ (s.a &&& s.c) ^^^ (s.b &&& s.c)
  ⟨t + (small + majority), s.a, s.b, s.c, s.d + t, s.e, s.f, s.g⟩

/-- The word that follows sixteen message words, of which the last comes first. -/
def nextWord (recent : List UInt32) : UInt32 :=
  let at_ (i : Nat) := recent.getD i 0
  let s0 := rotate (at_ 14) 7 ^^^ rotate (at_ 14) 18 ^^^ (at_ 14 >>> 3)
  let s1 := rotate (at_ 1) 17 ^^^ rotate (at_ 1) 19 ^^^ (at_ 1 >>> 10)
  at_ 15 + s0 + at_ 6 + s1

/-- The message words with `n` more in front, the last one first. -/
def extend : (n : Nat) → List UInt32 → List UInt32
  | 0, words => words
  | n + 1, words => extend n (nextWord words :: words)

/-- A running digest after one block of sixteen words. -/
def State.block (s : State) (words : List UInt32) : State :=
  let schedule := (extend 48 words.reverse).reverse
  s.add ((roundWords.zip schedule).foldl (fun t kw => t.round kw.1 kw.2) s)

/-! ## §3 Padding and blocks -/

/-- The last `width` octets of a number, most significant first. -/
def bigEndian : (width : Nat) → Nat → List Octet
  | 0, _ => []
  | w + 1, n => bigEndian w (n / 256) ++ [UInt8.ofNat (n % 256)]

/-- The message with its end mark, zeros up to a whole block, and its length in bits. -/
def pad (message : List Octet) : List Octet :=
  let zeros := (119 - message.length % 64) % 64
  message ++ 0x80 :: List.replicate zeros 0 ++ bigEndian 8 (8 * message.length)

/-- The words that octets spell, four by four. -/
def toWords : List Octet → List UInt32
  | w :: x :: y :: z :: rest =>
    UInt32.ofNat (ofDigits4 w x y z) :: toWords rest
  | _ => []
where
  /-- The number that four octets spell. -/
  ofDigits4 (w x y z : Octet) : Nat :=
    ((w.toNat * 256 + x.toNat) * 256 + y.toNat) * 256 + z.toNat

/-- A running digest after `n` blocks of words. -/
def absorb : (n : Nat) → State → List UInt32 → State
  | 0, s, _ => s
  | n + 1, s, words => absorb n (s.block (words.take 16)) (words.drop 16)

/-- The digest of a message in lower-case hexadecimal digits. -/
def hexDigest (message : List Octet) : String :=
  let words := toWords (pad message)
  let digest := absorb (words.length / 16) initial words
  String.ofList (digest.words.flatMap fun w => hexDigits 8 w.toNat)

end AnnoTree.Sha256
