/-! # SHA-256

The digest of a byte string: the padded message is cut into blocks of sixty-four bytes, each
of which is expanded to sixty-four words and mixed into eight words of state.
-/

namespace Setlist

/-- A digest is known by its bytes. -/
structure Digest where
  bytes : List UInt8
  deriving DecidableEq, Repr

namespace Digest

/-- Round constants: the first fractional bits of the cube roots of the first primes. -/
def roundWords : List UInt32 := [
    0x428a2f98, 0x71374491, 0xb5c0fbcf, 0xe9b5dba5, 0x3956c25b, 0x59f111f1,
    0x923f82a4, 0xab1c5ed5, 0xd807aa98, 0x12835b01, 0x243185be, 0x550c7dc3,
    0x72be5d74, 0x80deb1fe, 0x9bdc06a7, 0xc19bf174, 0xe49b69c1, 0xefbe4786,
    0x0fc19dc6, 0x240ca1cc, 0x2de92c6f, 0x4a7484aa, 0x5cb0a9dc, 0x76f988da,
    0x983e5152, 0xa831c66d, 0xb00327c8, 0xbf597fc7, 0xc6e00bf3, 0xd5a79147,
    0x06ca6351, 0x14292967, 0x27b70a85, 0x2e1b2138, 0x4d2c6dfc, 0x53380d13,
    0x650a7354, 0x766a0abb, 0x81c2c92e, 0x92722c85, 0xa2bfe8a1, 0xa81a664b,
    0xc24b8b70, 0xc76c51a3, 0xd192e819, 0xd6990624, 0xf40e3585, 0x106aa070,
    0x19a4c116, 0x1e376c08, 0x2748774c, 0x34b0bcb5, 0x391c0cb3, 0x4ed8aa4a,
    0x5b9cca4f, 0x682e6ff3, 0x748f82ee, 0x78a5636f, 0x84c87814, 0x8cc70208,
    0x90befffa, 0xa4506ceb, 0xbef9a3f7, 0xc67178f2]

/-- The first fractional bits of the square roots of the first primes. -/
def startWords : List UInt32 := [
    0x6a09e667, 0xbb67ae85, 0x3c6ef372, 0xa54ff53a,
    0x510e527f, 0x9b05688c, 0x1f83d9ab, 0x5be0cd19]

def rotate (word : UInt32) (count : UInt32) : UInt32 := (word >>> count) ||| (word <<< (32 - count))

def littleBytes : Nat → Nat → List UInt8
  | 0, _ => []
  | width + 1, value => UInt8.ofNat (value % 256) :: littleBytes width (value / 256)

def bigBytes (width value : Nat) : List UInt8 := (littleBytes width value).reverse

/-- Zeros that bring a message, its end mark and its length to whole blocks. -/
def zeroCount (length : Nat) : Nat := (119 - length % 64) % 64

/-- The message, an end mark, zeros up to the last eight bytes of a block, and its bit length. -/
def padded (message : List UInt8) : List UInt8 :=
  message ++ 0x80 :: (List.replicate (zeroCount message.length) 0 ++ bigBytes 8 (8 * message.length))

/-- Big-endian words of a byte string. -/
def wordsOf : List UInt8 → List UInt32
  | a :: b :: c :: d :: rest =>
    ((a.toUInt32 <<< 24) ||| (b.toUInt32 <<< 16) ||| (c.toUInt32 <<< 8) ||| d.toUInt32) ::
      wordsOf rest
  | _ => []

/-- Puts `count` more words in front of a schedule that is kept in reverse. -/
def extend : Nat → List UInt32 → List UInt32
  | 0, schedule => schedule
  | count + 1, schedule =>
    let early := schedule.getD 14 0
    let late := schedule.getD 1 0
    let small := rotate early 7 ^^^ rotate early 18 ^^^ (early >>> 3)
    let large := rotate late 17 ^^^ rotate late 19 ^^^ (late >>> 10)
    extend count ((schedule.getD 15 0 + small + schedule.getD 6 0 + large) :: schedule)

def round (state : List UInt32) (words : UInt32 × UInt32) : List UInt32 :=
  match state with
  | [a, b, c, d, e, f, g, h] =>
    let choice := (e &&& f) ^^^ (~~~e &&& g)
    let mixed := rotate e 6 ^^^ rotate e 11 ^^^ rotate e 25
    let first := h + mixed + choice + words.1 + words.2
    let majority := (a &&& b) ^^^ (a &&& c) ^^^ (b &&& c)
    let second := (rotate a 2 ^^^ rotate a 13 ^^^ rotate a 22) + majority
    [first + second, a, b, c, d + first, e, f, g]
  | state => state

def absorb (state block : List UInt32) : List UInt32 :=
  let schedule := (extend 48 block.reverse).reverse
  List.zipWith (· + ·) state ((roundWords.zip schedule).foldl round state)

def absorbAll : Nat → List UInt32 → List UInt32 → List UInt32
  | 0, state, _ => state
  | count + 1, state, words => absorbAll count (absorb state (words.take 16)) (words.drop 16)

def of (message : List UInt8) : Digest :=
  let words := wordsOf (padded message)
  ⟨(absorbAll (words.length / 16) startWords words).flatMap fun word => bigBytes 4 word.toNat⟩

def hex (d : Digest) : String :=
  String.ofList (d.bytes.flatMap fun b =>
    [Nat.digitChar (b.toNat / 16), Nat.digitChar (b.toNat % 16)])

end Digest

end Setlist
