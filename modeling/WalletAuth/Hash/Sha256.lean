import WalletAuth.Bytes

/-! SHA-256 over byte strings: padding to whole blocks, a 64-word schedule for every block and one
round per schedule word. -/

namespace WalletAuth.Sha256

/-- The eight words of a chaining value. -/
structure State where
  a : UInt32
  b : UInt32
  c : UInt32
  d : UInt32
  e : UInt32
  f : UInt32
  g : UInt32
  h : UInt32
deriving DecidableEq, Inhabited

/-- The chaining value before the first block. -/
def initial : State :=
  ⟨0x6a09e667, 0xbb67ae85, 0x3c6ef372, 0xa54ff53a, 0x510e527f, 0x9b05688c, 0x1f83d9ab, 0x5be0cd19⟩

def roundConstants : List UInt32 :=
  [0x428a2f98, 0x71374491, 0xb5c0fbcf, 0xe9b5dba5, 0x3956c25b, 0x59f111f1, 0x923f82a4, 0xab1c5ed5,
   0xd807aa98, 0x12835b01, 0x243185be, 0x550c7dc3, 0x72be5d74, 0x80deb1fe, 0x9bdc06a7, 0xc19bf174,
   0xe49b69c1, 0xefbe4786, 0x0fc19dc6, 0x240ca1cc, 0x2de92c6f, 0x4a7484aa, 0x5cb0a9dc, 0x76f988da,
   0x983e5152, 0xa831c66d, 0xb00327c8, 0xbf597fc7, 0xc6e00bf3, 0xd5a79147, 0x06ca6351, 0x14292967,
   0x27b70a85, 0x2e1b2138, 0x4d2c6dfc, 0x53380d13, 0x650a7354, 0x766a0abb, 0x81c2c92e, 0x92722c85,
   0xa2bfe8a1, 0xa81a664b, 0xc24b8b70, 0xc76c51a3, 0xd192e819, 0xd6990624, 0xf40e3585, 0x106aa070,
   0x19a4c116, 0x1e376c08, 0x2748774c, 0x34b0bcb5, 0x391c0cb3, 0x4ed8aa4a, 0x5b9cca4f, 0x682e6ff3,
   0x748f82ee, 0x78a5636f, 0x84c87814, 0x8cc70208, 0x90befffa, 0xa4506ceb, 0xbef9a3f7, 0xc67178f2]

/-- Rotation to the right. -/
def rotate (word : UInt32) (amount : UInt32) : UInt32 :=
  (word >>> amount) ||| (word <<< (32 - amount))

/-- The words of a byte string, four bytes each. -/
def wordsOf : Bytes → List UInt32
  | a :: b :: c :: d :: rest =>
    (a.toUInt32 <<< 24 ||| b.toUInt32 <<< 16 ||| c.toUInt32 <<< 8 ||| d.toUInt32) :: wordsOf rest
  | _ => []

/-- The next schedule word, from the sixteen before it. -/
def extend (words : Array UInt32) (start : Nat) : Array UInt32 :=
  let early := words.getD (start + 1) 0
  let late := words.getD (start + 14) 0
  let mixEarly := rotate early 7 ^^^ rotate early 18 ^^^ (early >>> 3)
  let mixLate := rotate late 17 ^^^ rotate late 19 ^^^ (late >>> 10)
  words.push (mixLate + words.getD (start + 9) 0 + mixEarly + words.getD start 0)

def schedule (block : Bytes) : List UInt32 :=
  ((List.range 48).foldl extend (wordsOf block).toArray).toList

def round (state : State) (input : UInt32 × UInt32) : State :=
  let ⟨a, b, c, d, e, f, g, h⟩ := state
  let choice := (e &&& f) ^^^ (~~~e &&& g)
  let majority := (a &&& b) ^^^ (a &&& c) ^^^ (b &&& c)
  let first := h + (rotate e 6 ^^^ rotate e 11 ^^^ rotate e 25) + choice + input.1 + input.2
  let second := (rotate a 2 ^^^ rotate a 13 ^^^ rotate a 22) + majority
  ⟨first + second, a, b, c, d + first, e, f, g⟩

/-- The chaining value after one more block. -/
def compress (state : State) (block : Bytes) : State :=
  let mixed := (roundConstants.zip (schedule block)).foldl round state
  ⟨state.a + mixed.a, state.b + mixed.b, state.c + mixed.c, state.d + mixed.d,
   state.e + mixed.e, state.f + mixed.f, state.g + mixed.g, state.h + mixed.h⟩

/-- Absorbs the given number of 64-byte blocks from the front. -/
def absorb : Nat → State → Bytes → State
  | 0, state, _ => state
  | blocks + 1, state, bs => absorb blocks (compress state (bs.take 64)) (bs.drop 64)

/-- The message with its end mark, zero bytes and length in bits: a whole number of blocks. -/
def padded (message : Bytes) : Bytes :=
  let length := message.length
  message ++ 0x80 :: (List.replicate ((119 - length % 64) % 64) 0 ++ Bytes.ofNat 8 (8 * length))

def State.toBytes (state : State) : Bytes :=
  [state.a, state.b, state.c, state.d, state.e, state.f, state.g, state.h].flatMap fun word =>
    Bytes.ofNat 4 word.toNat

def hash (message : Bytes) : Bytes :=
  let input := padded message
  (absorb (input.length / 64) initial input).toBytes

end WalletAuth.Sha256
