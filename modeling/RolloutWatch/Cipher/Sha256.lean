/-!
The digest SHA-256: a message is padded to whole blocks of 64 bytes, and each block in turn
is mixed into a state of eight words.
-/

namespace RolloutWatch.Sha256

def initial : List UInt32 :=
  [0x6a09e667, 0xbb67ae85, 0x3c6ef372, 0xa54ff53a, 0x510e527f, 0x9b05688c,
    0x1f83d9ab, 0x5be0cd19]

def roundConstants : List UInt32 :=
  [0x428a2f98, 0x71374491, 0xb5c0fbcf, 0xe9b5dba5, 0x3956c25b, 0x59f111f1,
    0x923f82a4, 0xab1c5ed5, 0xd807aa98, 0x12835b01, 0x243185be, 0x550c7dc3,
    0x72be5d74, 0x80deb1fe, 0x9bdc06a7, 0xc19bf174, 0xe49b69c1, 0xefbe4786,
    0x0fc19dc6, 0x240ca1cc, 0x2de92c6f, 0x4a7484aa, 0x5cb0a9dc, 0x76f988da,
    0x983e5152, 0xa831c66d, 0xb00327c8, 0xbf597fc7, 0xc6e00bf3, 0xd5a79147,
    0x06ca6351, 0x14292967, 0x27b70a85, 0x2e1b2138, 0x4d2c6dfc, 0x53380d13,
    0x650a7354, 0x766a0abb, 0x81c2c92e, 0x92722c85, 0xa2bfe8a1, 0xa81a664b,
    0xc24b8b70, 0xc76c51a3, 0xd192e819, 0xd6990624, 0xf40e3585, 0x106aa070,
    0x19a4c116, 0x1e376c08, 0x2748774c, 0x34b0bcb5, 0x391c0cb3, 0x4ed8aa4a,
    0x5b9cca4f, 0x682e6ff3, 0x748f82ee, 0x78a5636f, 0x84c87814, 0x8cc70208,
    0x90befffa, 0xa4506ceb, 0xbef9a3f7, 0xc67178f2]

def rotateRight (x : UInt32) (n : UInt32) : UInt32 :=
  (x >>> n) ||| (x <<< (32 - n))

def bigEndian : Nat → Nat → List UInt8
  | 0, _ => []
  | width + 1, n => UInt8.ofNat (n / Nat.pow 256 width) :: bigEndian width n

def pad (message : List UInt8) : List UInt8 :=
  let zeros := (119 - message.length % 64) % 64
  message ++ 0x80 :: (List.replicate zeros 0 ++ bigEndian 8 (8 * message.length))

def word : List UInt8 → UInt32
  | bytes => bytes.foldl (fun w b => (w <<< 8) ||| b.toUInt32) 0

def pieces {α : Type} (size : Nat) : Nat → List α → List (List α)
  | 0, _ => []
  | _ + 1, [] => []
  | fuel + 1, items => items.take size :: pieces size fuel (items.drop size)

def chunks {α : Type} (size : Nat) (items : List α) : List (List α) :=
  pieces size items.length items

def smallSigma0 (x : UInt32) : UInt32 :=
  rotateRight x 7 ^^^ rotateRight x 18 ^^^ (x >>> 3)

def smallSigma1 (x : UInt32) : UInt32 :=
  rotateRight x 17 ^^^ rotateRight x 19 ^^^ (x >>> 10)

def bigSigma0 (x : UInt32) : UInt32 :=
  rotateRight x 2 ^^^ rotateRight x 13 ^^^ rotateRight x 22

def bigSigma1 (x : UInt32) : UInt32 :=
  rotateRight x 6 ^^^ rotateRight x 11 ^^^ rotateRight x 25

def choose (x y z : UInt32) : UInt32 :=
  (x &&& y) ^^^ (~~~x &&& z)

def majority (x y z : UInt32) : UInt32 :=
  (x &&& y) ^^^ (x &&& z) ^^^ (y &&& z)

/-- Adds words to a schedule that is held with its latest word first. -/
def extend : Nat → List UInt32 → List UInt32
  | 0, latest => latest
  | count + 1, latest =>
      let w (back : Nat) : UInt32 := latest.getD (back - 1) 0
      extend count ((smallSigma1 (w 2) + w 7 + smallSigma0 (w 15) + w 16) :: latest)

def schedule (block : List UInt8) : List UInt32 :=
  (extend 48 ((chunks 4 block).map word).reverse).reverse

structure State where
  a : UInt32
  b : UInt32
  c : UInt32
  d : UInt32
  e : UInt32
  f : UInt32
  g : UInt32
  h : UInt32

namespace State

def ofWords (ws : List UInt32) : State :=
  { a := ws.getD 0 0, b := ws.getD 1 0, c := ws.getD 2 0, d := ws.getD 3 0
    e := ws.getD 4 0, f := ws.getD 5 0, g := ws.getD 6 0, h := ws.getD 7 0 }

def words (s : State) : List UInt32 :=
  [s.a, s.b, s.c, s.d, s.e, s.f, s.g, s.h]

def round (s : State) (constant scheduled : UInt32) : State :=
  let first := s.h + bigSigma1 s.e + choose s.e s.f s.g + constant + scheduled
  let second := bigSigma0 s.a + majority s.a s.b s.c
  { a := first + second, b := s.a, c := s.b, d := s.c
    e := s.d + first, f := s.e, g := s.f, h := s.g }

end State

def mix (hash : List UInt32) (block : List UInt8) : List UInt32 :=
  let mixed := (roundConstants.zip (schedule block)).foldl
    (fun s (constant, scheduled) => s.round constant scheduled) (State.ofWords hash)
  List.zipWith (· + ·) hash mixed.words

def digest (message : List UInt8) : List UInt8 :=
  ((chunks 64 (pad message)).foldl mix initial).flatMap fun w => bigEndian 4 w.toNat

end RolloutWatch.Sha256
