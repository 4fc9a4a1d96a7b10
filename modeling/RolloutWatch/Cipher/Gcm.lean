import RolloutWatch.Cipher.Aes256

/-!
Authenticated encryption with AES-256 in Galois counter mode, without associated data: the
text is masked by the encryptions of successive counters, and a tag of sixteen bytes over
the masked text tells whether it is the one that was written.
-/

namespace RolloutWatch.Gcm

def toNat (bytes : List UInt8) : Nat :=
  bytes.foldl (fun n b => 256 * n + b.toNat) 0

/-- Half of a field element: the coefficients move on, and what falls off is reduced. -/
def halve (v : Nat) : Nat :=
  if v % 2 = 0 then v / 2 else (v / 2) ^^^ (0xE1 <<< 120)

def multiplyFrom : Nat → Nat → Nat → Nat → Nat
  | 0, _, _, sum => sum
  | bit + 1, x, v, sum =>
      multiplyFrom bit x (halve v) (if x.testBit bit then sum ^^^ v else sum)

/-- The product in the field of `2 ^ 128` elements, the top bit being the constant term. -/
def multiply (x y : Nat) : Nat :=
  multiplyFrom 128 x y 0

/-- Zeros fill up the last block. -/
def blockNumber (piece : List UInt8) : Nat :=
  toNat (piece ++ List.replicate (16 - piece.length) 0)

def ghash (hashKey : Nat) (masked : List UInt8) : Nat :=
  let sum := (Sha256.chunks 16 masked).foldl
    (fun sum piece => multiply (sum ^^^ blockNumber piece) hashKey) 0
  multiply (sum ^^^ (8 * masked.length)) hashKey

/-- The block of a counter; the first one is kept for the tag. -/
def counterBlock (nonce : List UInt8) (counter : Nat) : List UInt8 :=
  nonce ++ Sha256.bigEndian 4 counter

def mask (keys : List (List UInt8)) (nonce : List UInt8) (blocks : Nat) : List UInt8 :=
  (List.range blocks).flatMap fun i =>
    Aes256.encryptBlock keys (counterBlock nonce (i + 2))

def applyMask (keys : List (List UInt8)) (nonce text : List UInt8) : List UInt8 :=
  Aes256.xorBytes text (mask keys nonce (text.length / 16 + 1))

def tag (keys : List (List UInt8)) (nonce masked : List UInt8) : List UInt8 :=
  let hashKey := toNat (Aes256.encryptBlock keys (List.replicate 16 0))
  Aes256.xorBytes (Sha256.bigEndian 16 (ghash hashKey masked))
    (Aes256.encryptBlock keys (counterBlock nonce 1))

def encrypt (key nonce text : List UInt8) : List UInt8 :=
  let keys := Aes256.roundKeys key
  let masked := applyMask keys nonce text
  masked ++ tag keys nonce masked

def decrypt? (key nonce sealedText : List UInt8) : Option (List UInt8) :=
  let size := sealedText.length - 16
  let masked := sealedText.take size
  let keys := Aes256.roundKeys key
  if sealedText.length < 16 then none
  else if sealedText.drop size = tag keys nonce masked then
    some (applyMask keys nonce masked)
  else none

end RolloutWatch.Gcm
