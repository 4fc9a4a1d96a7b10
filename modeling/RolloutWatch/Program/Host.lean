import RolloutWatch.Cipher.Sha256
import RolloutWatch.Error
import RolloutWatch.Supply
import RolloutWatch.Web.Exchange

/-!
What a command needs of the machine that it runs on: files, variables, backends, and the
supply of identifiers, nonces and times.
-/

namespace RolloutWatch

/-- The directories of a path are all of it but its last name. -/
class Host (m : Type → Type) where
  readFile : String → m (Except FileFault (List UInt8))
  writeFile : String → List UInt8 → m (Except FileFault Unit)
  makeDirectories : String → m (Except FileFault Unit)
  valueOf : String → m (Option String)
  network : m Network
  takeSupply : m Supply
  returnSupply : Supply → m Unit

namespace Host

/-- There is no way to a path. -/
def isMissing : FileFault → Bool
  | .notFound => true
  | .notDirectory => true
  | _ => false

/-- Something stands at a path unless reading finds no way to it. -/
def isPresent {α : Type} : Except FileFault α → Bool
  | .ok _ => true
  | .error fault => !isMissing fault

end Host

namespace Supply

def number (bytes : List UInt8) : Nat :=
  bytes.foldl (fun total byte => 256 * total + byte.toNat) 0

/-- The identifier of a place in the sequence of a seed, with the marks of a random one: the
version in the seventh byte and the variant in the ninth. -/
def seededId (seed : List UInt8) (n : Nat) : EntityId :=
  let bytes := (Sha256.digest (seed ++ Sha256.bigEndian 8 n)).take 16
  let marked := bytes.mapIdx fun place byte =>
    if place = 6 then byte % 16 + 0x40
    else if place = 8 then byte % 64 + 0x80
    else byte
  .ofNat (number marked)

def seededNonce (seed : List UInt8) (n : Nat) : Nonce :=
  { bits := BitVec.ofNat 96 (number ((Sha256.digest (Sha256.bigEndian 8 n ++ seed)).take 12)) }

def seeded (seed : List UInt8) (time : Instant) : Supply :=
  { ids := seededId seed
    clock := fun _ => time
    nonces := seededNonce seed
    idsTaken := 0
    readingsTaken := 0
    noncesTaken := 0 }

end Supply

end RolloutWatch
