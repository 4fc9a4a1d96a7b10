import RolloutWatch.Cipher.Base64
import RolloutWatch.Cipher.Gcm
import RolloutWatch.Error
import RolloutWatch.Json.Printer
import RolloutWatch.Supply

/-!
Sealing of connection configurations. The key is the digest of a passphrase; the sealed form
is the encoding of a nonce, the masked document and its tag.
-/

namespace RolloutWatch

/-- A cipher never shows its key. -/
structure CredentialCipher where
  key : List UInt8

namespace CredentialCipher

def ofPassphrase (passphrase : String) : Except Error CredentialCipher :=
  if passphrase = "" then .error (.credential .emptyPassphrase)
  else .ok { key := Sha256.digest (Utf8.ofString passphrase) }

def nonceSize : Nat :=
  12

def nonceBytes (n : Nonce) : List UInt8 :=
  Sha256.bigEndian nonceSize n.bits.toNat

def sealBytes (c : CredentialCipher) (nonce : Nonce) (document : List UInt8) : String :=
  let bytes := nonceBytes nonce
  String.ofList (Base64.encode (bytes ++ Gcm.encrypt c.key bytes document))

def sealConfig (c : CredentialCipher) (nonce : Nonce) (config : Json.Value) : String :=
  c.sealBytes nonce config.bytes

def openBytes (c : CredentialCipher) (sealedText : String) : Except Error (List UInt8) :=
  match Base64.decode? sealedText.toList with
  | none => .error (.credential .notBase64)
  | some payload =>
      if payload.length ≤ nonceSize then .error (.credential .truncated)
      else
        match Gcm.decrypt? c.key (payload.take nonceSize) (payload.drop nonceSize) with
        | none => .error (.credential .notOpened)
        | some document => .ok document

def openConfig (c : CredentialCipher) (sealedText : String) : Except Error Json.Value :=
  match c.openBytes sealedText with
  | .error e => .error e
  | .ok document =>
      match Json.Value.ofBytes? document with
      | some config => .ok config
      | none => .error (.serialization (Json.Refusal.ofBytes document))

def text (_ : CredentialCipher) : String :=
  "CredentialCipher \x7b .. \x7d"

end CredentialCipher

end RolloutWatch
