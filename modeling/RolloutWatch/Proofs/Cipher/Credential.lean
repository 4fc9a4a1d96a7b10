import RolloutWatch.Cipher.Credential
import RolloutWatch.Proofs.Cipher.Base64
import RolloutWatch.Proofs.Cipher.Gcm
import RolloutWatch.Proofs.Json.ValueText

/-!
A configuration that was sealed under a passphrase is opened under it, whatever the nonce was. The
nonce stands in front of the masked document, so the opener finds it by its length.
-/

namespace RolloutWatch.CredentialCipher

theorem nonceBytes_length (nonce : Nonce) : (nonceBytes nonce).length = nonceSize :=
  Sha256.bigEndian_length nonceSize _

theorem exists_ofPassphrase {passphrase : String} (nonempty : passphrase ≠ "") :
    ∃ c, ofPassphrase passphrase = .ok c ∧ c.key.length = 32 :=
  ⟨_, if_neg nonempty, Sha256.digest_length _⟩

theorem openBytes_of_payload {c : CredentialCipher} {sealedText : String}
    {payload document : List UInt8} (decoded : Base64.decode? sealedText.toList = some payload)
    (long : nonceSize < payload.length)
    (opened : Gcm.decrypt? c.key (payload.take nonceSize) (payload.drop nonceSize) =
      some document) : c.openBytes sealedText = .ok document := by
  unfold openBytes
  rw [decoded]
  dsimp only
  rw [if_neg (Nat.not_le_of_lt long), opened]

theorem openConfig_of_bytes {c : CredentialCipher} {sealedText : String} {document : List UInt8}
    {config : Json.Value} (opened : c.openBytes sealedText = .ok document)
    (read : Json.Value.ofBytes? document = some config) :
    c.openConfig sealedText = .ok config := by
  unfold openConfig
  rw [opened]
  dsimp only
  rw [read]

section

variable {c : CredentialCipher} (keyLength : c.key.length = 32) (nonce : Nonce)

include keyLength

theorem payload_length (document : List UInt8) :
    (nonceBytes nonce ++ Gcm.encrypt c.key (nonceBytes nonce) document).length =
      28 + document.length := by
  have front := nonceBytes_length nonce
  rw [List.length_append, Gcm.encrypt_length keyLength front, front, nonceSize]
  omega

theorem openBytes_sealBytes (document : List UInt8) :
    c.openBytes (c.sealBytes nonce document) = .ok document := by
  have front := nonceBytes_length nonce
  have decoded : Base64.decode? (c.sealBytes nonce document).toList =
      some (nonceBytes nonce ++ Gcm.encrypt c.key (nonceBytes nonce) document) := by
    rw [sealBytes, String.toList_ofList, Base64.decode_encode]
  refine openBytes_of_payload decoded ?_ ?_
  · rw [payload_length keyLength, nonceSize]
    omega
  · rw [List.take_left' front, List.drop_left' front, Gcm.decrypt_encrypt keyLength front]

/-- Four characters for every three bytes of the nonce, the document and the tag. -/
theorem sealBytes_length (document : List UInt8) :
    (c.sealBytes nonce document).length = 4 * ((28 + document.length + 2) / 3) := by
  rw [sealBytes, String.length_ofList, Base64.encode_length, payload_length keyLength]

end

/-- A sealed configuration is opened as it was sealed, and its text is as long as its document
says. -/
theorem openConfig_sealConfig {passphrase : String} (nonempty : passphrase ≠ "") (nonce : Nonce)
    {config : Json.Value} (integral : config.Integral) (deep : config.depth ≤ 127) :
    ∃ c, ofPassphrase passphrase = .ok c ∧ c.openConfig (c.sealConfig nonce config) = .ok config ∧
      (c.sealConfig nonce config).length = 4 * ((28 + config.bytes.length + 2) / 3) := by
  obtain ⟨c, built, keyLength⟩ := exists_ofPassphrase nonempty
  have opened := openBytes_sealBytes keyLength nonce config.bytes
  have read := Json.Value.ofBytes_of_bytes integral (Nat.lt_succ_of_le deep)
  exact ⟨c, built, openConfig_of_bytes opened read, sealBytes_length keyLength nonce config.bytes⟩

def nestedConfig : Json.Value :=
  .object [("address", .text "http://localhost\"\n"),
    ("ports", .array [.number (.integer (-1)), .array [.null, .bool true]])]

theorem nestedConfig_opened :
    ∃ c, ofPassphrase "secret" = .ok c ∧
      c.openConfig (c.sealConfig ⟨7⟩ nestedConfig) = .ok nestedConfig ∧
      (c.sealConfig ⟨7⟩ nestedConfig).length = 4 * ((28 + nestedConfig.bytes.length + 2) / 3) :=
  openConfig_sealConfig (by decide) ⟨7⟩
    ⟨List.pairwise_pair.mpr (by decide), trivial, ⟨⟨by decide, by decide⟩,
      ⟨trivial, trivial, trivial⟩, trivial⟩, trivial⟩
    (by decide)

end RolloutWatch.CredentialCipher
