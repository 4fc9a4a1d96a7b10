import RolloutWatch.Cipher.Gcm

/-!
What is masked with a key is unmasked with it. A mask is as long as the text that it covers, and
masking twice gives the text back; the tag has sixteen bytes, so it is found where it was put.
Blocks have sixteen bytes because every step of the block cipher keeps their length.
-/

namespace RolloutWatch

/-! ### Pieces of a list -/

namespace Sha256

theorem bigEndian_length (width n : Nat) : (bigEndian width n).length = width := by
  induction width with
  | zero => rfl
  | succ width ih => rw [bigEndian, List.length_cons, ih]

theorem pieces_flatten {α : Type} {size : Nat} (positive : 0 < size) {fuel : Nat}
    {items : List α} (enough : items.length ≤ fuel) : (pieces size fuel items).flatten = items := by
  induction fuel generalizing items with
  | zero => rw [List.length_eq_zero_iff.mp (Nat.le_zero.mp enough), pieces, List.flatten_nil]
  | succ fuel ih =>
      cases items with
      | nil => rfl
      | cons first rest =>
          have fewer : ((first :: rest).drop size).length ≤ fuel := by
            rw [List.length_drop, List.length_cons] at *
            omega
          rw [pieces, List.flatten_cons, ih fewer, List.take_append_drop]
          exact nofun

theorem pieces_full {α : Type} {size fuel : Nat} {items : List α} (whole : size ∣ items.length) :
    ∀ piece ∈ pieces size fuel items, piece.length = size := by
  induction fuel generalizing items with
  | zero => exact fun _ member => by cases member
  | succ fuel ih =>
      cases items with
      | nil => exact fun _ member => by cases member
      | cons first rest =>
          have enough : size ≤ (first :: rest).length :=
            Nat.le_of_dvd (Nat.zero_lt_succ _) whole
          have others : size ∣ ((first :: rest).drop size).length := by
            rw [List.length_drop]
            exact Nat.dvd_sub whole (Nat.dvd_refl size)
          intro piece member
          rw [pieces] at member
          · rcases List.mem_cons.mp member with here | later
            · rw [here, List.length_take_of_le enough]
            · exact ih others piece later
          · exact nofun

theorem chunks_flatten {α : Type} {size : Nat} (positive : 0 < size) (items : List α) :
    (chunks size items).flatten = items :=
  pieces_flatten positive (Nat.le_refl _)

theorem chunks_full {α : Type} {size : Nat} {items : List α} (whole : size ∣ items.length) :
    ∀ piece ∈ chunks size items, piece.length = size :=
  pieces_full whole

/-! ### The digest -/

theorem mix_length (hash : List UInt32) (block : List UInt8) (words : hash.length = 8) :
    (mix hash block).length = 8 := by
  unfold mix
  rw [List.length_zipWith, words]
  rfl

theorem digest_length (message : List UInt8) : (digest message).length = 32 := by
  have folded (blocks : List (List UInt8)) (hash : List UInt32) (words : hash.length = 8) :
      (blocks.foldl mix hash).length = 8 := by
    induction blocks generalizing hash with
    | nil => exact words
    | cons block rest ih => exact ih _ (mix_length hash block words)
  unfold digest
  rw [List.length_flatMap]
  simp only [bigEndian_length, List.map_const', folded _ initial rfl]
  rfl

end Sha256

/-! ### The block cipher -/

namespace Aes256

theorem xorBytes_length (as bs : List UInt8) :
    (xorBytes as bs).length = min as.length bs.length :=
  List.length_zipWith

theorem xorBytes_xorBytes {text mask : List UInt8} (covered : text.length ≤ mask.length) :
    xorBytes (xorBytes text mask) mask = text := by
  induction text generalizing mask with
  | nil => rfl
  | cons b rest ih =>
      cases mask with
      | nil => exact absurd covered (Nat.not_succ_le_zero _)
      | cons m more =>
          have others := ih (Nat.le_of_succ_le_succ covered)
          unfold xorBytes at others ⊢
          rw [List.zipWith_cons_cons, List.zipWith_cons_cons, others, UInt8.xor_assoc,
            UInt8.xor_self, UInt8.xor_zero]

theorem shiftRows_length (block : List UInt8) : (shiftRows block).length = 16 :=
  List.length_map _

theorem mixColumn_length (column : List UInt8) : (mixColumn column).length = column.length := by
  unfold mixColumn
  split <;> rfl

theorem mixColumns_length (block : List UInt8) : (mixColumns block).length = block.length := by
  have whole : (Sha256.chunks 4 block).flatten = block := Sha256.chunks_flatten (by decide) block
  unfold mixColumns
  rw [List.length_flatMap]
  simp only [mixColumn_length]
  rw [← List.length_flatten, whole]

def Full (size : Nat) (pieces : List (List UInt8)) : Prop :=
  ∀ piece ∈ pieces, piece.length = size

theorem rounds_length {keys : List (List UInt8)} (full : Full 16 keys) {block : List UInt8}
    (length : block.length = 16) : (rounds keys block).length = 16 := by
  induction keys generalizing block with
  | nil => exact length
  | cons key rest ih =>
      have here := full key List.mem_cons_self
      cases rest with
      | nil => rw [rounds, xorBytes_length, shiftRows_length, here, Nat.min_self]
      | cons next more =>
          rw [rounds]
          · refine ih (fun other member => full other (List.mem_cons_of_mem _ member)) ?_
            rw [xorBytes_length, mixColumns_length, shiftRows_length, here, Nat.min_self]
          · exact nofun

theorem encryptBlock_length {keys : List (List UInt8)} (full : Full 16 keys)
    {block : List UInt8} (length : block.length = 16) : (encryptBlock keys block).length = 16 := by
  cases keys with
  | nil => exact length
  | cons first more =>
      refine rounds_length (fun other member => full other (List.mem_cons_of_mem _ member)) ?_
      rw [xorBytes_length, length, full first List.mem_cons_self, Nat.min_self]

theorem mem_of_getD {α : Type} {items : List α} {i : Nat} (within : i < items.length)
    (default : α) : items.getD i default ∈ items := by
  rw [List.getD_eq_getElem?_getD, List.getElem?_eq_getElem within, Option.getD_some]
  exact List.getElem_mem within

/-- The key schedule adds words of four bytes. -/
theorem extendKey_full (count position : Nat) (constant : UInt8) {latest : List (List UInt8)}
    (enough : 8 ≤ latest.length) (full : Full 4 latest) :
    Full 4 (extendKey count position constant latest) ∧
      (extendKey count position constant latest).length = latest.length + count := by
  induction count generalizing position constant latest with
  | zero => exact ⟨full, rfl⟩
  | succ count ih =>
      have previous : (latest.getD 0 []).length = 4 := full _ (mem_of_getD (by omega) [])
      have back : (latest.getD 7 []).length = 4 := full _ (mem_of_getD (by omega) [])
      -- In all three cases the word eight places back is mixed with a word of four bytes.
      have added (position : Nat) (constant : UInt8) {mixed : List UInt8}
          (length : mixed.length = 4) :
          Full 4 (extendKey count position constant (xorBytes (latest.getD 7 []) mixed :: latest))
            ∧ (extendKey count position constant
                (xorBytes (latest.getD 7 []) mixed :: latest)).length =
              latest.length + (count + 1) := by
        have word : (xorBytes (latest.getD 7 []) mixed).length = 4 := by
          rw [xorBytes_length, back, length, Nat.min_self]
        have more : 8 ≤ (xorBytes (latest.getD 7 []) mixed :: latest).length :=
          Nat.le_succ_of_le enough
        obtain ⟨fullLater, lengthLater⟩ :=
          ih position constant more (List.forall_mem_cons.mpr ⟨word, full⟩)
        exact ⟨fullLater, by rw [lengthLater, List.length_cons]; omega⟩
      rw [extendKey]
      split
      · refine added _ _ ?_
        simp only [xorBytes_length, List.length_map, List.length_append, List.length_drop,
          List.length_take, previous, List.length_cons, List.length_nil]
        rfl
      · split
        · exact added _ _ (by rw [List.length_map, previous])
        · exact added _ _ previous

theorem roundKeys_full {key : List UInt8} (length : key.length = 32) :
    Full 16 (roundKeys key) := by
  have count : (Sha256.chunks 4 key).length = 8 := by
    have words : Full 4 (Sha256.chunks 4 key) := Sha256.chunks_full (by rw [length]; decide)
    have whole : (Sha256.chunks 4 key).flatten = key := Sha256.chunks_flatten (by decide) key
    have total := congrArg List.length whole
    rw [List.length_flatten, List.map_eq_replicate_iff.mpr words, List.sum_replicate_nat,
      length] at total
    omega
  have words : Full 4 (Sha256.chunks 4 key).reverse := fun word member =>
    Sha256.chunks_full (by rw [length]; decide) word (List.mem_reverse.mp member)
  have enough : 8 ≤ (Sha256.chunks 4 key).reverse.length :=
    Nat.le_of_eq (by rw [List.length_reverse, count])
  obtain ⟨full, extended⟩ := extendKey_full 52 8 1 enough words
  rw [List.length_reverse, count] at extended
  intro block member
  obtain ⟨four, quarter, rfl⟩ := List.mem_map.mp member
  have fours : four.length = 4 :=
    Sha256.chunks_full (by rw [List.length_reverse, extended]; decide) four quarter
  have wordsFull : Full 4 four := by
    intro word inside
    have origin : word ∈ (Sha256.chunks 4
        (extendKey 52 8 1 (Sha256.chunks 4 key).reverse).reverse).flatten :=
      List.mem_flatten.mpr ⟨four, quarter, inside⟩
    rw [Sha256.chunks_flatten (by decide)] at origin
    exact full word (List.mem_reverse.mp origin)
  rw [List.length_flatten, List.map_eq_replicate_iff.mpr wordsFull, List.sum_replicate_nat, fours]

end Aes256

/-! ### Masking -/

namespace Gcm

open Aes256 (Full)

theorem counterBlock_length {nonce : List UInt8} (length : nonce.length = 12) (counter : Nat) :
    (counterBlock nonce counter).length = 16 := by
  rw [counterBlock, List.length_append, length, Sha256.bigEndian_length]

section

variable {keys : List (List UInt8)} {nonce : List UInt8} (full : Full 16 keys)
  (length : nonce.length = 12)

include full length

theorem mask_length (blocks : Nat) : (mask keys nonce blocks).length = 16 * blocks := by
  have each (i : Nat) : (Aes256.encryptBlock keys (counterBlock nonce (i + 2))).length = 16 :=
    Aes256.encryptBlock_length full (counterBlock_length length _)
  unfold mask
  simp only [List.length_flatMap, each, List.map_const', List.length_range,
    List.sum_replicate_nat]
  exact Nat.mul_comm _ _

theorem mask_covers (text : List UInt8) :
    text.length ≤ (mask keys nonce (text.length / 16 + 1)).length := by
  rw [mask_length full length]
  omega

theorem applyMask_length (text : List UInt8) :
    (applyMask keys nonce text).length = text.length := by
  rw [applyMask, Aes256.xorBytes_length, Nat.min_eq_left (mask_covers full length text)]

theorem applyMask_applyMask (text : List UInt8) :
    applyMask keys nonce (applyMask keys nonce text) = text := by
  have same := applyMask_length full length text
  unfold applyMask at same ⊢
  rw [same]
  exact Aes256.xorBytes_xorBytes (mask_covers full length text)

theorem tag_length (masked : List UInt8) : (tag keys nonce masked).length = 16 := by
  rw [tag, Aes256.xorBytes_length, Sha256.bigEndian_length,
    Aes256.encryptBlock_length full (counterBlock_length length 1), Nat.min_self]

end

section

variable {key nonce : List UInt8} (keyLength : key.length = 32) (nonceLength : nonce.length = 12)

include keyLength nonceLength

theorem encrypt_length (text : List UInt8) :
    (encrypt key nonce text).length = text.length + 16 := by
  have full := Aes256.roundKeys_full keyLength
  rw [encrypt, List.length_append, applyMask_length full nonceLength, tag_length full nonceLength]

theorem decrypt_encrypt (text : List UInt8) :
    decrypt? key nonce (encrypt key nonce text) = some text := by
  have full := Aes256.roundKeys_full keyLength
  have size : (encrypt key nonce text).length - 16 =
      (applyMask (Aes256.roundKeys key) nonce text).length := by
    rw [encrypt_length keyLength nonceLength, applyMask_length full nonceLength, Nat.add_sub_cancel]
  have long : ¬(encrypt key nonce text).length < 16 := by
    rw [encrypt_length keyLength nonceLength]
    omega
  unfold decrypt?
  simp only [if_neg long, size]
  rw [encrypt, List.take_left, List.drop_left, if_pos rfl, applyMask_applyMask full nonceLength]

end

end Gcm

end RolloutWatch
