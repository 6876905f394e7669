import Mathlib.Data.List.Basic
import Mathlib.Tactic.Common

/-! Messages sealed by authenticated encryption, with the nonce in front of the ciphertext.  A box
opens to a message exactly when the message was sealed in it under the same key. -/

namespace GroundCore.Lib

/-- An authenticated cipher, a library, for keys and nonces of a length. -/
structure Aead where
  keyLength : ℕ
  nonceLength : ℕ
  encrypt : (key nonce message : List UInt8) → Except String (List UInt8)
  decrypt : (key nonce ciphertext : List UInt8) → Except String (List UInt8)

/-- A ciphertext is decrypted exactly when encrypting the message gives it. -/
def Aead.Lawful (aead : Aead) : Prop :=
  ∀ {key nonce : List UInt8}, key.length = aead.keyLength → nonce.length = aead.nonceLength →
    ∀ message ciphertext, aead.decrypt key nonce ciphertext = .ok message ↔
      aead.encrypt key nonce message = .ok ciphertext

/-- How a program reports the ways in which sealing and opening fail. -/
structure BoxErrors (ε : Type) where
  badKey : ε
  tooShort : ε
  encryption : String → ε
  decryption : String → ε

namespace Aead

variable {ε : Type} (aead : Aead) (errors : BoxErrors ε)

def sealBox (key nonce message : List UInt8) : Except ε (List UInt8) :=
  if key.length ≠ aead.keyLength then .error errors.badKey
  else
    match aead.encrypt key nonce message with
    | .error e => .error (errors.encryption e)
    | .ok ciphertext => .ok (nonce ++ ciphertext)

def openBox (key box : List UInt8) : Except ε (List UInt8) :=
  if key.length ≠ aead.keyLength then .error errors.badKey
  else if box.length < aead.nonceLength then .error errors.tooShort
  else
    match aead.decrypt key (box.take aead.nonceLength) (box.drop aead.nonceLength) with
    | .error e => .error (errors.decryption e)
    | .ok message => .ok message

variable {aead errors} {key nonce message box : List UInt8}

theorem sealBox_eq_ok_iff : aead.sealBox errors key nonce message = .ok box ↔
    key.length = aead.keyLength ∧
      ∃ ciphertext, aead.encrypt key nonce message = .ok ciphertext ∧ nonce ++ ciphertext = box := by
  unfold sealBox
  by_cases hkey : key.length = aead.keyLength
  · rw [if_neg (not_not.mpr hkey)]
    cases aead.encrypt key nonce message with
    | error e => simp
    | ok ciphertext => simp [hkey]
  · rw [if_pos hkey]
    simp [hkey]

theorem openBox_eq_ok_iff : aead.openBox errors key box = .ok message ↔
    key.length = aead.keyLength ∧ aead.nonceLength ≤ box.length ∧
      aead.decrypt key (box.take aead.nonceLength) (box.drop aead.nonceLength) = .ok message := by
  unfold openBox
  by_cases hkey : key.length = aead.keyLength
  · rw [if_neg (not_not.mpr hkey)]
    by_cases hshort : box.length < aead.nonceLength
    · have hlength : ¬aead.nonceLength ≤ box.length := by omega
      rw [if_pos hshort]
      simp [hlength]
    · have hlength : aead.nonceLength ≤ box.length := by omega
      rw [if_neg hshort]
      cases aead.decrypt key (box.take aead.nonceLength) (box.drop aead.nonceLength) with
      | error e => simp
      | ok plain => simp [hkey, hlength]
  · rw [if_pos hkey]
    simp [hkey]

/-- A box opens to the message that was sealed in it, and to no other. -/
theorem openBox_iff_sealBox (h : aead.Lawful) : aead.openBox errors key box = .ok message ↔
    ∃ nonce, nonce.length = aead.nonceLength ∧
      aead.sealBox errors key nonce message = .ok box := by
  simp only [openBox_eq_ok_iff, sealBox_eq_ok_iff]
  constructor
  · rintro ⟨hkey, hlength, hdecrypt⟩
    have hnonce : (box.take aead.nonceLength).length = aead.nonceLength :=
      List.length_take_of_le hlength
    exact ⟨box.take aead.nonceLength, hnonce, hkey, box.drop aead.nonceLength,
      (h hkey hnonce _ _).mp hdecrypt, List.take_append_drop _ _⟩
  · rintro ⟨nonce, hnonce, hkey, ciphertext, hencrypt, rfl⟩
    refine ⟨hkey, by rw [List.length_append]; omega, ?_⟩
    rw [List.take_left' hnonce, List.drop_left' hnonce]
    exact (h hkey hnonce _ _).mpr hencrypt

end Aead

end GroundCore.Lib
