import Notary.Lib.Utf8

/-! Byte strings one after the other, each with its length in front. -/

namespace Netstring
open Utf8 List Nat

def digits (n : ℕ) : Bytes := (Nat.toDigits 10 n).map fun c => UInt8.ofNat c.toNat

def encode (b : Bytes) : Bytes := digits b.length ++ 58 :: b

/-- A length and the bytes after its colon. -/
def readLength : Bytes → ℕ → Option (ℕ × Bytes)
  | [], _ => none
  | b :: rest, length =>
    if b = 58 then some (length, rest)
    else if 48 ≤ b ∧ b ≤ 57 then readLength rest (10 * length + (b.toNat - 48))
    else none

def decodeAll : (fuel : ℕ) → Bytes → Option (List Bytes)
  | _, [] => some []
  | 0, _ :: _ => none
  | fuel + 1, b :: rest =>
    match readLength (b :: rest) 0 with
    | none => none
    | some (length, rest) =>
      if rest.length < length then none
      else (decodeAll fuel (rest.drop length)).map (rest.take length :: ·)

theorem readLength_digits (cs : List Char) (hcs : ∀ c ∈ cs, c.isDigit) (length : ℕ)
    (rest : Bytes) : readLength (cs.map (fun c => UInt8.ofNat c.toNat) ++ 58 :: rest) length =
      some (Nat.ofDigitChars 10 cs length, rest) := by
  induction cs generalizing length with
  | nil => rfl
  | cons c _ ih =>
    have hc := hcs c mem_cons_self
    have hr : 48 ≤ c.toNat ∧ c.toNat ≤ 57 := by
      simpa [Char.isDigit, UInt32.le_iff_toNat_le] using hc
    have hb : (UInt8.ofNat c.toNat).toNat = c.toNat := by
      rw [UInt8.toNat_ofNat']
      omega
    have hco : UInt8.ofNat c.toNat ≠ 58 := by
      intro h
      rw [h] at hb
      have hv : (58 : UInt8).toNat = 58 := rfl
      omega
    have hdi : (48 : UInt8) ≤ UInt8.ofNat c.toNat ∧ UInt8.ofNat c.toNat ≤ 57 := by
      rw [UInt8.le_iff_toNat_le, UInt8.le_iff_toNat_le, hb]
      exact hr
    rw [map_cons, cons_append, readLength, if_neg hco, if_pos hdi, hb,
      ih fun d hd => hcs d (mem_cons_of_mem c hd), ofDigitChars_cons]
    rfl

theorem readLength_encode (b rest : Bytes) :
    readLength (encode b ++ rest) 0 = some (b.length, b ++ rest) := by
  have hv := ofDigitChars_toDigits (b := 10) (n := b.length) (by decide) (by decide)
  have hd := readLength_digits (Nat.toDigits 10 b.length)
    (fun c hc => isDigit_of_mem_toDigits (by decide) (by decide) hc) 0 (b ++ rest)
  rw [hv] at hd
  rwa [encode, append_assoc, cons_append, digits]

theorem length_le_flatMap_encode (bs : List Bytes) : bs.length ≤ (bs.flatMap encode).length := by
  induction bs with
  | nil => exact Nat.le_refl 0
  | cons =>
    simp only [flatMap_cons, encode, length_append, length_cons]
    omega

theorem length_encode_le {b : Bytes} (h : b.length < 10 ^ 20) :
    (encode b).length ≤ b.length + 21 := by
  have hd := (length_toDigits_le_iff (b := 10) (k := 20) (by decide) (by decide)).mpr h
  simp only [encode, digits, length_append, length_cons, length_map]
  omega

/-- The strings are read back from their encodings. -/
theorem decodeAll_encode (bs : List Bytes) (fuel : ℕ) (hf : bs.length ≤ fuel) :
    decodeAll fuel (bs.flatMap encode) = some bs := by
  induction bs generalizing fuel with
  | nil => cases fuel <;> rfl
  | cons b bs ih =>
    obtain ⟨fuel, rfl⟩ : ∃ k, fuel = k + 1 := ⟨fuel - 1, by rw [length_cons] at hf; omega⟩
    have hr := readLength_encode b (bs.flatMap encode)
    rw [flatMap_cons]
    cases ht : encode b ++ bs.flatMap encode with
    | nil =>
      rw [ht] at hr
      cases hr
    | cons =>
      rw [ht] at hr
      have hre := ih fuel (by rw [length_cons] at hf; omega)
      simp only [decodeAll, hr]
      rw [if_neg (by rw [length_append]; omega)]
      simp [hre]

end Netstring
