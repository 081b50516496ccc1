import Notary.Lib.Utf8

/-! Bytes in lowercase hexadecimal. -/

namespace Hex
open Utf8 List Option

def digits (b : UInt8) : List Char := [Nat.digitChar (b.toNat / 16), Nat.digitChar (b.toNat % 16)]

/-- `hex::encode`. -/
def encode (b : Bytes) : String := String.ofList (b.flatMap digits)

def isLowerHex (c : Char) : Bool := c.isDigit || ('a' ≤ c && c ≤ 'f')

theorem digitChar_isLowerHex : ∀ n < 16, isLowerHex (Nat.digitChar n) := by decide

theorem digits_isLowerHex (b : UInt8) : ∀ c ∈ digits b, isLowerHex c := by
  have hb := b.toNat_lt
  intro c hc
  simp only [digits, mem_cons, not_mem_nil, or_false] at hc
  rcases hc with rfl | rfl
  · exact digitChar_isLowerHex _ (by omega)
  · exact digitChar_isLowerHex _ (by omega)

theorem encode_isLowerHex (b : Bytes) : ∀ c ∈ (encode b).toList, isLowerHex c := by
  intro c hc
  rw [encode, String.toList_ofList] at hc
  obtain ⟨x, -, hx⟩ := mem_flatMap.mp hc
  exact digits_isLowerHex x c hx

theorem length_encode (b : Bytes) : (encode b).toList.length = 2 * b.length := by
  rw [encode, String.toList_ofList]
  induction b with
  | nil => rfl
  | cons x b ih =>
    rw [flatMap_cons, length_append, ih, length_cons]
    simp only [digits, length_cons, length_nil]
    omega

def digit? (c : Char) : Option ℕ :=
  if c.isDigit then some (c.toNat - 48)
  else if 'a' ≤ c ∧ c ≤ 'f' then some (c.toNat - 87)
  else if 'A' ≤ c ∧ c ≤ 'F' then some (c.toNat - 55)
  else none

def decodeList : List Char → Option Bytes
  | [] => some []
  | [_] => none
  | h :: l :: rest => do
    let high ← digit? h
    let low ← digit? l
    let b ← decodeList rest
    some (UInt8.ofNat (16 * high + low) :: b)

/-- `hex::decode`. -/
def decode (s : String) : Option Bytes := decodeList s.toList

theorem decode_encode (b : Bytes) : decode (encode b) = some b := by
  have hd : ∀ n < 16, digit? (Nat.digitChar n) = some n := by decide
  rw [decode, encode, String.toList_ofList]
  induction b with
  | nil => rfl
  | cons x b ih =>
    have hx := x.toNat_lt
    have hn : 16 * (x.toNat / 16) + x.toNat % 16 = x.toNat := Nat.div_add_mod ..
    simp only [flatMap_cons, digits, cons_append, nil_append, decodeList,
      hd _ (show x.toNat / 16 < 16 by omega), hd _ (show x.toNat % 16 < 16 by omega), ih,
      bind_eq_bind, bind_some, hn, UInt8.ofNat_toNat]

theorem encode_injective : Function.Injective encode := by
  intro a b h
  have hd := congrArg decode h
  rwa [decode_encode, decode_encode, some_inj] at hd

end Hex
