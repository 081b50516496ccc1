import Notary.Lib.Utf8

/-! Byte strings behind their length, as a keyed hash takes several values. -/

namespace LengthPrefix
open Utf8 (Bytes)

/-- `u64::to_be_bytes`. -/
def be64 (n : ℕ) : Bytes :=
  [UInt8.ofNat (n / 2 ^ 56), UInt8.ofNat (n / 2 ^ 48), UInt8.ofNat (n / 2 ^ 40),
    UInt8.ofNat (n / 2 ^ 32), UInt8.ofNat (n / 2 ^ 24), UInt8.ofNat (n / 2 ^ 16),
    UInt8.ofNat (n / 2 ^ 8), UInt8.ofNat n]

def frame (value : Bytes) : Bytes := be64 value.length ++ value

theorem be64_inj {m n : ℕ} (hm : m < 2 ^ 64) (hn : n < 2 ^ 64) (h : be64 m = be64 n) : m = n := by
  have hb {a b : ℕ} (ha : UInt8.ofNat a = UInt8.ofNat b) : a % 256 = b % 256 := by
    simpa using congrArg UInt8.toNat ha
  simp only [be64, List.cons.injEq, and_true] at h
  obtain ⟨h₇, h₆, h₅, h₄, h₃, h₂, h₁, h₀⟩ := h
  have h₇ := hb h₇
  have h₆ := hb h₆
  have h₅ := hb h₅
  have h₄ := hb h₄
  have h₃ := hb h₃
  have h₂ := hb h₂
  have h₁ := hb h₁
  have h₀ := hb h₀
  omega

/-- A framed value ends where its length says. -/
theorem frame_append_inj {a b x y : Bytes} (ha : a.length < 2 ^ 64) (hb : b.length < 2 ^ 64)
    (h : frame a ++ x = frame b ++ y) : a = b ∧ x = y := by
  simp only [frame, List.append_assoc] at h
  obtain ⟨hl, h⟩ := List.append_inj h rfl
  exact List.append_inj h (be64_inj ha hb hl)

theorem frame_inj {a b : Bytes} (h : frame a = frame b) : a = b :=
  (List.append_inj h rfl).2

end LengthPrefix
