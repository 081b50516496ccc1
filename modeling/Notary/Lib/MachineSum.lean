import Mathlib

/-! Sums of machine integers, and sums of a list grouped by a key. -/

namespace MachineSum
open List

/-- The value is one of a signed 64-bit integer. -/
def Fits (x : ℤ) : Prop := -9223372036854775808 ≤ x ∧ x ≤ 9223372036854775807
  deriving Decidable

def wrap (x : ℤ) : ℤ := x.bmod (2 ^ 64)

theorem wrap_of_fits {x : ℤ} (h : Fits x) : wrap x = x := by
  obtain ⟨_, _⟩ := h
  exact Int.bmod_eq_of_le (by omega) (by omega)

/-- A running sum in 64 bits. -/
def sumFrom (acc : ℤ) : List ℤ → ℤ
  | [] => acc
  | x :: xs => sumFrom (wrap (acc + x)) xs

/-- Every running sum fits. -/
def SumsFit (acc : ℤ) : List ℤ → Prop
  | [] => True
  | x :: xs => Fits (acc + x) ∧ SumsFit (acc + x) xs

instance decidableSumsFit (acc : ℤ) : (xs : List ℤ) → Decidable (SumsFit acc xs)
  | [] => isTrue trivial
  | x :: xs =>
    have := decidableSumsFit (acc + x) xs
    inferInstanceAs (Decidable (_ ∧ _))

theorem sumFrom_of_fits {acc : ℤ} {xs : List ℤ} (h : SumsFit acc xs) :
    sumFrom acc xs = acc + xs.sum := by
  induction xs generalizing acc with
  | nil => simp [sumFrom]
  | cons _ _ ih =>
    obtain ⟨hf, hr⟩ := h
    rw [sumFrom, wrap_of_fits hf, ih hr, sum_cons, add_assoc]

/-- A condition splits a sum in two. -/
theorem sum_filter_bool {α : Type} (p : α → Bool) (f : α → ℤ) (xs : List α) :
    ((xs.filter fun x => p x = true).map f).sum + ((xs.filter fun x => p x = false).map f).sum =
      (xs.map f).sum := by
  induction xs with
  | nil => rfl
  | cons x _ ih =>
    rw [map_cons, sum_cons, ← ih]
    cases hp : p x <;> simp [hp] <;> omega

section

variable {α β κ : Type} [DecidableEq κ]

/-- A value that belongs to one member of a list without repetitions is counted once. -/
theorem sum_ite_key {members : List β} {key : β → κ} {k : κ} (x : ℤ)
    (hn : (members.map key).Nodup) (hk : k ∈ members.map key) :
    (members.map fun b => if k = key b then x else 0).sum = x := by
  induction members with
  | nil => cases hk
  | cons b rest ih =>
    rw [map_cons, nodup_cons] at hn
    rw [map_cons, sum_cons]
    by_cases hb : k = key b
    · have hz : (rest.map fun c => if k = key c then x else 0).sum = 0 := by
        apply sum_eq_zero
        intro y hy
        obtain ⟨_, hc, rfl⟩ := mem_map.mp hy
        refine if_neg fun hke => hn.1 ?_
        rw [← hb, hke]
        exact mem_map_of_mem hc
      rw [if_pos hb, hz, add_zero]
    · have hr : k ∈ rest.map key := by simpa [hb] using hk
      rw [if_neg hb, zero_add, ih hn.2 hr]

/-- The sums of the groups add up to the sum of all. -/
theorem sum_groups {items : List α} {members : List β} {key : β → κ} {of : α → κ}
    (f : α → ℤ) (hn : (members.map key).Nodup) (ho : ∀ a ∈ items, of a ∈ members.map key) :
    (members.map fun b => ((items.filter fun a => of a = key b).map f).sum).sum =
      (items.map f).sum := by
  induction items with
  | nil => simp
  | cons a rest ih =>
    have hg (b : β) : (((a :: rest).filter fun a => of a = key b).map f).sum =
        (if of a = key b then f a else 0) + ((rest.filter fun a => of a = key b).map f).sum := by
      by_cases hb : of a = key b <;> simp [hb]
    simp only [hg, sum_map_add]
    rw [sum_ite_key (f a) hn (ho a mem_cons_self),
      ih fun a' ha' => ho a' (mem_cons_of_mem a ha'), map_cons, sum_cons]

end

end MachineSum
