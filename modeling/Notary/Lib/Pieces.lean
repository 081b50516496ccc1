import Notary.Lib.RangeSet

/-! A text in consecutive pieces, each of which is shown or hidden, and the set of positions at
which something is shown. -/

namespace Pieces
open Ranges List

variable {α : Type}

def text (ps : List (List α × Bool)) : List α := ps.flatMap Prod.fst

def shownLength (ps : List (List α × Bool)) : ℕ :=
  (ps.map fun p => if p.2 then p.1.length else 0).sum

theorem shownLength_append (ps qs : List (List α × Bool)) :
    shownLength (ps ++ qs) = shownLength ps + shownLength qs := by
  rw [shownLength, map_append, sum_append, shownLength, shownLength]

/-- The shown positions of a text that starts at the offset. -/
def shown (offset : ℕ) : List (List α × Bool) → List ℕ
  | [] => []
  | p :: ps =>
    (if p.2 then List.range' offset p.1.length else []) ++ shown (offset + p.1.length) ps

variable {offset x : ℕ} {ps qs : List (List α × Bool)} {s : RangeSet}

@[simp] theorem not_mem_shown_nil : x ∉ shown offset ([] : List (List α × Bool)) := not_mem_nil

theorem mem_shown_cons {p : List α × Bool} : x ∈ shown offset (p :: ps) ↔
    (p.2 = true ∧ offset ≤ x ∧ x < offset + p.1.length) ∨ x ∈ shown (offset + p.1.length) ps := by
  rw [shown, mem_append]
  cases p.2 <;> simp [mem_range'_1]

theorem mem_shown_append : x ∈ shown offset (ps ++ qs) ↔
    x ∈ shown offset ps ∨ x ∈ shown (offset + (text ps).length) qs := by
  induction ps generalizing offset with
  | nil => simp [shown, text]
  | cons _ _ ih =>
    rw [cons_append, mem_shown_cons, mem_shown_cons, ih, or_assoc]
    simp [text, Nat.add_assoc]

theorem le_of_mem_shown (h : x ∈ shown offset ps) : offset ≤ x := by
  induction ps generalizing offset with
  | nil => cases h
  | cons _ _ ih =>
    obtain ⟨-, h, -⟩ | h := mem_shown_cons.mp h
    · exact h
    · exact Nat.le_trans (Nat.le_add_right ..) (ih h)

theorem shown_pairwise (offset : ℕ) (ps : List (List α × Bool)) :
    (shown offset ps).Pairwise (· < ·) := by
  induction ps generalizing offset with
  | nil => exact .nil
  | cons _ _ ih =>
    rw [shown, pairwise_append]
    refine ⟨?_, ih _, fun x hx y hy => ?_⟩
    · split
      · exact pairwise_lt_range'
      · exact .nil
    · have hl := le_of_mem_shown hy
      split at hx
      · have := (mem_range'_1.mp hx).2
        omega
      · cases hx

theorem length_shown (offset : ℕ) (ps : List (List α × Bool)) :
    (shown offset ps).length = shownLength ps := by
  induction ps generalizing offset with
  | nil => rfl
  | cons p _ ih =>
    rw [shown, length_append, ih, shownLength, shownLength, map_cons, sum_cons]
    cases p.2 <;> simp

theorem len_eq_shownLength (h : ∀ x, x ∈ s ↔ x ∈ shown offset ps) : s.len = shownLength ps := by
  rw [← RangeSet.length_positions, RangeSet.positions_eq_of_mem (shown_pairwise offset ps) h,
    length_shown]

end Pieces
