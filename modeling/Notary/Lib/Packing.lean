import Mathlib

/-! Greedy packing of a list into blocks of a fixed capacity. -/

namespace Packing
open List

variable {α : Type*} {C : ℕ}

/-- The blocks cut a list into consecutive nonempty pieces that fit the capacity, and every
block but the last is full. -/
structure Packs (C : ℕ) (l : List α) (blocks : List (List α)) : Prop where
  flatten : blocks.flatten = l
  nonempty : ∀ b ∈ blocks, b ≠ []
  fits : ∀ b ∈ blocks, b.length ≤ C
  full : ∀ b ∈ blocks.dropLast, b.length = C

/-- A packing in progress: full blocks, then a rest that still has room. -/
structure Filling (C : ℕ) (l : List α) (blocks : List (List α)) (rest : List α) : Prop where
  flatten : blocks.flatten ++ rest = l
  full : ∀ b ∈ blocks, b.length = C
  room : rest.length < C

namespace Filling

variable {l p rest : List α} {blocks : List (List α)}

theorem nil (h : 0 < C) : Filling C ([] : List α) [] [] := ⟨rfl, by simp, h⟩

theorem extend (h : Filling C l blocks rest) (hp : rest.length + p.length < C) :
    Filling C (l ++ p) blocks (rest ++ p) := by
  refine ⟨?_, h.full, by simpa using hp⟩
  rw [← append_assoc, h.flatten]

theorem close (h : Filling C l blocks rest) (hp : rest.length + p.length = C) :
    Filling C (l ++ p) (blocks ++ [rest ++ p]) [] := by
  have hr := h.room
  refine ⟨?_, ?_, by simp only [length_nil]; omega⟩
  · simp [← h.flatten]
  · intro b hb
    rcases mem_append.mp hb with hb | hb
    · exact h.full b hb
    · rw [mem_singleton.mp hb, length_append, hp]

theorem packs_of_nil (h : Filling C l blocks []) : Packs C l blocks := by
  have hr : 0 < C := h.room
  refine ⟨by simpa using h.flatten, ?_, fun b hb => (h.full b hb).le, ?_⟩
  · rintro b hb rfl
    have := h.full [] hb
    simp only [length_nil] at this
    omega
  · intro b hb
    exact h.full b (blocks.dropLast_subset hb)

theorem packs_append (h : Filling C l blocks rest) (hn : rest ≠ []) :
    Packs C l (blocks ++ [rest]) := by
  have hr := h.room
  refine ⟨by simpa using h.flatten, ?_, ?_, by simpa using h.full⟩
  · intro b hb
    rcases mem_append.mp hb with hb | hb
    · have := h.full b hb
      rintro rfl
      simp only [length_nil] at this
      omega
    · rwa [mem_singleton.mp hb]
  · intro b hb
    rcases mem_append.mp hb with hb | hb
    · exact (h.full b hb).le
    · rw [mem_singleton.mp hb]
      omega

end Filling

/-- The number of blocks of capacity `C` that `n` elements need. -/
def divCeil (n C : ℕ) : ℕ := (n + C - 1) / C

theorem le_divCeil_mul (hC : 0 < C) (n : ℕ) : n ≤ divCeil n C * C := by
  have hd := Nat.div_add_mod (n + C - 1) C
  have hm := Nat.mod_lt (n + C - 1) hC
  rw [Nat.mul_comm] at hd
  unfold divCeil
  omega

/-- All blocks but the last are full and the last holds an element. -/
theorem Packs.mul_length_lt {l : List α} {blocks : List (List α)} (h : Packs C l blocks)
    (hn : blocks ≠ []) : (blocks.length - 1) * C < l.length := by
  have hs := dropLast_append_getLast hn
  have hl : 0 < (blocks.getLast hn).length := length_pos_of_ne_nil (h.nonempty _ (getLast_mem hn))
  have hf : blocks.dropLast.flatten.length = (blocks.length - 1) * C := by
    rw [length_flatten, map_congr_left h.full]
    simp
  calc (blocks.length - 1) * C
      < blocks.dropLast.flatten.length + (blocks.getLast hn).length := by omega
    _ = (blocks.dropLast ++ [blocks.getLast hn]).flatten.length := by simp
    _ = l.length := by rw [hs, h.flatten]

/-- Two packings need at most one block more than one packing of everything would be
allowed, since each ends in at most one block that is not full. -/
theorem Packs.length_add_le {l m : List α} {blocks blocks' : List (List α)} {n : ℕ}
    (hC : 0 < C) (h : Packs C l blocks) (h' : Packs C m blocks')
    (hn : l.length + m.length ≤ n) (hpo : 0 < n) :
    blocks.length + blocks'.length ≤ divCeil n C + 1 := by
  have hc := le_divCeil_mul hC n
  have ho : 0 < divCeil n C := by
    apply Nat.pos_of_ne_zero
    intro hz
    rw [hz] at hc
    omega
  have hb : ∀ {l : List α} {blocks : List (List α)}, Packs C l blocks →
      blocks.length ≤ 1 ∧ (blocks.length - 1) * C ≤ l.length ∨
        1 < blocks.length ∧ (blocks.length - 1) * C < l.length := by
    intro l blocks h
    rcases Nat.lt_or_ge 1 blocks.length with hl | hs
    · have hne : blocks ≠ [] := ne_nil_of_length_pos (by omega)
      exact .inr ⟨hl, h.mul_length_lt hne⟩
    · refine .inl ⟨hs, ?_⟩
      rw [Nat.sub_eq_zero_of_le hs]
      omega
  by_contra hm
  have hp : divCeil n C * C ≤ (blocks.length - 1 + (blocks'.length - 1)) * C := by
    apply Nat.mul_le_mul_right
    omega
  rw [Nat.add_mul] at hp
  rcases hb h with ⟨_, _⟩ | ⟨_, _⟩ <;> rcases hb h' with ⟨_, _⟩ | ⟨_, _⟩ <;> omega

end Packing
