import Mathlib

/-! A demand drawn from sources in order: each gives what it has before the next one is asked.
A source may have a negative amount, and then gives nothing. -/

namespace Waterfall
open List

variable {α : Type*}

def capacity (sources : List (α × ℤ)) : ℤ := (sources.map fun s => max s.2 0).sum

@[simp] theorem capacity_nil : capacity ([] : List (α × ℤ)) = 0 := rfl

@[simp] theorem capacity_cons (s : α × ℤ) (rest : List (α × ℤ)) :
    capacity (s :: rest) = max s.2 0 + capacity rest := rfl

@[simp] theorem capacity_append (xs ys : List (α × ℤ)) :
    capacity (xs ++ ys) = capacity xs + capacity ys := by
  simp [capacity]

theorem capacity_nonneg (sources : List (α × ℤ)) : 0 ≤ capacity sources := by
  induction sources with
  | nil => exact le_rfl
  | cons =>
    rw [capacity_cons]
    omega

/-- The amounts drawn, without the sources that give nothing. -/
def draw : List (α × ℤ) → ℤ → List (α × ℤ)
  | [], _ => []
  | s :: rest, demand =>
    let given := min demand (max s.2 0)
    if given = 0 then draw rest demand else (s.1, given) :: draw rest (demand - given)

def leftover (sources : List (α × ℤ)) (demand : ℤ) : ℤ := max (demand - capacity sources) 0

theorem draw_zero (sources : List (α × ℤ)) : draw sources 0 = [] := by
  induction sources with
  | nil => rfl
  | cons s _ ih =>
    have hg : min 0 (max s.2 0) = 0 := by omega
    rw [draw, if_pos hg, ih]

theorem leftover_zero (sources : List (α × ℤ)) : leftover sources 0 = 0 := by
  have := capacity_nonneg sources
  unfold leftover
  omega

variable {demand : ℤ}

theorem leftover_cons (hd : 0 ≤ demand) (s : α × ℤ) (rest : List (α × ℤ)) :
    leftover (s :: rest) demand = leftover rest (demand - min demand (max s.2 0)) := by
  have := capacity_nonneg rest
  rw [leftover, leftover, capacity_cons]
  omega

/-- Nothing is lost: the amounts drawn and what is left over are the demand. -/
theorem draw_sum (hd : 0 ≤ demand) (sources : List (α × ℤ)) :
    ((draw sources demand).map Prod.snd).sum + leftover sources demand = demand := by
  induction sources generalizing demand with
  | nil => simp [draw, leftover, hd]
  | cons s _ ih =>
    rw [leftover_cons hd, draw]
    split_ifs with hg
    · simpa only [hg, Int.sub_zero] using ih hd
    · have hr : 0 ≤ demand - min demand (max s.2 0) := by omega
      have hs := ih hr
      rw [map_cons, sum_cons]
      omega

theorem draw_pos (hd : 0 ≤ demand) {sources : List (α × ℤ)} {d : α × ℤ}
    (h : d ∈ draw sources demand) : 0 < d.2 := by
  induction sources generalizing demand with
  | nil => cases h
  | cons s _ ih =>
    rw [draw] at h
    split_ifs at h with hg
    · exact ih hd h
    · obtain rfl | h := mem_cons.mp h
      · change 0 < min demand (max s.2 0)
        omega
      · exact ih (by omega) h

/-- Sources are drawn on in their order, each at most once. -/
theorem draw_sublist (sources : List (α × ℤ)) (demand : ℤ) :
    ((draw sources demand).map Prod.fst).Sublist (sources.map Prod.fst) := by
  induction sources generalizing demand with
  | nil => exact .slnil
  | cons _ _ ih =>
    rw [draw]
    split_ifs
    · exact (ih demand).cons _
    · exact (ih _).cons_cons _

section Given

variable [DecidableEq α]

def given (draws : List (α × ℤ)) (a : α) : ℤ :=
  ((draws.filter fun d => d.1 = a).map Prod.snd).sum

theorem given_append (xs ys : List (α × ℤ)) (a : α) :
    given (xs ++ ys) a = given xs a + given ys a := by
  simp [given]

theorem given_cons (d : α × ℤ) (draws : List (α × ℤ)) (a : α) :
    given (d :: draws) a = (if d.1 = a then d.2 else 0) + given draws a := by
  unfold given
  by_cases h : d.1 = a <;> simp [h]

theorem given_of_not_mem {draws : List (α × ℤ)} {a : α} (h : a ∉ draws.map Prod.fst) :
    given draws a = 0 := by
  have hf : draws.filter (fun d => d.1 = a) = [] := by
    rw [filter_eq_nil_iff]
    intro d hd he
    exact h (mem_map.mpr ⟨d, hd, by simpa using he⟩)
  simp [given, hf]

theorem given_pos_of_mem {draws : List (α × ℤ)} {a : α} (hp : ∀ d ∈ draws, 0 < d.2)
    (h : a ∈ draws.map Prod.fst) : 0 < given draws a := by
  have hn (xs : List (α × ℤ)) (hxs : ∀ d ∈ xs, 0 < d.2) : 0 ≤ given xs a := sum_nonneg (by
      intro x hx
      obtain ⟨d, hd, rfl⟩ := mem_map.mp hx
      exact (hxs d (mem_of_mem_filter hd)).le)
  obtain ⟨d, hd, rfl⟩ := mem_map.mp h
  obtain ⟨xs, ys, rfl⟩ := append_of_mem hd
  rw [given_append, given_cons, if_pos rfl]
  have h₁ := hp d hd
  have h₂ := hn xs fun e he => hp e (by simp [he])
  have h₃ := hn ys fun e he => hp e (by simp [he])
  omega

/-- What a source gives: all it has, as far as the sources before it leave a demand. -/
theorem given_draw (hd : 0 ≤ demand) {before after : List (α × ℤ)} {s : α × ℤ}
    (hn : ((before ++ s :: after).map Prod.fst).Nodup) :
    given (draw (before ++ s :: after) demand) s.1 = min (leftover before demand) (max s.2 0) := by
  induction before generalizing demand with
  | nil =>
    rw [nil_append, map_cons, nodup_cons] at hn
    have hr (x : ℤ) : given (draw after x) s.1 = 0 :=
      given_of_not_mem fun hm => hn.1 ((draw_sublist after x).subset hm)
    have hl : leftover ([] : List (α × ℤ)) demand = demand := by simp [leftover, hd]
    rw [nil_append, draw, hl]
    split_ifs with hg
    · rw [hr, hg]
    · rw [given_cons, if_pos rfl, hr, Int.add_zero]
  | cons t _ ih =>
    rw [cons_append, map_cons, nodup_cons] at hn
    have hne : t.1 ≠ s.1 := by
      rintro he
      exact hn.1 (mem_map.mpr ⟨s, by simp, he.symm⟩)
    rw [cons_append, draw, leftover_cons hd]
    split_ifs with hg
    · rw [ih hd hn.2, hg, Int.sub_zero]
    · rw [given_cons, if_neg hne, Int.zero_add, ih (by omega) hn.2]

/-- A source behind which something is drawn, or a demand is left over, gives all it has. -/
theorem given_draw_of_later (hd : 0 ≤ demand) {before after : List (α × ℤ)} {s : α × ℤ}
    (hn : ((before ++ s :: after).map Prod.fst).Nodup) (hl : (∃ a ∈ after.map Prod.fst,
        a ∈ (draw (before ++ s :: after) demand).map Prod.fst) ∨
      leftover (before ++ s :: after) demand ≠ 0) :
    given (draw (before ++ s :: after) demand) s.1 = max s.2 0 := by
  have he : capacity before + max s.2 0 < demand := by
    obtain ⟨_, ha, hdr⟩ | hle := hl
    · obtain ⟨t, ht, rfl⟩ := mem_map.mp ha
      obtain ⟨mid, rest, rfl⟩ := append_of_mem ht
      have hs : before ++ s :: (mid ++ t :: rest) = (before ++ s :: mid) ++ t :: rest := by simp
      rw [hs] at hn hdr
      have hp := given_pos_of_mem (fun d hd' => draw_pos hd hd') hdr
      have hm := capacity_nonneg mid
      rw [given_draw hd hn, leftover, capacity_append, capacity_cons] at hp
      omega
    · have haf := capacity_nonneg after
      rw [leftover, capacity_append, capacity_cons] at hle
      omega
  rw [given_draw hd hn, leftover]
  omega

end Given

end Waterfall
