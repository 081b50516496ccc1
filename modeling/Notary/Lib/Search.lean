import Mathlib

/-! Searching and splitting lists. -/

namespace Search
open List

variable {α : Type}

/-- The list without the elements at either side that satisfy the predicate. -/
def trim (p : α → Bool) (l : List α) : List α := (l.dropWhile p).rdropWhile p

variable {l : List α}

theorem trim_of_all_not {p : α → Bool} (h : ∀ a ∈ l, p a = false) : trim p l = l := by
  have hd : l.dropWhile p = l := by
    cases l with
    | nil => rfl
    | cons a => rw [dropWhile_cons_of_neg (by simp [h a])]
  rw [trim, hd, rdropWhile_eq_self_iff]
  intro hn
  simp [h _ (getLast_mem hn)]

/-- A beginning of two parts is one of the first part, or the first part with a beginning of the
second. -/
theorem prefix_append_cases {r a b : List α} (h : r <+: a ++ b) :
    (r <+: a ∧ r.length < a.length) ∨ ∃ s, r = a ++ s ∧ s <+: b := by
  obtain ⟨t, ht⟩ := h
  obtain ⟨s, hr, _⟩ | ⟨s, ha, ht⟩ := append_eq_append_iff.mp ht
  · by_cases hs : s = []
    · subst hs
      exact .inr ⟨[], by simp [hr], nil_prefix⟩
    · refine .inl ⟨⟨s, hr.symm⟩, ?_⟩
      rw [hr, length_append]
      have := length_pos_iff.mpr hs
      omega
  · exact .inr ⟨s, ha, ⟨t, ht.symm⟩⟩

variable [DecidableEq α]

/-- The position at which the needle first occurs. -/
def position (needle : List α) : List α → Option ℕ
  | [] => if needle = [] then some 0 else none
  | a :: l => if needle <+: a :: l then some 0 else (position needle l).map (· + 1)

/-- Whether the needle occurs. The empty list occurs nowhere. -/
def occurs (needle l : List α) : Bool := needle ≠ [] && l.tails.any (needle <+: ·)

/-- What stands before and after the first occurrence. -/
def splitOnce (needle l : List α) : Option (List α × List α) :=
  (position needle l).map fun n => (l.take n, l.drop (n + needle.length))

/-- The pieces between the occurrences, which are taken from left to right. -/
def splitAllFrom (needle : List α) : (fuel : ℕ) → List α → List (List α)
  | 0, l => [l]
  | fuel + 1, l =>
    match splitOnce needle l with
    | none => [l]
    | some (piece, rest) => piece :: splitAllFrom needle fuel rest

def splitAll (needle l : List α) : List (List α) := splitAllFrom needle l.length l

/-- The rest after the given beginning. -/
def stripStart (start l : List α) : Option (List α) :=
  if start <+: l then some (l.drop start.length) else none

/-- The list without the given end. -/
def stripEnd (stop l : List α) : Option (List α) :=
  if stop <:+ l then some (l.take (l.length - stop.length)) else none

theorem position_eq_some {needle : List α} {n : ℕ} (h : position needle l = some n) :
    l = l.take n ++ needle ++ l.drop (n + needle.length) := by
  induction l generalizing n with
  | nil =>
    obtain ⟨rfl, _⟩ := Option.ite_none_right_eq_some.mp h
    simp
  | cons _ _ ih =>
    rw [position] at h
    split_ifs at h with hs
    · cases h
      rw [take_zero, nil_append, Nat.zero_add]
      exact (prefix_iff_eq_append.mp hs).symm
    · obtain ⟨_, hm, rfl⟩ := Option.map_eq_some_iff.mp h
      rw [take_succ_cons, Nat.add_right_comm, drop_succ_cons, cons_append, cons_append, ← ih hm]

/-- The search passes over what does not have the needle's first element. -/
theorem position_skip {a : α} (h : a ∉ l) (needle rest : List α) :
    position (a :: needle) (l ++ rest) = (position (a :: needle) rest).map (· + l.length) := by
  induction l with
  | nil => simp
  | cons b l ih =>
    rw [mem_cons, not_or] at h
    have hs : ¬a :: needle <+: b :: (l ++ rest) := by
      rintro ⟨_, ht⟩
      exact h.1 (List.cons.inj ht).1
    rw [cons_append, position, if_neg hs, ih h.2, Option.map_map]
    rfl

theorem position_append {a : α} (h : a ∉ l) (needle rest : List α) :
    position (a :: needle) (l ++ (a :: needle) ++ rest) = some l.length := by
  rw [append_assoc, position_skip h, cons_append, position, if_pos ⟨rest, rfl⟩,
    Option.map_some, Nat.zero_add]

theorem position_eq_none {needle : List α} {a : α} (ha : a ∈ needle) (h : a ∉ l) :
    position needle l = none := by
  induction l with
  | nil => rw [position, if_neg (ne_nil_of_mem ha)]
  | cons b l ih =>
    have hs : ¬needle <+: b :: l := fun hp => h (hp.subset ha)
    rw [position, if_neg hs, ih (fun hl => h (mem_cons_of_mem b hl))]
    rfl

end Search
