import Mathlib

/-! Sets of positions, kept as increasing nonempty ranges no two of which touch. -/

namespace Ranges
open List

/-- The half-open range of positions `start, ..., stop - 1`. -/
structure Span where
  start : ℕ
  stop : ℕ
  deriving DecidableEq

variable {r : Span} {x : ℕ}

namespace Span

instance : Membership ℕ Span := ⟨fun r x => r.start ≤ x ∧ x < r.stop⟩

theorem mem_def : x ∈ r ↔ r.start ≤ x ∧ x < r.stop := Iff.rfl

def len (r : Span) : ℕ := r.stop - r.start

def positions (r : Span) : List ℕ := List.range' r.start r.len

@[simp] theorem length_positions (r : Span) : r.positions.length = r.len := by simp [positions]

@[simp] theorem mem_positions : x ∈ r.positions ↔ x ∈ r := by
  simp only [positions, mem_range'_1, mem_def, len]
  omega

theorem positions_split {a b c : ℕ} (ha : a ≤ b) (hb : b ≤ c) :
    (⟨a, c⟩ : Span).positions = (⟨a, b⟩ : Span).positions ++ (⟨b, c⟩ : Span).positions := by
  have hl : c - a = (b - a) + (c - b) := by omega
  simp only [positions, len, hl, ← range'_append_1]
  congr 2
  omega

end Span

/-- Nonempty ranges in increasing order with a gap between any two. -/
def Separated (l : List Span) : Prop :=
  (∀ r ∈ l, r.start < r.stop) ∧ l.Pairwise fun r s => r.stop < s.start
  deriving Decidable

structure RangeSet where
  spans : List Span
  separated : Separated spans
  deriving DecidableEq

/-- Insertion of a nonempty range, which absorbs every range it overlaps or touches. -/
def absorb (r : Span) : List Span → List Span
  | [] => [r]
  | s :: rest =>
    if r.stop < s.start then r :: s :: rest
    else if s.stop < r.start then s :: absorb r rest
    else absorb ⟨min r.start s.start, max r.stop s.stop⟩ rest

variable {l : List Span}

theorem mem_absorb (hr : r.start < r.stop) (hl : ∀ s ∈ l, s.start < s.stop) (x : ℕ) :
    (∃ s ∈ absorb r l, x ∈ s) ↔ x ∈ r ∨ ∃ s ∈ l, x ∈ s := by
  induction l generalizing r with
  | nil => simp [absorb]
  | cons s rest ih =>
    have hs : s.start < s.stop := hl s (by simp)
    have hre : ∀ t ∈ rest, t.start < t.stop := fun t ht => hl t (by simp [ht])
    unfold absorb
    split_ifs with hb ha
    · simp
    · simp only [exists_mem_cons_iff, ih hr hre]
      tauto
    · rw [ih (by simp only; omega) hre]
      simp only [exists_mem_cons_iff, Span.mem_def]
      constructor
      · rintro (h | h)
        · by_cases hx : r.start ≤ x ∧ x < r.stop
          · exact .inl hx
          · exact .inr (.inl (by omega))
        · exact .inr (.inr h)
      · rintro (h | h | h)
        · exact .inl (by omega)
        · exact .inl (by omega)
        · exact .inr h

theorem lt_start_absorb {k : ℕ} (hr : k < r.start) (hl : ∀ s ∈ l, k < s.start) :
    ∀ s ∈ absorb r l, k < s.start := by
  induction l generalizing r with
  | nil => simpa [absorb] using hr
  | cons s rest ih =>
    have hs : k < s.start := hl s (by simp)
    have hre : ∀ t ∈ rest, k < t.start := fun t ht => hl t (by simp [ht])
    unfold absorb
    split_ifs with hb ha
    · intro t ht
      rcases mem_cons.mp ht with rfl | ht
      · exact hr
      · exact hl t ht
    · intro t ht
      rcases mem_cons.mp ht with rfl | ht
      · exact hs
      · exact ih hr hre t ht
    · exact ih (by simp only; omega) hre

theorem separated_cons :
    Separated (r :: l) ↔ r.start < r.stop ∧ (∀ s ∈ l, r.stop < s.start) ∧ Separated l := by
  simp only [Separated, forall_mem_cons, pairwise_cons]
  tauto

theorem separated_absorb (hr : r.start < r.stop) (hl : Separated l) : Separated (absorb r l) := by
  induction l generalizing r with
  | nil => simpa [absorb, Separated] using hr
  | cons _ _ ih =>
    obtain ⟨hs, hg, hre⟩ := separated_cons.mp hl
    unfold absorb
    split_ifs with hb ha
    · rw [separated_cons]
      refine ⟨hr, ?_, hl⟩
      intro t ht
      rcases mem_cons.mp ht with rfl | ht
      · exact hb
      · have := hg t ht
        omega
    · exact separated_cons.mpr ⟨hs, lt_start_absorb ha hg, ih hr hre⟩
    · exact ih (by simp only; omega) hre

variable {s : RangeSet}

namespace RangeSet

instance : Membership ℕ RangeSet := ⟨fun s x => ∃ r ∈ s.spans, x ∈ r⟩

theorem mem_def : x ∈ s ↔ ∃ r ∈ s.spans, x ∈ r := Iff.rfl

instance : Decidable (x ∈ s) :=
  inferInstanceAs (Decidable (∃ r ∈ s.spans, r.start ≤ x ∧ x < r.stop))

instance : EmptyCollection RangeSet := ⟨⟨[], by simp [Separated]⟩⟩

@[simp] theorem spans_empty : (∅ : RangeSet).spans = [] := rfl

@[simp] theorem not_mem_empty (x : ℕ) : x ∉ (∅ : RangeSet) := by simp [mem_def]

def len (s : RangeSet) : ℕ := (s.spans.map Span.len).sum

def stop (s : RangeSet) : ℕ := (s.spans.getLast?.map Span.stop).getD 0

def positions (s : RangeSet) : List ℕ := s.spans.flatMap Span.positions

@[simp] theorem length_positions (s : RangeSet) : s.positions.length = s.len := by
  simp [positions, len, length_flatMap]

@[simp] theorem mem_positions : x ∈ s.positions ↔ x ∈ s := by
  simp [positions, mem_def]

/-- Union with one range; an empty range adds nothing. -/
def unionSpan (s : RangeSet) (r : Span) : RangeSet :=
  if h : r.start < r.stop then ⟨absorb r s.spans, separated_absorb h s.separated⟩ else s

@[simp] theorem mem_unionSpan : x ∈ s.unionSpan r ↔ x ∈ r ∨ x ∈ s := by
  unfold unionSpan
  split_ifs with h
  · exact mem_absorb h s.separated.1 x
  · simp only [Span.mem_def]
    constructor
    · exact .inr
    · rintro (hx | hx)
      · omega
      · exact hx

theorem mem_foldl_unionSpan (l : List Span) (s : RangeSet) :
    x ∈ l.foldl unionSpan s ↔ x ∈ s ∨ ∃ r ∈ l, x ∈ r := by
  induction l generalizing s with
  | nil => simp
  | cons _ _ ih =>
    rw [foldl_cons, ih, mem_unionSpan]
    simp only [exists_mem_cons_iff]
    tauto

def union (s t : RangeSet) : RangeSet := t.spans.foldl unionSpan s

@[simp] theorem mem_union {t : RangeSet} : x ∈ s.union t ↔ x ∈ s ∨ x ∈ t :=
  mem_foldl_unionSpan t.spans s

def difference (s : RangeSet) (r : Span) : RangeSet :=
  (s.spans.flatMap fun t => [⟨t.start, min t.stop r.start⟩, ⟨max t.start r.stop, t.stop⟩]).foldl
    unionSpan ∅

@[simp] theorem mem_difference : x ∈ s.difference r ↔ x ∈ s ∧ x ∉ r := by
  have hp (t : Span) : x ∈ (⟨t.start, min t.stop r.start⟩ : Span) ∨
      x ∈ (⟨max t.start r.stop, t.stop⟩ : Span) ↔ x ∈ t ∧ x ∉ r := by
    simp only [Span.mem_def]
    omega
  simp only [difference, mem_foldl_unionSpan, not_mem_empty, false_or, mem_flatMap,
    mem_cons, not_mem_nil, or_false, mem_def (s := s)]
  constructor
  · rintro ⟨_, ⟨t, ht, rfl | rfl⟩, hx⟩
    · exact ⟨⟨t, ht, ((hp t).mp (.inl hx)).1⟩, ((hp t).mp (.inl hx)).2⟩
    · exact ⟨⟨t, ht, ((hp t).mp (.inr hx)).1⟩, ((hp t).mp (.inr hx)).2⟩
  · rintro ⟨⟨t, ht, hx⟩, hr⟩
    obtain hx | hx := (hp t).mpr ⟨hx, hr⟩
    · exact ⟨_, ⟨t, ht, .inl rfl⟩, hx⟩
    · exact ⟨_, ⟨t, ht, .inr rfl⟩, hx⟩

/-- No range of one set overlaps a range of the other. -/
def isDisjoint (s t : RangeSet) : Bool :=
  s.spans.all fun a => t.spans.all fun b => a.stop ≤ b.start || b.stop ≤ a.start

theorem isDisjoint_of_forall {t : RangeSet} (h : ∀ x ∈ s, x ∉ t) : s.isDisjoint t := by
  simp only [isDisjoint, all_eq_true, Bool.or_eq_true, decide_eq_true_eq]
  intro a ha b hb
  have han := s.separated.1 a ha
  have hbn := t.separated.1 b hb
  by_contra hm
  exact h (max a.start b.start) ⟨a, ha, by rw [Span.mem_def]; omega⟩
    ⟨b, hb, by rw [Span.mem_def]; omega⟩

theorem stop_le {n : ℕ} (h : ∀ x ∈ s, x < n) : s.stop ≤ n := by
  unfold stop
  cases hl : s.spans.getLast? with
  | none => simp
  | some r =>
    have hr := mem_of_getLast? hl
    have hn := s.separated.1 r hr
    have := h (r.stop - 1) ⟨r, hr, by rw [Span.mem_def]; omega⟩
    simp only [Option.map_some, Option.getD_some]
    omega

theorem positions_pairwise (s : RangeSet) : s.positions.Pairwise (· < ·) := by
  have hs : ∀ l : List Span, Separated l → (l.flatMap Span.positions).Pairwise (· < ·) := by
    intro l hl
    induction l with
    | nil => simp
    | cons _ _ ih =>
      obtain ⟨-, hg, hr⟩ := separated_cons.mp hl
      rw [flatMap_cons, pairwise_append]
      refine ⟨pairwise_lt_range', ih hr, ?_⟩
      intro x hx y hy
      obtain ⟨t, ht, hy⟩ := mem_flatMap.mp hy
      have hxr := (Span.mem_positions.mp hx).2
      have hyt := (Span.mem_positions.mp hy).1
      have := hg t ht
      omega
  exact hs s.spans s.separated

/-- The positions are the only increasing list of the elements. -/
theorem positions_eq_of_mem {l : List ℕ} (hl : l.Pairwise (· < ·)) (h : ∀ x, x ∈ s ↔ x ∈ l) :
    s.positions = l := by
  have hp : s.positions.Perm l := by
    rw [perm_ext_iff_of_nodup (s.positions_pairwise.imp Nat.ne_of_lt) (hl.imp Nat.ne_of_lt)]
    simpa using h
  exact hp.eq_of_pairwise (fun a b _ _ ha hb => by omega) s.positions_pairwise hl

end RangeSet

end Ranges
