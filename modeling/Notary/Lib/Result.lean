import Mathlib

/-! Computations that fail with an error. -/

namespace Result
open List

variable {ε α β : Type}

variable {x : Except ε α}

theorem bind_ok {f : α → Except ε β} {r : β} :
    (x >>= f) = .ok r ↔ ∃ a, x = .ok a ∧ f a = .ok r := by
  cases x with
  | ok a => exact ⟨fun h => ⟨a, rfl, h⟩, fun ⟨_, ha, h⟩ => Except.ok.inj ha ▸ h⟩
  | error => exact ⟨fun h => (nomatch h), fun ⟨_, h, _⟩ => (nomatch h)⟩

theorem ok_bind (a : α) (f : α → Except ε β) : (Except.ok a >>= f) = f a := rfl

theorem guard_ok {p : Prop} [Decidable p] {e : ε} {r : α} :
    (if p then Except.error e else x) = .ok r ↔ ¬p ∧ x = .ok r := by
  by_cases hp : p
  · simp [hp]
  · simp [hp]

theorem exists_of_toBool (h : x.toBool = true) : ∃ a, x = .ok a := by
  cases x with
  | ok a => exact ⟨a, rfl⟩
  | error => cases h

theorem mapM_ok {γ : Type} {f : α → Except ε β} {g : γ → β} {xs : List α} {ys : List γ}
    (h : List.Forall₂ (fun x y => f x = .ok (g y)) xs ys) : xs.mapM f = .ok (ys.map g) := by
  induction h with
  | nil => rfl
  | cons hx _ ih =>
    rw [mapM_cons, hx, ih]
    rfl

theorem forM_ok {f : α → Except ε Unit} {xs : List α} :
    xs.forM f = .ok () ↔ ∀ x ∈ xs, f x = .ok () := by
  induction xs with
  | nil => exact iff_of_true rfl nofun
  | cons _ _ ih =>
    rw [forall_mem_cons, ← ih]
    exact ⟨fun h => by obtain ⟨_, hx, hxs⟩ := bind_ok.mp h; exact ⟨hx, hxs⟩,
      fun ⟨hx, hxs⟩ => bind_ok.mpr ⟨(), hx, hxs⟩⟩

/-- A loop that counts up to a limit. -/
theorem foldlM_counts {f : β → α → Except ε β} {state : ℕ → β} {cost : α → ℕ} {limit : ℕ}
    (hs : ∀ n ≤ limit, ∀ x b, f (state n) x = .ok b ↔
      n + cost x ≤ limit ∧ state (n + cost x) = b) {n : ℕ} (hn : n ≤ limit) (xs : List α) {b : β} :
    xs.foldlM f (state n) = .ok b ↔
      n + (xs.map cost).sum ≤ limit ∧ state (n + (xs.map cost).sum) = b := by
  induction xs generalizing n with
  | nil => exact ⟨fun h => ⟨hn, Except.ok.inj h⟩, fun h => congrArg Except.ok h.2⟩
  | cons x _ ih =>
    rw [foldlM_cons, bind_ok, map_cons, sum_cons, ← Nat.add_assoc]
    constructor
    · rintro ⟨b', hx, hxs⟩
      obtain ⟨hl, rfl⟩ := (hs n hn x b').mp hx
      exact (ih hl).mp hxs
    · rintro ⟨hl, hb⟩
      have hx : n + cost x ≤ limit := by omega
      exact ⟨_, (hs n hn x _).mpr ⟨hx, rfl⟩, (ih hx).mpr ⟨hl, hb⟩⟩

/-- A loop that succeeds has succeeded at every element. -/
theorem foldlM_mem {f : β → α → Except ε β} {xs : List α} {b b' : β}
    (h : xs.foldlM f b = .ok b') : ∀ x ∈ xs, ∃ c c', f c x = .ok c' := by
  induction xs generalizing b with
  | nil => exact forall_mem_nil _
  | cons _ _ ih =>
    obtain ⟨c, hc, h⟩ := bind_ok.mp h
    exact forall_mem_cons.mpr ⟨⟨b, c, hc⟩, ih h⟩

/-- A loop that never fails while an invariant holds. -/
theorem foldlM_ok {f : β → α → Except ε β} {g : β → α → β} (I : β → Prop) {xs : List α}
    (h : ∀ x ∈ xs, ∀ b, I b → f b x = .ok (g b x) ∧ I (g b x)) {b : β} (hb : I b) :
    xs.foldlM f b = .ok (xs.foldl g b) := by
  induction xs generalizing b with
  | nil => rfl
  | cons x _ ih =>
    obtain ⟨hx, hn⟩ := h x mem_cons_self b hb
    rw [foldlM_cons, hx]
    exact ih (fun y hy => h y (mem_cons_of_mem x hy)) hn

end Result
