import Mathlib

/-! Transition systems: reachable states, invariants, and facts that a whole run keeps. -/

namespace Transition

universe u v

/-- A transition system gives its initial states and its steps. -/
structure System (σ : Type u) where
  Init : σ → Prop
  Step : σ → σ → Prop

namespace System

variable {σ : Type u} (S : System σ)

def Run : σ → σ → Prop := Relation.ReflTransGen S.Step

/-- A state that some run from an initial state ends in. -/
def Reachable (s : σ) : Prop := ∃ i, S.Init i ∧ S.Run i s

variable {S}

theorem Reachable.init {s : σ} (h : S.Init s) : S.Reachable s :=
  ⟨s, h, .refl⟩

theorem Reachable.step {s t : σ} (h : S.Reachable s) (hs : S.Step s t) : S.Reachable t := by
  obtain ⟨i, hi, hr⟩ := h
  exact ⟨i, hi, hr.tail hs⟩

theorem Reachable.run {s t : σ} (h : S.Reachable s) (hr : S.Run s t) : S.Reachable t := by
  obtain ⟨i, hi, his⟩ := h
  exact ⟨i, hi, his.trans hr⟩

/-- Acts one after another, each of them allowed where it is taken. -/
def runActs {α : Type v} (act : σ → α → Option σ) (Allowed : σ → α → Prop)
    [∀ s a, Decidable (Allowed s a)] (s : σ) : List α → Option σ
  | [] => some s
  | a :: rest =>
    if Allowed s a then (act s a).bind fun t => runActs act Allowed t rest else none

theorem Reachable.runActs {α : Type v} {act : σ → α → Option σ} {Allowed : σ → α → Prop}
    [∀ s a, Decidable (Allowed s a)] {acts : List α} {s t : σ} (h : S.Reachable s)
    (hs : ∀ s a t, Allowed s a → act s a = some t → S.Step s t)
    (hr : runActs act Allowed s acts = some t) : S.Reachable t := by
  induction acts generalizing s with
  | nil =>
    cases hr
    exact h
  | cons a _ ih =>
    simp only [System.runActs, Option.ite_none_right_eq_some, Option.bind_eq_some_iff] at hr
    obtain ⟨ha, u, hac, hre⟩ := hr
    exact ih (h.step (hs s a u ha hac)) hre

/-- Where the acts lead to is reachable. -/
theorem Reachable.exists_runActs {α : Type v} {act : σ → α → Option σ} {Allowed : σ → α → Prop}
    [∀ s a, Decidable (Allowed s a)] {s : σ} {P : σ → Prop} [DecidablePred P] (h : S.Reachable s)
    (hs : ∀ s a t, Allowed s a → act s a = some t → S.Step s t) (acts : List α)
    (hr : (System.runActs act Allowed s acts).any (P ·) = true) : ∃ t, S.Reachable t ∧ P t := by
  obtain ⟨t, ht, hp⟩ := (Option.any_eq_true _ _).mp hr
  exact ⟨t, h.runActs hs ht, of_decide_eq_true hp⟩

/-- Each of the acts is allowed where it is taken. -/
def Allows {α : Type v} (act : σ → α → σ) (Allowed : σ → α → Prop) : σ → List α → Prop
  | _, [] => True
  | s, a :: rest => Allowed s a ∧ Allows act Allowed (act s a) rest

theorem Reachable.foldl {α : Type v} {act : σ → α → σ} {Allowed : σ → α → Prop} {acts : List α}
    {s : σ} (h : S.Reachable s) (hs : ∀ s a, Allowed s a → S.Step s (act s a))
    (ha : Allows act Allowed s acts) : S.Reachable (acts.foldl act s) := by
  induction acts generalizing s with
  | nil => exact h
  | cons a _ ih => exact ih (h.step (hs s a ha.1)) ha.2

/-- An invariant holds initially and is kept by each step, so it holds in every
reachable state. -/
theorem Reachable.invariant {I : σ → Prop} {s : σ} (h : S.Reachable s)
    (hin : ∀ i, S.Init i → I i) (hst : ∀ a b, I a → S.Step a b → I b) : I s := by
  obtain ⟨i, hi, hr⟩ := h
  induction hr with
  | refl => exact hin i hi
  | tail _ hs ih => exact hst _ _ ih hs

/-- What each step from a reachable state keeps, a run from a reachable state keeps. -/
theorem Reachable.stable {P : σ → Prop} {s t : σ} (h : S.Reachable s) (hr : S.Run s t)
    (hp : P s) (hst : ∀ a b, S.Reachable a → P a → S.Step a b → P b) : P t := by
  induction hr with
  | refl => exact hp
  | tail ha hs ih => exact hst _ _ (h.run ha) ih hs

/-- A forward simulation: each step from a reachable state is matched by a run of the
abstract system. -/
structure Simulation {τ : Type v} (S : System σ) (A : System τ) (R : σ → τ → Prop) : Prop where
  init : ∀ s, S.Init s → ∃ a, A.Init a ∧ R s a
  step : ∀ s s' a, S.Reachable s → R s a → S.Step s s' → ∃ a', A.Run a a' ∧ R s' a'

namespace Simulation

variable {τ : Type v} {A : System τ} {R : σ → τ → Prop}

theorem run (h : Simulation S A R) {s s' : σ} {a : τ} (hs : S.Reachable s) (hr : R s a)
    (hru : S.Run s s') : ∃ a', A.Run a a' ∧ R s' a' := by
  induction hru with
  | refl => exact ⟨a, .refl, hr⟩
  | tail hst hsp ih =>
    obtain ⟨b, ha, hb⟩ := ih
    obtain ⟨c, hbc, hc⟩ := h.step _ _ b (hs.run hst) hb hsp
    exact ⟨c, ha.trans hbc, hc⟩

theorem reachable (h : Simulation S A R) {s : σ} (hs : S.Reachable s) :
    ∃ a, A.Reachable a ∧ R s a := by
  obtain ⟨i, hi, hru⟩ := hs
  obtain ⟨a, ha, hr⟩ := h.init i hi
  obtain ⟨b, hab, hb⟩ := h.run (.init hi) hr hru
  exact ⟨b, ⟨a, ha, hab⟩, hb⟩

end Simulation

end System

end Transition
