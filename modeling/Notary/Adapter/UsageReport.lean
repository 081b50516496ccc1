import Notary.Lib.Transition
import Notary.Platform.Schema

/-! What the outbox is for, without files, processes or messages: each operation gets at most
one measurement and then at most one outcome, and neither is ever taken back. -/

namespace Notary.Adapter
open Platform

/-- What is known for good about the usage of one operation. -/
structure UsageReport where
  measured : Option ℤ := none
  outcome : Option UsageSettlementOutcome := none
  deriving DecidableEq

namespace UsageReport

/-- An operation that was never measured used nothing. -/
def bytes (r : UsageReport) : ℤ := r.measured.getD 0

inductive Step : UsageReport → UsageReport → Prop
  | measure (b : ℤ) : Step {} { measured := some b }
  | decide (m : Option ℤ) (c : UsageSettlementOutcome) : Step ⟨m, none⟩ ⟨m, some c⟩

/-- Later reports keep what earlier ones said. -/
structure Extends (r r' : UsageReport) : Prop where
  measured : ∀ b, r.measured = some b → r'.measured = some b
  outcome : ∀ c, r.outcome = some c → r'.outcome = some c
  bytes : ∀ c, r.outcome = some c → r'.bytes = r.bytes

theorem Extends.refl (r : UsageReport) : r.Extends r :=
  ⟨fun _ h => h, fun _ h => h, fun _ _ => rfl⟩

theorem Extends.trans {r₁ r₂ r₃ : UsageReport} (h : r₁.Extends r₂) (h' : r₂.Extends r₃) :
    r₁.Extends r₃ := by
  refine ⟨fun b hb => h'.measured b (h.measured b hb), fun c hc => h'.outcome c (h.outcome c hc),
    fun c hc => ?_⟩
  rw [h'.bytes c (h.outcome c hc), h.bytes c hc]

theorem Step.extends (h : Step r r') : r.Extends r' := by
  cases h with
  | measure => exact ⟨by simp, by simp, by simp⟩
  | decide => exact ⟨fun _ h => h, by simp, by simp⟩

end UsageReport

/-- The reports of all operations; each step concerns one of them. -/
def usageReports : Transition.System (String → UsageReport) where
  Init r := r = fun _ => {}
  Step r r' := ∃ i x, UsageReport.Step (r i) x ∧ r' = Function.update r i x

/-- A run of the reports only extends each of them. -/
theorem extends_of_run {r r' : String → UsageReport} (h : usageReports.Run r r') (i : String) :
    (r i).Extends (r' i) := by
  induction h with
  | refl => exact .refl _
  | tail _ hs ih =>
    obtain ⟨j, _, hx, rfl⟩ := hs
    by_cases hi : i = j
    · subst hi
      rw [Function.update_self]
      exact ih.trans hx.extends
    · rw [Function.update_of_ne hi]
      exact ih

end Notary.Adapter
