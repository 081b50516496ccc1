import Notary.Adapter.SlotSteps

/-! The adapter and the platform together refine the usage reports, whatever crashes, fails,
is lost or is repeated. -/

namespace Notary.Adapter
open Platform Relational Transition Function Tx

/-- The adapter holds nothing about an operation that it did not redeem. -/
def SlotState (owned : Option AdmittedOperation) (s : Slot) (r : UsageReport) : Prop :=
  match owned with
  | none => s = {} ∧ r = {}
  | some o => SlotInv o s r

/-- The refinement relation. Outside normal service the process holds no session. -/
structure Refines (cfg : AdapterConfig) (w : World) (r : String → UsageReport) : Prop where
  slots : ∀ i, SlotState (ownedAt cfg.instanceId w.db i) (w.slots i) (r i)
  quiet : w.process ≠ .serving → ∀ i,
    (w.slots i).session = none ∧ (w.slots i).retry = none ∧ (w.slots i).due = none

variable {i : String} {s' : Slot} {x : UsageReport} {now : ℤ}

section Steps

variable {cfg : AdapterConfig} {w : World} {r : String → UsageReport}

theorem Refines.owner (h : Refines cfg w r) (hs : w.slots i ≠ {}) :
    ∃ o, ownedAt cfg.instanceId w.db i = some o ∧ o.operationId = i ∧
      o.notaryInstanceId = cfg.instanceId ∧ SlotInv o (w.slots i) (r i) := by
  have hsl := h.slots i
  cases ho : ownedAt cfg.instanceId w.db i with
  | none =>
    rw [ho] at hsl
    exact absurd hsl.1 hs
  | some o =>
    rw [ho] at hsl
    obtain ⟨hr, hi⟩ := ownedAt_eq_some.mp ho
    exact ⟨o, rfl, (operationAt_eq_some.mp hr).2, hi, hsl⟩

theorem Refines.owner_session (h : Refines cfg w r) (hp : (w.slots i).session = some p) :
    w.process = .serving ∧ ∃ o, ownedAt cfg.instanceId w.db i = some o ∧ o.operationId = i ∧
      o.notaryInstanceId = cfg.instanceId ∧ SlotInv o (w.slots i) (r i) := by
  constructor
  · by_contra hn
    simp [(h.quiet hn i).1] at hp
  · exact h.owner fun he => by simp [he] at hp

theorem Refines.update (h : Refines cfg w r)
    (ho : ∀ j, j ≠ i → operationAt db' j = operationAt w.db j)
    (ho' : ownedAt cfg.instanceId db' i = some o') (hx : Follows (r i) x) (hs : SlotInv o' s' x)
    (hq : w.process ≠ .serving → s'.session = none ∧ s'.retry = none ∧ s'.due = none) :
    ∃ r', usageReports.Run r r' ∧ Refines cfg ({ w with db := db' }.setSlot i s') r' ∧
      r' i = x := by
  refine ⟨Function.update r i x, ?_, ⟨fun j => ?_, fun hn j => ?_⟩, by simp⟩
  · rcases hx with rfl | hst
    · rw [update_eq_self]
      exact .refl
    · exact .single ⟨i, x, hst, rfl⟩
  · by_cases hj : j = i
    · subst hj
      simp only [World.setSlot, update_self, ho']
      exact hs
    · simp only [World.setSlot, update_of_ne hj]
      have hr : ownedAt cfg.instanceId db' j = ownedAt cfg.instanceId w.db j := by
        simp only [ownedAt, ho j hj]
      rw [hr]
      exact h.slots j
  · by_cases hj : j = i
    · subst hj
      simpa [World.setSlot] using hq hn
    · simpa [World.setSlot, update_of_ne hj] using h.quiet hn j

theorem Refines.set (h : Refines cfg w r) (ho : ownedAt cfg.instanceId w.db i = some o)
    (hx : Follows (r i) x) (hs : SlotInv o s' x)
    (hq : w.process ≠ .serving → s'.session = none ∧ s'.retry = none ∧ s'.due = none) :
    ∃ r', usageReports.Run r r' ∧ Refines cfg (w.setSlot i s') r' ∧ r' i = x :=
  h.update (fun _ _ => rfl) ho hx hs hq

/-- The reports can follow to a world. -/
def Matched (cfg : AdapterConfig) (r : String → UsageReport) (w : World) : Prop :=
  ∃ r', usageReports.Run r r' ∧ Refines cfg w r'

theorem Matched.of_update (h : ∃ r', usageReports.Run r r' ∧ Refines cfg w r' ∧ r' i = x) :
    Matched cfg r w := by
  obtain ⟨r', hr, hr', -⟩ := h
  exact ⟨r', hr, hr'⟩

section

variable (h : Refines cfg w r)
include h

theorem Refines.move (hse : w.process = .serving) (ho : ownedAt cfg.instanceId w.db i = some o)
    (hx : Follows (r i) x) (hs : SlotInv o s' x) :
    Matched cfg r (w.setSlot i s') :=
  .of_update (h.set ho hx hs fun hn => absurd hse hn)

/-- A transaction of others leaves the operations of this adapter alone, or expires them. -/
theorem Refines.foreign (inv : LedgerInv cfg.platform w.db)
    {t : Transaction} (ht : t.Foreign cfg.instanceId) :
    Refines cfg { w with db := t.run cfg.platform w.db } r := by
  refine ⟨fun i => ?_, h.quiet⟩
  have hs := h.slots i
  rcases Transaction.ownedAt_foreign inv ht i with heq | ⟨o, _, ho, he, ho'⟩
  · rw [heq]
    exact hs
  · rw [ho] at hs
    rw [ho']
    simp only [expired, decide_eq_true_eq] at he
    apply hs.row (a := o.activatedAt) he.2.1 id
    rintro _ hc
    cases hc
    exact .inr ⟨he.1, rfl, rfl⟩

theorem Refines.redeem (inv : LedgerInv cfg.platform w.db) {replied : Bool}
    (hse : replied → w.process = .serving) : Matched cfg r
      (Action.next cfg w (.redeem freshGrantId freshOperationId ticket mode now replied)) := by
  simp only [Action.next]
  cases hx : redeemAdmission cfg.platform freshGrantId freshOperationId
      (redeemRequest cfg ticket mode) now w.db with
  | error e =>
    rw [attempt_of_error hx]
    exact ⟨r, .refl, h⟩
  | ok p =>
    rw [attempt_of_ok hx]
    obtain ⟨_, o, hre, -, hr⟩ := redeemAdmission_ok inv.operations.windows hx
    obtain ⟨_, _, hop⟩ := hre.admitted
    have hs := h.slots o.operationId
    have hn : ownedAt cfg.instanceId w.db o.operationId = none := by
      simp [ownedAt, hre.operationAt_none]
    rw [hn] at hs
    have ho : ownedAt cfg.instanceId p.2 o.operationId = some o := by
      rw [ownedAt_eq_some, hre.operationAt_eq, if_pos rfl, hop]
      exact ⟨rfl, rfl⟩
    have hot (j : String) (hj : j ≠ o.operationId) : operationAt p.2 j = operationAt w.db j := by
      rw [hre.operationAt_eq, if_neg (Ne.symm hj)]
    have he : SlotInv o {} {} := slotInv_empty (by rw [hop]; rfl)
    cases replied with
    | false =>
      have hx' := h.update hot ho (.inl hs.2.symm) he fun _ => ⟨rfl, rfl, rfl⟩
      have hsa : { w with db := p.2 }.setSlot o.operationId {} = { w with db := p.2 } := by
        simp only [World.setSlot, ← hs.1, update_eq_self]
      rw [hsa] at hx'
      exact Matched.of_update hx'
    | true =>
      rw [hr]
      dsimp only
      rw [hs.1]
      refine Matched.of_update (h.update (x := {}) hot ho (.inl hs.2.symm) ?_ ?_)
      · have hm : mode = o.mode := by rw [hop]; rfl
        refine ⟨⟨he.entry.file, by simp, by simp, by simp, by simp, by simp, he.entry.sound⟩, ?_,
          by simp, by simp, by simp⟩
        intro _ hq
        cases hq
        exact ⟨hm, rfl, rfl, rfl⟩
      · exact fun hne => absurd (hse rfl) hne

/-- Recording bytes: what the file then holds is what the report says. -/
theorem Refines.record (ha : Action.Enabled cfg w (.record i mode limits bytes fault)) :
    ∃ r', usageReports.Run r r' ∧
      Refines cfg (Action.next cfg w (.record i mode limits bytes fault)) r' ∧
      ((∃ e, ((Action.next cfg w (.record i mode limits bytes fault)).slots i).file = some e ∧
        e.authenticatedBytes = bytes) → (r' i).measured = some (bytes : ℤ)) := by
  obtain ⟨hp, hre⟩ := ha
  obtain ⟨hs, _, ho, -, -, inv⟩ := h.owner_session hp
  obtain ⟨_, hx, hok, he, hh⟩ := inv.record hp hre i fault
  have hq {P : Prop} (hn : w.process ≠ .serving) : P := absurd hs hn
  simp only [Action.next]
  split
  · rename_i hr
    obtain ⟨r', hru, hr', hi⟩ := h.set ho hx (hok hr) hq
    refine ⟨r', hru, hr', fun hf => ?_⟩
    rw [hi]
    exact hh (by simpa [World.setSlot] using hf)
  · obtain ⟨r', hru, hr', hi⟩ := h.set ho hx he hq
    refine ⟨r', hru, hr', fun hf => ?_⟩
    rw [hi]
    exact hh (by simpa [World.setSlot] using hf)

theorem Refines.activate (ha : request ∈ (w.slots i).activations) :
    Matched cfg r (Action.next cfg w (.activate i request now)) := by
  simp only [Action.next]
  cases hx : activateOperation request now w.db with
  | error =>
    rw [attempt_of_error hx]
    exact ⟨r, .refl, h⟩
  | ok =>
    rw [attempt_of_ok hx]
    obtain ⟨o, ho, hid, hi, inv⟩ := h.owner (i := i) fun he => by simp [he] at ha
    have hr : request.operationId = i := (inv.entry.activations request ha).trans hid
    obtain ⟨⟨o₁, o', ho1, ho', -, -, hc⟩, hot⟩ := operationAt_activate hx
    rw [hr] at ho1 ho' hot
    obtain rfl : o = o₁ := Option.some_inj.mp ((ownedAt_eq_some.mp ho).1.symm.trans ho1)
    have hro : SlotInv o' (w.slots i) (r i) ∧ o'.activatedAt.isSome ∧
        o'.notaryInstanceId = cfg.instanceId := by
      rcases hc with ⟨rfl, hac⟩ | ⟨hp, rfl⟩
      · exact ⟨inv, hac, hi⟩
      · refine ⟨?_, rfl, hi⟩
        apply inv.row (t := o.terminalOutcome) (b := o.settledAuthenticatedBytes)
          (n := o.settledAt) hp (fun _ => rfl)
        simp [hp]
    obtain ⟨inv', hac, hi'⟩ := hro
    have entry := inv'.entry
    refine Matched.of_update (h.update hot (ownedAt_eq_some.mpr ⟨ho', hi'⟩)
      (.inl rfl) ?_ fun hn => h.quiet hn i)
    exact ⟨{ entry with activated := fun _ => hac }, { inv'.control with }⟩

theorem Refines.settle (ledger : LedgerInv cfg.platform w.db)
    (ha : request ∈ (w.slots i).settlements) :
    Matched cfg r (Action.next cfg w (.settle i request ids now)) := by
  simp only [Action.next]
  obtain ⟨o, ho, hid, hi, inv⟩ := h.owner (i := i) fun he => by simp [he] at ha
  obtain ⟨hd, hr⟩ := inv.entry.sent request ha
  have hre : request.operationId = i := by rw [hr, ← hid]; rfl
  have hro := (ownedAt_eq_some.mp ho).1
  cases hx : settleUsage ids request now w.db with
  | error e =>
    -- The operation is known, so the answer is not 410.
    have hs : e.status ≠ 410 := by
      refine settleUsage_fails (P := fun e => e.status ≠ 410) ?_ ?_ ?_ ?_
        ledger.operations.funded e hx
      · exact fun _ => by simp [ApiError.badRequest, ApiError.coded]
      · exact fun _ => by simp [ApiError.conflict, ApiError.coded]
      · intro hn
        rw [hre, hro] at hn
        cases hn
      · rintro _ (he | rfl)
        · simp [he.status]
        · decide
    rw [attempt_of_error hx]
    simp only [settlementDelivered, hs, decide_false]
    exact ⟨r, .refl, h⟩
  | ok =>
    rw [attempt_of_ok hx]
    obtain ⟨⟨o₁, o', ho1, ho', -, hca⟩, hot⟩ := operationAt_settle hx
    rw [hre] at ho1 ho' hot
    obtain rfl : o = o₁ := Option.some_inj.mp (hro.symm.trans ho1)
    have hb : request.authenticatedBytes = (r i).bytes := by rw [hr]; rfl
    have hnw : SlotInv o' (w.slots i) (r i) ∧ o'.terminalOutcome = some request.outcome ∧
        o'.settledAuthenticatedBytes = some request.authenticatedBytes ∧
        o'.notaryInstanceId = cfg.instanceId := by
      rcases hca with ⟨rfl, hou, hse⟩ | ⟨hp, rfl⟩
      · exact ⟨inv, hou, hse, hi⟩
      · refine ⟨?_, rfl, rfl, hi⟩
        apply inv.row (a := o.activatedAt) (n := some now) hp id
        rintro _ hc
        cases hc
        exact .inl ⟨hd, by rw [hb]⟩
    obtain ⟨inv', hou, hse, hi'⟩ := hnw
    have entry := inv'.entry
    refine Matched.of_update (h.update hot (ownedAt_eq_some.mpr ⟨ho', hi'⟩)
      (.inl rfl) ?_ fun hne => h.quiet hne i)
    refine ⟨{ entry with accepted := ?_ }, { inv'.control with }⟩
    intro m hm
    rcases List.mem_cons.mp hm with rfl | hm
    · exact ⟨hou, hse⟩
    · exact entry.accepted m hm

theorem Refines.step (ledger : LedgerInv cfg.platform w.db) {a : Action}
    (ha : a.Enabled cfg w) : Matched cfg r (a.next cfg w) := by
  cases a with
  | platform => exact ⟨r, .refl, h.foreign ledger ha⟩
  | redeem => exact h.redeem ledger ha
  | stage _ _ _ fault =>
    obtain ⟨hse, _, ho, rfl, hi, inv⟩ := h.owner_session ha
    obtain ⟨hok, _, hx, her⟩ := inv.stage ha hi fault
    simp only [Action.next]
    split
    · rename_i hrp
      exact h.move hse ho (.inl rfl) (hok hrp)
    · exact h.move hse ho hx her
  | settleDirectly =>
    obtain ⟨hse, _, ho, rfl, hi, inv⟩ := h.owner_session ha
    exact h.move hse ho (.inl rfl) (inv.settleDirectly ha hi)
  | constrain =>
    obtain ⟨hse, o, ho, rfl, _, inv⟩ := h.owner_session ha
    obtain ⟨rfl, hal, hma, hr⟩ := inv.control.session _ ha
    have hop : (r o.operationId).outcome = none := by rw [hr]
    simp only [Action.next]
    split
    · rename_i c hc
      obtain ⟨m, hm, hfi⟩ := operationConstraints_ok hc
      rw [hal, hma] at hfi
      have hph : PhaseInv o (r o.operationId) (.activating o.mode c) := ⟨hr, m, hm, rfl, hfi⟩
      have next := inv.advance ha hph hop
      have entry := next.entry
      refine h.move hse ho (.inl rfl) ⟨{ entry with activations := ?_ }, { next.control with }⟩
      intro request hre
      rcases List.mem_cons.mp hre with rfl | hre
      · rfl
      · exact entry.activations request hre
    · exact h.move hse ho (.inl rfl)
        (inv.advance ha ⟨updateFits_failure (by simp) (by simp) hop, hop⟩ hop)
  | activation _ _ _ succeeded =>
    obtain ⟨hp, hrp⟩ := ha
    obtain ⟨hse, o, ho, rfl, _, inv⟩ := h.owner_session hp
    obtain ⟨hr, hfi⟩ := inv.control.session _ hp
    have hop : (r o.operationId).outcome = none := by rw [hr]
    refine h.move hse ho (.inl rfl) (inv.advance hp ?_ hop)
    cases succeeded with
    | false => exact ⟨updateFits_failure (by simp) (by simp) hop, hop⟩
    | true => exact ⟨hr, inv.entry.activated (hrp rfl), hfi⟩
  | begin =>
    obtain ⟨hse, o, ho, rfl, _, inv⟩ := h.owner_session ha
    obtain ⟨hr, hac, m, hm, rfl, hfi⟩ := inv.control.session _ ha
    have hop : (r o.operationId).outcome = none := by rw [hr]
    simp only [Action.next]
    split
    · rename_i hl
      obtain ⟨hex, hcp⟩ := effectiveSessionLimits_ok hl
      have hle := hcp m hm
      refine h.move hse ho (.inl rfl) (inv.advance ha ⟨hr, hac, rfl, ?_, ?_⟩ hop)
      · rw [hex]
        exact hfi.notarization
      · intro hmo
        have hce := hfi.capture hmo
        omega
    · exact h.move hse ho (.inl rfl)
        (inv.advance ha ⟨updateFits_failure (by simp) (by simp) hop, hop⟩ hop)
  | record =>
    obtain ⟨r', hru, hr', -⟩ := h.record ha
    exact ⟨r', hru, hr'⟩
  | complete _ _ _ bytes =>
    obtain ⟨hp, hco⟩ := ha
    obtain ⟨hse, o, ho, rfl, _, inv⟩ := h.owner_session hp
    obtain ⟨hr, hac, rfl, hfi⟩ := inv.control.session _ hp
    have hop : (r o.operationId).outcome = none := by rw [hr]
    refine h.move hse ho (.inl rfl) (inv.advance hp ⟨⟨.inr ?_, fun _ => hac,
      fun _ => ⟨bytes, ?_, fun hmo => ?_⟩, .inl hop⟩, hop⟩ hop)
    · rw [hr]
    · rw [hr]
    · have hle := hco hmo
      have hce := hfi.capture hmo
      omega
  | fail _ phase =>
    obtain ⟨hp, hca, hn⟩ := ha
    obtain ⟨hse, o, ho, rfl, _, inv⟩ := h.owner_session hp
    have hph := inv.control.session _ hp
    have hfa : o.activatedAt.isSome ∧ (r o.operationId).outcome = none := by
      cases phase with
      | admitted | running | measured => exact ⟨hph.2.1, by rw [hph.1]⟩
      | _ => cases hca
    obtain ⟨hac, hop⟩ := hfa
    exact h.move hse ho (.inl rfl)
      (inv.advance hp ⟨updateFits_failure (fun _ => hac) hn hop, hop⟩ hop)
  | finish i _ fault =>
    obtain ⟨hse, _, ho, -, -, inv⟩ := h.owner_session ha
    obtain ⟨_, hx, hok, her⟩ := inv.finish ha i fault
    simp only [Action.next]
    split
    · exact h.move hse ho hx hok
    · exact h.move hse ho hx her
  | queue _ update =>
    obtain ⟨hse, _, ho, -, -, inv⟩ := h.owner_session ha
    have entry := inv.entry
    refine h.move hse ho (.inl rfl) ⟨{ entry with }, by simp, ?_, by simp,
      fun _ => inv.control.queued (.inr ⟨update, ha⟩)⟩
    intro _ hu
    cases hu
    exact inv.control.session _ ha
  | retry i _ fault =>
    obtain ⟨_, ho, -, -, inv⟩ := h.owner (i := i) fun he => by
      rw [Action.Enabled, he] at ha
      cases ha
    have hse : w.process = .serving := by
      by_contra hn
      rw [Action.Enabled, (h.quiet hn i).2.1] at ha
      cases ha
    obtain ⟨_, hx, hok, her⟩ := inv.retried ha i fault
    simp only [Action.next]
    split
    · exact h.move hse ho hx hok
    · exact h.move hse ho hx her
  | collect i =>
    obtain ⟨hse, hrd, hry⟩ := ha
    have hf := (read_ok hrd).1
    obtain ⟨_, ho, -, -, inv⟩ := h.owner (i := i) fun he => by
      rw [he] at hf
      cases hf
    exact h.move hse ho (.inl rfl) (inv.collect hf hry)
  | deliver i =>
    obtain ⟨_, ho, -, -, inv⟩ := h.owner (i := i) fun he => by
      rw [Action.Enabled, he] at ha
      cases ha
    exact .of_update (h.set ho (.inl rfl) (inv.deliver ha) fun hn => h.quiet hn i)
  | remove i =>
    obtain ⟨hd, -⟩ := ha
    obtain ⟨_, ho, -, -, inv⟩ := h.owner (i := i) fun he => by
      rw [he] at hd
      cases hd
    exact .of_update (h.set ho (.inl rfl) inv.remove
      fun hn => ⟨(h.quiet hn i).1, (h.quiet hn i).2.1, rfl⟩)
  | activate => exact h.activate ha
  | settle => exact h.settle ledger ha
  | crash =>
    refine ⟨r, .refl, fun i => ?_, fun _ i => ⟨rfl, rfl, rfl⟩⟩
    have hsl := h.slots i
    change SlotState (ownedAt cfg.instanceId w.db i) (w.slots i).crash (r i)
    cases ho : ownedAt cfg.instanceId w.db i with
    | none =>
      rw [ho] at hsl
      exact ⟨by rw [hsl.1]; rfl, hsl.2⟩
    | some =>
      rw [ho] at hsl
      exact SlotInv.crash hsl
  | restart =>
    have hdo : w.process ≠ .serving := by
      rw [show w.process = .down from ha]
      decide
    exact ⟨r, .refl, h.slots, fun _ => h.quiet hdo⟩
  | recoverEntry i _ fault =>
    obtain ⟨hpr, hrd, hno⟩ := ha
    have hn : w.process ≠ .serving := by
      rw [hpr]
      decide
    have hf := (read_ok hrd).1
    obtain ⟨_, ho, -, -, inv⟩ := h.owner (i := i) fun he => by
      rw [he] at hf
      cases hf
    obtain ⟨hss, hrt, hd⟩ := h.quiet hn i
    obtain ⟨_, hx, hs⟩ := inv.recover hss hrt hd hf hno fault
    obtain ⟨r', hru, hr', -⟩ := h.set ho hx hs fun _ => ⟨hss, hrt, hd⟩
    simp only [Action.next]
    split
    · exact ⟨r', hru, hr'⟩
    · exact ⟨r', hru, hr'.slots, fun _ => hr'.quiet hn⟩
  | serve => exact ⟨r, .refl, h.slots, fun hn => absurd rfl hn⟩

end

end Steps

end Notary.Adapter
