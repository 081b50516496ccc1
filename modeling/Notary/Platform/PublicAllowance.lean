import Notary.Platform.Lifecycle
import Notary.Platform.PublicSubject

/-! Runs of anonymous ticket issues and redemptions, and the monthly grants they create for one
client address. -/

namespace Notary.Platform
open Relational List Table

variable {kind : CreditKind} {now : ℤ}

/-- An anonymous issue derives its subject in the month in which it is asked. -/
def issuePublicAdmission (cfg : PlatformConfig) (key : SubjectKey) (freshGrantId token : String)
    (clientIp : IpAddr) (request : IssueAdmissionRequest) (now : ℤ) :
    Request AdmissionTicketResponse := do
  let period ← Tx.require (cfg.calendar.monthlyCreditPeriod now) databaseError
  issueAdmission cfg freshGrantId token
    (.anonymous (key.publicCreditSubject clientIp period.start)) request now

/-- A request of an anonymous client or of the notary that redeems its ticket. -/
inductive PublicAct
  | issue (freshGrantId token : String) (clientIp : IpAddr) (request : IssueAdmissionRequest)
      (now : ℤ)
  | redeem (freshGrantId freshOperationId : String) (request : RedeemAdmissionRequest) (now : ℤ)

namespace PublicAct

def run (cfg : PlatformConfig) (key : SubjectKey) : PublicAct → Database → Database
  | issue freshGrantId token clientIp request now =>
    (issuePublicAdmission cfg key freshGrantId token clientIp request now).exec
  | redeem freshGrantId freshOperationId request now =>
    (redeemAdmission cfg freshGrantId freshOperationId request now).exec

/-- A ticket that is redeemed was issued in the same month. -/
def WithinMonth (cfg : PlatformConfig) (db : Database) : PublicAct → Prop
  | issue .. => True
  | redeem _ _ request now => ∀ t ∈ db.tickets.rows,
      t.tokenHash = cfg.sha256Hex request.ticket →
        cfg.calendar.monthlyCreditPeriod now = cfg.calendar.monthlyCreditPeriod t.issuedAt

end PublicAct

/-- The databases of the runs in which every request satisfies a condition on the state it
meets. -/
def publicLedger (cfg : PlatformConfig) (key : SubjectKey)
    (Allowed : Database → PublicAct → Prop) : Transition.System Database where
  Init db := db = {}
  Step db db' := ∃ act : PublicAct, Allowed db act ∧ db' = act.run cfg key db

/-- The ticket was issued to the client with the normalized address. -/
def AdmissionTicket.issuedTo (cfg : PlatformConfig) (key : SubjectKey) (normalized : String)
    (t : AdmissionTicket) : Bool :=
  match cfg.calendar.monthlyCreditPeriod t.issuedAt with
  | some period => t.creditSubject = key.addressSubject normalized period.start
  | none => false

/-- The monthly grants of one kind and month for the tickets of a client. -/
def publicGrants (cfg : PlatformConfig) (key : SubjectKey) (db : Database) (normalized : String)
    (kind : CreditKind) (periodStart : ℤ) : List CreditGrant :=
  db.grants.rows.filter fun g =>
    g.sourceKind = .includedMonthly ∧ g.creditKind = kind ∧ g.periodStart = some periodStart ∧
      db.tickets.rows.any fun t =>
        t.issuedTo cfg key normalized && t.creditSubject = g.creditSubject

/-- What an anonymous client was granted for a month. -/
def publicAllowance (cfg : PlatformConfig) (key : SubjectKey) (db : Database)
    (normalized : String) (kind : CreditKind) (periodStart : ℤ) : ℤ :=
  ((publicGrants cfg key db normalized kind periodStart).map (·.amountBytes)).sum

section Invariant

variable {cfg : PlatformConfig} {key : SubjectKey} {db db' : Database}

variable (cfg key) in
/-- The subject of a client in a month of the calendar. -/
def PublicSubject (subject : String) (period : CreditPeriod) : Prop :=
  (∃ now, cfg.calendar.monthlyCreditPeriod now = some period) ∧
    ∃ normalized, subject = key.addressSubject normalized period.start

variable (cfg key) in
/-- A month's grant under a subject of the same month. -/
structure PublicGrant (g : CreditGrant) : Prop where
  amount : g.amountBytes = cfg.publicTier.monthlyBytes g.creditKind
  month : ∃ period, PublicSubject cfg key g.creditSubject period ∧
    g.periodStart = some period.start ∧
    g.idempotencyKey = "monthly:" ++ g.creditKind.asStr ++ ":" ++ toString period.start

variable (cfg key) in
structure PublicTicket (t : AdmissionTicket) : Prop where
  tier : t.admissionTier = .publicTier
  subject : ∃ period, cfg.calendar.monthlyCreditPeriod t.issuedAt = some period ∧
    PublicSubject cfg key t.creditSubject period

variable (cfg key) in
structure PublicInv (db : Database) : Prop where
  tickets : ∀ t ∈ db.tickets, PublicTicket cfg key t
  grants : ∀ g ∈ db.grants, PublicGrant cfg key g

section

variable (inv : PublicInv cfg key db)
include inv

theorem PublicInv.ensure (hp : cfg.calendar.monthlyCreditPeriod now = some period)
    (hs : PublicSubject cfg key subject period)
    (h : ensureMonthlyGrant cfg.calendar freshId subject accountId cfg.publicTier kind now db =
      .ok ((), db')) : PublicInv cfg key db' ∧ db'.tickets = db.tickets := by
  obtain ⟨_, _, hf, rfl, hgr⟩ := ensureMonthlyGrant_mem h
  obtain rfl := Option.some.inj (hp.symm.trans hf)
  refine ⟨⟨inv.tickets, fun g' hg' => ?_⟩, rfl⟩
  rcases hgr g' hg' with ho | ⟨g, hg, rfl, rfl⟩ | ⟨_, rfl⟩
  · exact inv.grants g' ho
  · exact ⟨rfl, (inv.grants g hg).month⟩
  · exact ⟨rfl, period, hs, rfl, rfl⟩

theorem PublicInv.issue
    (h : issuePublicAdmission cfg key freshGrantId token clientIp request now db = .ok r) :
    PublicInv cfg key r.2 := by
  simp only [issuePublicAdmission, Tx.bind_ok, Tx.require_ok] at h
  obtain ⟨period, _, ⟨hpe, rfl⟩, h⟩ := h
  obtain ⟨_, ticket, _, hm, ⟨-, hsu, htr, rfl, -⟩, htt, hr⟩ := issueAdmission_ensures h
  have hs : PublicSubject cfg key ticket.creditSubject period := ⟨⟨_, hpe⟩, _, hsu⟩
  obtain ⟨inv₁, -⟩ := inv.ensure hpe (hsu ▸ hs) hm
  rw [hr]
  refine ⟨fun t ht => ?_, inv₁.grants⟩
  rcases (mem_of_insert htt).mp ht with ho | rfl
  · exact inv₁.tickets t ho
  · exact ⟨htr, period, hpe, hs⟩

theorem PublicInv.redeem
    (hw : (PublicAct.redeem freshGrantId freshOperationId request now).WithinMonth cfg db)
    (h : redeemAdmission cfg freshGrantId freshOperationId request now db = .ok r) :
    PublicInv cfg key r.2 := by
  obtain ⟨ticket, _, _, _, _, hf, -, hm, -, htt, rfl⟩ := redeemAdmission_ensures h
  obtain ⟨hme, htk⟩ := find?_eq_some.mp hf
  obtain ⟨htr, _, hi, hs⟩ := inv.tickets ticket hme
  rw [htr] at hm
  -- The month of the redemption is the month of the subject.
  obtain ⟨inv₁, -⟩ := inv.ensure ((hw ticket hme htk).trans hi) hs hm
  refine ⟨fun t ht => ?_, inv₁.grants⟩
  obtain ⟨t₀, ht₀, rfl⟩ := (mem_of_update htt).mp ht
  obtain ⟨ht0, hs0⟩ := inv₁.tickets t₀ ht₀
  split
  · exact ⟨ht0, hs0⟩
  · exact ⟨ht0, hs0⟩

theorem PublicInv.step {act : PublicAct}
    (hw : act.WithinMonth cfg db) : PublicInv cfg key (act.run cfg key db) := by
  cases act with
  | issue => exact Tx.exec_inv inv fun _ _ h => inv.issue h
  | redeem =>
    exact Tx.exec_inv inv fun _ _ h => inv.redeem hw h

end

theorem publicInv_of_reachable
    (h : (publicLedger cfg key (fun db act => act.WithinMonth cfg db)).Reachable db) :
    PublicInv cfg key db := by
  refine h.invariant ?_ ?_
  · rintro _ rfl
    exact ⟨fun t ht => absurd ht (not_mem_empty t), fun g hg => absurd hg (not_mem_empty g)⟩
  · rintro _ _ inv ⟨_, hw, rfl⟩
    exact inv.step hw

theorem PublicInv.publicGrants_eq (inv : PublicInv cfg key db) (hhm : Function.Injective key.hmac)
    (hca : ∀ now period, cfg.calendar.monthlyCreditPeriod now = some period →
      (bigint? period.start).isSome) (hg : g ∈ publicGrants cfg key db normalized kind periodStart)
    (hh : h ∈ publicGrants cfg key db normalized kind periodStart) : g = h := by
  have hf : ∀ g ∈ publicGrants cfg key db normalized kind periodStart,
      g ∈ db.grants ∧ g.creditSubject = key.addressSubject normalized periodStart ∧
        g.idempotencyKey = "monthly:" ++ kind.asStr ++ ":" ++ toString periodStart := by
    intro g hg
    obtain ⟨hm, hco⟩ := mem_filter.mp hg
    simp only [decide_eq_true_eq, any_eq_true, Bool.and_eq_true] at hco
    obtain ⟨-, rfl, hst, _, -, hi, hsa⟩ := hco
    obtain ⟨_, ⟨⟨_, hn⟩, _, hs⟩, hp, hk⟩ := (inv.grants g hm).month
    obtain rfl := Option.some.inj (hst.symm.trans hp)
    unfold AdmissionTicket.issuedTo at hi
    split at hi
    · rename_i hc
      rw [decide_eq_true_eq, hsa, hs] at hi
      obtain ⟨rfl, -⟩ := SubjectKey.addressSubject_inj hhm (hca _ _ hn) (hca _ _ hc) hi
      exact ⟨hm, hs, hk⟩
    · cases hi
  obtain ⟨hgm, hgs, hgk⟩ := hf g hg
  obtain ⟨hhme, hhs, hhk⟩ := hf h hh
  exact eq_of_clash hgm hhme ⟨hgs.trans hhs.symm, .inl (hgk.trans hhk.symm)⟩

end Invariant

/-- When every ticket is redeemed in the month of its issue, the monthly grants of a client, a
kind and a month amount to at most one public allowance. -/
theorem public_allowance_once (cfg : PlatformConfig) (key : SubjectKey)
    (hhmac : Function.Injective key.hmac)
    (hcal : ∀ now period, cfg.calendar.monthlyCreditPeriod now = some period →
      (bigint? period.start).isSome)
    (hpositive : ∀ kind, 0 < cfg.publicTier.monthlyBytes kind) (db : Database)
    (h : (publicLedger cfg key (fun db act => act.WithinMonth cfg db)).Reachable db)
    (normalized : String) (kind : CreditKind) (periodStart : ℤ) :
    publicAllowance cfg key db normalized kind periodStart ≤
      cfg.publicTier.monthlyBytes kind := by
  have inv := publicInv_of_reachable h
  have hnodup : (publicGrants cfg key db normalized kind periodStart).Nodup :=
    (List.Nodup.of_map _ db.grants.valid.1).filter _
  have heq : ∀ g ∈ publicGrants cfg key db normalized kind periodStart,
      ∀ h ∈ publicGrants cfg key db normalized kind periodStart, g = h :=
    fun g hg h hh => inv.publicGrants_eq hhmac hcal hg hh
  unfold publicAllowance
  rcases hgrants : publicGrants cfg key db normalized kind periodStart with _ | ⟨g, _ | ⟨h, _⟩⟩
  · exact (hpositive kind).le
  · have hmem : g ∈ publicGrants cfg key db normalized kind periodStart := by simp [hgrants]
    obtain ⟨hgrant, hcond⟩ := mem_filter.mp hmem
    simp only [decide_eq_true_eq] at hcond
    simp [(inv.grants g hgrant).amount, hcond.2.1]
  · rw [hgrants] at hnodup heq
    have hsame : g = h := heq g (by simp) h (by simp)
    simp [hsame] at hnodup

/-- A calendar that knows only January and February 2026. -/
def winter : CreditCalendar where
  monthlyCreditPeriod now :=
    if 1767225600 ≤ now ∧ now < 1769904000 then some ⟨1767225600, 1769904000⟩
    else if 1769904000 ≤ now ∧ now < 1772323200 then some ⟨1769904000, 1772323200⟩
    else none
  start_le := by
    intro _ _ h
    split_ifs at h with hc hc <;> cases h <;> exact hc.1
  lt_stop := by
    intro _ _ h
    split_ifs at h with hc hc <;> cases h <;> exact hc.2
  same_stop := by
    intro _ _ _ _ hp hq hstart
    split_ifs at hp hq <;> cases hp <;> cases hq <;> first | rfl | cases hstart

def winterConfig : PlatformConfig where
  calendar := winter
  sha256Hex token :=
    if token = "notary_admission_a" then
      "d4937da0cadebeb57546457fddf3d9ff17e3e8a2b2a9333fe7fba7ec6642edf9"
    else "099862aa6f5bfbe8d2c9451d6ec31c3c108697364f19d15f77f36dc91f1507e5"
  ticketTtlSecs := 300
  registryGeneration := 7
  publicTier := sampleLimits
  free := sampleLimits
  oneGb := sampleLimits
  tenGb := sampleLimits

/-- An injective stand-in for the keyed hash: it drops the constant first part of its input. -/
def sampleHmac (input : Utf8.Bytes) : Utf8.Bytes :=
  let constant := [SubjectKey.publicSubjectPurpose, "1"].flatMap fun value =>
    LengthPrefix.frame (Utf8.bytes value)
  if input.take 51 = constant then 0 :: input.drop 51 else 1 :: input

theorem sampleHmac_injective : Function.Injective sampleHmac := by
  intro a b h
  unfold sampleHmac at h
  simp only at h
  split_ifs at h with ha hb hb
  · rw [← take_append_drop 51 a, ← take_append_drop 51 b, ha, hb, (List.cons.inj h).2]
  · cases (List.cons.inj h).1
  · cases (List.cons.inj h).1
  · exact (List.cons.inj h).2

def sampleKey : SubjectKey := ⟨sampleHmac, 1, fun _ => "2001:db8::"⟩

def sampleClient : IpAddr := .v4 203 0 113 44

def publicRun (cfg : PlatformConfig) (key : SubjectKey) (acts : List PublicAct) : Database :=
  acts.foldl (fun db act => act.run cfg key db) {}

def februaryIssue : PublicAct :=
  .issue "grant-1" "notary_admission_a" sampleClient ⟨.capture, none, none⟩ 1769904000

def februaryRedeem : PublicAct :=
  .redeem "grant-2" "op-1" ⟨"notary_admission_a", "notary-a", .capture, 7, true⟩ 1769904010

theorem public_allowance_once_sample :
    publicAllowance winterConfig sampleKey
        (publicRun winterConfig sampleKey [februaryIssue, februaryRedeem])
        "v4:203.0.113.44" .capture 1769904000 = 5000 ∧
    publicAllowance winterConfig sampleKey
        (publicRun winterConfig sampleKey [februaryIssue, februaryRedeem])
        "v4:203.0.113.44" .capture 1769904000 ≤ winterConfig.publicTier.monthlyBytes .capture := by
  refine ⟨by decide +kernel, public_allowance_once winterConfig sampleKey sampleHmac_injective
    ?_ (fun kind => by cases kind <;> decide) _ ?_ _ _ _⟩
  · intro _ _ h
    simp only [winterConfig, winter] at h
    split_ifs at h <;> cases h <;> decide
  · have hredeem : februaryRedeem.WithinMonth winterConfig
        (februaryIssue.run winterConfig sampleKey {}) := by
      unfold februaryRedeem PublicAct.WithinMonth
      decide
    have hstart : (publicLedger winterConfig sampleKey
        fun db act => act.WithinMonth winterConfig db).Reachable {} := .init rfl
    exact (hstart.step ⟨februaryIssue, trivial, rfl⟩).step ⟨februaryRedeem, hredeem, rfl⟩

/-- A capture ticket is issued ten seconds before February and redeemed ten seconds into it; the
client then asks for another one. -/
def acrossMonths : List PublicAct := [
  .issue "grant-1" "notary_admission_a" sampleClient ⟨.capture, none, none⟩ 1769903990,
  .redeem "grant-2" "op-1" ⟨"notary_admission_a", "notary-a", .capture, 7, true⟩ 1769904010,
  .issue "grant-3" "notary_admission_b" sampleClient ⟨.capture, none, none⟩ 1769904020]

/-- The client has two public allowances for February. -/
theorem public_allowance_twice :
    publicAllowance winterConfig sampleKey (publicRun winterConfig sampleKey acrossMonths)
        "v4:203.0.113.44" .capture 1769904000 = 10000 ∧
      winterConfig.publicTier.monthlyBytes .capture = 5000 := by
  decide +kernel

end Notary.Platform
