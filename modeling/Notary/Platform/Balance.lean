import Notary.Lib.MachineSum
import Notary.Platform.Allocation

/-! The balance that an account is shown and the balance that admits its work. -/

namespace Notary.Platform
open Relational MachineSum List Tx Table

/-- The balance counts the grant at this time; overage grants count as well. -/
def CreditGrant.balanced (g : CreditGrant) (creditSubject : String) (kind : CreditKind)
    (now : ℤ) : Bool :=
  g.creditSubject = creditSubject ∧ g.creditKind = kind ∧ g.availableAt ≤ now ∧
    g.expiresAt.all fun e => now < e

structure GrantBalanceRow where
  sourceKind : GrantSource
  expiresAt : Option ℤ
  grantedBytes : ℤ
  usedBytes : ℤ
  remainingBytes : ℤ
  deriving DecidableEq

/-- `ORDER BY expires_at ASC NULLS LAST, created_at, id`. -/
def listedBefore (g h : CreditGrant) : Bool :=
  match g.expiresAt, h.expiresAt with
  | some a, some b => if a = b then tail else a < b
  | some _, none => true
  | none, some _ => false
  | none, none => tail
where
  tail : Bool := if g.createdAt ≠ h.createdAt then g.createdAt < h.createdAt else g.id ≤ h.id

def balancedGrants (db : Database) (creditSubject : String) (kind : CreditKind) (now : ℤ) :
    List CreditGrant :=
  (db.grants.rows.filter (·.balanced creditSubject kind now)).insertionSort (listedBefore · ·)

/-- A row of the balance query, whose columns are 64-bit integers. -/
def grantBalanceRow (db : Database) (g : CreditGrant) : Option GrantBalanceRow := do
  let used ← bigint? (allocatedBytes db g.id)
  let remaining ← bigint? (g.amountBytes - used)
  some ⟨g.sourceKind, g.expiresAt, g.amountBytes, used, remaining⟩

structure CreditBalanceSummary where
  totalGrantedBytes : ℤ
  totalUsedBytes : ℤ
  totalRemainingBytes : ℤ
  includedMonthlyRemainingBytes : ℤ
  supplementalRemainingBytes : ℤ
  nextGrantExpiration : Option ℤ
  deriving DecidableEq

def adjustmentTotal (creditSubject : String) : CreditKind → Request ℤ
  | .notarization => do
    let total ← Tx.query fun db => bigint? (creditAdjustmentTotal db creditSubject)
    Tx.require total databaseError
  | .capture => pure 0

/-- Adjustments are taken from supplemental credit first and from the monthly credit next. -/
def splitRemaining (grossIncluded adjustedSupplemental : ℤ) : ℤ × ℤ :=
  if 0 ≤ adjustedSupplemental then (grossIncluded, adjustedSupplemental)
  else (saturatingAdd grossIncluded adjustedSupplemental, 0)

/-- The sum of one column over the rows that a condition selects. -/
def sumColumn (rows : List GrantBalanceRow) (p : GrantBalanceRow → Bool)
    (column : GrantBalanceRow → ℤ) : ℤ :=
  sumFrom 0 ((rows.filter p).map column)

def creditBalanceSummary (creditSubject : String) (kind : CreditKind) (now : ℤ) :
    Request CreditBalanceSummary := do
  let rows ← Tx.query fun db =>
    (balancedGrants db creditSubject kind now).mapM (grantBalanceRow db)
  let balances ← Tx.require rows databaseError
  let grossIncluded :=
    sumColumn balances (·.sourceKind = .includedMonthly) GrantBalanceRow.remainingBytes
  let adjustmentBytes ← adjustmentTotal creditSubject kind
  let adjustedSupplemental := saturatingAdd
    (sumColumn balances (·.sourceKind ≠ .includedMonthly) GrantBalanceRow.remainingBytes)
    adjustmentBytes
  let (included, supplemental) := splitRemaining grossIncluded adjustedSupplemental
  let totalRemaining := saturatingAdd included supplemental
  pure {
    totalGrantedBytes := sumColumn balances (fun _ => true) GrantBalanceRow.grantedBytes
    totalUsedBytes := sumColumn balances (fun _ => true) GrantBalanceRow.usedBytes
    totalRemainingBytes := totalRemaining
    includedMonthlyRemainingBytes := included
    supplementalRemainingBytes := supplemental
    nextGrantExpiration :=
      if 0 < totalRemaining then
        ((balances.filter fun r => 0 < r.remainingBytes).filterMap (·.expiresAt)).min?
      else none }

def remainingBytes (db : Database) (g : CreditGrant) : ℤ := g.amountBytes - allocatedBytes db g.id

def adjustmentsOf (db : Database) (creditSubject : String) : CreditKind → ℤ
  | .notarization => creditAdjustmentTotal db creditSubject
  | .capture => 0

/-- The remaining bytes of the monthly grants, or of all others, in the order of the query. -/
def remainingColumn (db : Database) (creditSubject : String) (kind : CreditKind) (now : ℤ)
    (monthly : Bool) : List ℤ :=
  ((balancedGrants db creditSubject kind now).filter fun g =>
    decide (g.sourceKind = .includedMonthly) = monthly).map (remainingBytes db)

/-- No sum of the enforced balance overflows. -/
structure EnforcedFits (db : Database) (creditSubject : String) (kind : CreditKind) (now : ℤ) :
    Prop where
  balance : Fits (grantBalance db creditSubject kind now)
  adjustments : Fits (adjustmentsOf db creditSubject kind)
  total : Fits (grantBalance db creditSubject kind now + adjustmentsOf db creditSubject kind)

/-- Nor does any sum of the balance that is shown. -/
structure BalanceFits (db : Database) (creditSubject : String) (kind : CreditKind) (now : ℤ) : Prop
    extends EnforcedFits db creditSubject kind now where
  used : ∀ g ∈ balancedGrants db creditSubject kind now, Fits (allocatedBytes db g.id)
  remaining : ∀ g ∈ balancedGrants db creditSubject kind now, Fits (remainingBytes db g)
  included : SumsFit 0 (remainingColumn db creditSubject kind now true)
  supplemental : SumsFit 0 (remainingColumn db creditSubject kind now false)
  adjusted : Fits ((remainingColumn db creditSubject kind now false).sum +
    adjustmentsOf db creditSubject kind)

section

variable {db : Database} {subject : String} {kind : CreditKind} {now : ℤ}

theorem bigint?_of_fits (h : Fits x) : bigint? x = some x := if_pos h

theorem saturatingAdd_of_fits (h : Fits (a + b)) : saturatingAdd a b = a + b := by
  rw [saturatingAdd, min_eq_right h.2, max_eq_right h.1]

theorem balancedGrants_perm (db : Database) (subject : String) (kind : CreditKind) (now : ℤ) :
    (balancedGrants db subject kind now).Perm
      (db.grants.rows.filter (·.balanced subject kind now)) :=
  perm_insertionSort _ _

theorem grantBalance_eq (db : Database) (subject : String) (kind : CreditKind) (now : ℤ) :
    grantBalance db subject kind now =
      ((balancedGrants db subject kind now).map (remainingBytes db)).sum :=
  ((balancedGrants_perm db subject kind now).map _).sum_eq.symm

/-- The two columns make up the balance of the grants. -/
theorem remainingColumn_add (db : Database) (subject : String) (kind : CreditKind) (now : ℤ) :
    (remainingColumn db subject kind now true).sum +
      (remainingColumn db subject kind now false).sum = grantBalance db subject kind now := by
  rw [grantBalance_eq]
  exact sum_filter_bool _ _ _

theorem availableCreditBytes_of_fits (h : EnforcedFits db subject kind now) :
    availableCreditBytes subject kind now db =
      .ok (grantBalance db subject kind now + adjustmentsOf db subject kind, db) := by
  simp only [availableCreditBytes, bind_ok, query_ok, require_ok]
  refine ⟨_, _, ⟨rfl, rfl⟩, _, _, ⟨bigint?_of_fits h.balance, rfl⟩, ?_⟩
  have hs := saturatingAdd_of_fits h.total
  have ha := bigint?_of_fits h.adjustments
  cases kind with
  | capture => exact pure_ok.mpr ⟨hs, rfl⟩
  | notarization =>
    simp only [bind_ok, query_ok, require_ok, pure_ok]
    exact ⟨_, _, ⟨rfl, rfl⟩, _, _, ⟨ha, rfl⟩, hs, rfl⟩

def exactRow (db : Database) (g : CreditGrant) : GrantBalanceRow :=
  ⟨g.sourceKind, g.expiresAt, g.amountBytes, allocatedBytes db g.id, remainingBytes db g⟩

theorem mapM_grantBalanceRow {grants : List CreditGrant}
    (hu : ∀ g ∈ grants, Fits (allocatedBytes db g.id))
    (hr : ∀ g ∈ grants, Fits (remainingBytes db g)) :
    grants.mapM (grantBalanceRow db) = some (grants.map (exactRow db)) := by
  induction grants with
  | nil => rfl
  | cons g _ ih =>
    have hro : grantBalanceRow db g = some (exactRow db g) := by
      have hrm : bigint? (g.amountBytes - allocatedBytes db g.id) = some (remainingBytes db g) :=
        bigint?_of_fits (hr g mem_cons_self)
      simp [grantBalanceRow, bigint?_of_fits (hu g mem_cons_self), hrm, exactRow]
    have hre := ih (fun k hk => hu k (mem_cons_of_mem g hk)) fun k hk => hr k (mem_cons_of_mem g hk)
    simp [mapM_cons, hro, hre]

theorem sumColumn_exactRow
    (hp : ∀ g, p (exactRow db g) = decide (decide (g.sourceKind = .includedMonthly) = monthly))
    (hf : SumsFit 0 (remainingColumn db subject kind now monthly)) :
    sumColumn ((balancedGrants db subject kind now).map (exactRow db)) p
      GrantBalanceRow.remainingBytes = (remainingColumn db subject kind now monthly).sum := by
  have hc : (((balancedGrants db subject kind now).map (exactRow db)).filter p).map
      GrantBalanceRow.remainingBytes = remainingColumn db subject kind now monthly := by
    rw [filter_map, map_map, remainingColumn]
    congr 1
    exact filter_congr fun g _ => hp g
  rw [sumColumn, hc, sumFrom_of_fits hf, zero_add]

theorem adjustmentTotal_of_fits (h : Fits (adjustmentsOf db subject kind)) :
    adjustmentTotal subject kind db = .ok (adjustmentsOf db subject kind, db) := by
  cases kind with
  | capture => rfl
  | notarization =>
    simp only [adjustmentTotal, bind_ok, query_ok, require_ok]
    exact ⟨_, _, ⟨rfl, rfl⟩, bigint?_of_fits h, rfl⟩

theorem splitRemaining_total (h : Fits (included + supplemental)) :
    saturatingAdd (splitRemaining included supplemental).1
      (splitRemaining included supplemental).2 = included + supplemental := by
  unfold splitRemaining
  split
  · exact saturatingAdd_of_fits h
  · rw [saturatingAdd_of_fits h]
    have hz : Fits (included + supplemental + 0) := by rwa [add_zero]
    rw [saturatingAdd_of_fits hz, add_zero]

/-- The balance that is shown is the exact one when nothing overflows. -/
theorem creditBalanceSummary_of_fits (h : BalanceFits db subject kind now) :
    ∃ summary, creditBalanceSummary subject kind now db = .ok (summary, db) ∧
      summary.totalRemainingBytes =
        grantBalance db subject kind now + adjustmentsOf db subject kind := by
  have hr := mapM_grantBalanceRow h.used h.remaining
  have hi := sumColumn_exactRow (p := fun r => r.sourceKind = .includedMonthly)
    (fun g => by cases hk : g.sourceKind <;> simp [exactRow, hk]) h.included
  have hs := sumColumn_exactRow (p := fun r => r.sourceKind ≠ .includedMonthly)
    (fun g => by cases hk : g.sourceKind <;> simp [exactRow, hk]) h.supplemental
  have ht : Fits ((remainingColumn db subject kind now true).sum +
      ((remainingColumn db subject kind now false).sum + adjustmentsOf db subject kind)) := by
    rw [← add_assoc, remainingColumn_add]
    exact h.total
  simp only [creditBalanceSummary, bind_ok, query_ok, require_ok, pure_ok]
  refine ⟨_, ⟨_, _, ⟨rfl, rfl⟩, _, _, ⟨hr, rfl⟩, _, _,
    adjustmentTotal_of_fits h.adjustments, rfl, rfl⟩, ?_⟩
  rw [hi, hs, saturatingAdd_of_fits h.adjusted]
  exact (splitRemaining_total ht).trans (by rw [← add_assoc, remainingColumn_add])

end

/-- Allocations belong to grants, as their foreign key says. -/
def AllocationsOwned (db : Database) : Prop :=
  ∀ a ∈ db.allocations, ∃ g ∈ db.grants, g.id = a.grantId

/-- Work at this time can use the grant. -/
def CreditGrant.live (g : CreditGrant) (now : ℤ) : Prop :=
  g.availableAt ≤ now ∧ g.expiresAt.all fun e => now < e
  deriving Decidable

section

variable {db db' : Database} {subject : String} {kind : CreditKind}

theorem allocatedBytes_append (h : db'.allocations.rows = db.allocations.rows ++ new)
    (grantId : String) :
    allocatedBytes db' grantId = allocatedBytes db grantId +
      ((new.filter fun a => a.grantId = grantId).map (·.amountBytes)).sum := by
  simp [allocatedBytes, h]

theorem allocatedBytes_fresh (ho : AllocationsOwned db) (ht : db.grants.insert g = some t) :
    allocatedBytes db g.id = 0 := by
  have hn : (db.allocations.rows.filter fun a => a.grantId = g.id) = [] := by
    rw [filter_eq_nil_iff]
    intro a ha hi
    obtain ⟨_, hk, hki⟩ := ho a ha
    exact fresh_of_insert ht hk (hki.trans (of_decide_eq_true hi))
  rw [allocatedBytes, hn]
  rfl

/-- The remaining bytes of the balanced grants of one state, by the allocations of another. -/
def balanceBy (db allocated : Database) (subject : String) (kind : CreditKind) (now : ℤ) : ℤ :=
  ((db.grants.rows.filter (·.balanced subject kind now)).map (remainingBytes allocated)).sum

theorem balanceBy_overage (ho : AllocationsOwned db) (hk : g.sourceKind = .operationOverage)
    (ht : db.grants.insert g = some db'.grants) (now : ℤ) :
    balanceBy db' db subject kind now = grantBalance db subject kind now := by
  have ha : g.amountBytes = 0 := by
    have hc := (Table.check ((mem_of_insert ht).mpr (.inr rfl))).2.1
    rwa [if_pos hk] at hc
  have hz : remainingBytes db g = 0 := by
    rw [remainingBytes, ha, allocatedBytes_fresh ho ht, sub_zero]
  rw [balanceBy, rows_of_insert ht, filter_append, map_append, sum_append]
  have hl : (([g].filter (·.balanced subject kind now)).map (remainingBytes db)).sum = 0 := by
    cases hb : g.balanced subject kind now <;> simp [hb, hz]
  rw [hl, add_zero]
  rfl

/-- The settlement allocated bytes of the grant. -/
def DrewOn (db db' : Database) (g : CreditGrant) : Prop :=
  ∃ a ∈ db'.allocations, a ∉ db.allocations ∧ a.grantId = g.id

variable {ids : SettlementIds} {operationId : String} {accountId : Option String}
  {mode : AdmissionMode} {bytes admittedAt now : ℤ}

/-- A settlement lowers the balance of the grants by what it books while the grants that it
drew on are live. -/
theorem grantBalance_of_debit (ho : AllocationsOwned db) (hp : 0 < bytes)
    (h : recordOperationDebit ids operationId subject accountId mode bytes admittedAt db =
      .ok ((), db')) (hli : ∀ g ∈ db'.grants, DrewOn db db' g → g.live now) :
    grantBalance db' subject (.forMode mode) now =
      grantBalance db subject (.forMode mode) now - bytes := by
  have hd := recordOperationDebit_ok hp h
  obtain ⟨new, hr, -, hsu⟩ := hd.allocations
  have hbe : balanceBy db' db subject (.forMode mode) now =
      grantBalance db subject (.forMode mode) now := by
    rcases hd.grants with hsa | ⟨_, hki, ht, -⟩
    · rw [balanceBy, hsa]
      rfl
    · exact balanceBy_overage ho hki ht now
  -- Every new allocation belongs to a grant that the balance counts.
  have hc : ∀ a ∈ new, a.grantId ∈
      (db'.grants.rows.filter (·.balanced subject (.forMode mode) now)).map (·.id) := by
    intro a ha
    have hm : a ∈ db'.allocations := by
      rw [mem_def, hr]
      exact mem_append_right _ ha
    have hn : a ∉ db.allocations := by
      have hk := db'.allocations.valid.1
      rw [hr, map_append] at hk
      intro hol
      exact (nodup_append.mp hk).2.2 _ (mem_map_of_mem hol) _ (mem_map_of_mem ha) rfl
    obtain ⟨g, hg, hi, hs, hki⟩ := recordOperationDebit_grants hp h hm hn
    have hl := hli g hg ⟨a, hm, hn, hi.symm⟩
    refine mem_map.mpr ⟨g, mem_filter.mpr ⟨hg, ?_⟩, hi⟩
    exact decide_eq_true ⟨hs, hki, hl.1, hl.2⟩
  have hk : ((db'.grants.rows.filter (·.balanced subject (.forMode mode) now)).map (·.id)).Nodup :=
    (filter_sublist.map _).nodup db'.grants.valid.1
  have hb := sum_groups (fun a : CreditAllocation => a.amountBytes) hk hc
  have hsp (g : CreditGrant) : remainingBytes db g = remainingBytes db' g +
      ((new.filter fun a => a.grantId = g.id).map (·.amountBytes)).sum := by
    rw [remainingBytes, remainingBytes, allocatedBytes_append hr]
    omega
  have haf : balanceBy db' db subject (.forMode mode) now =
      grantBalance db' subject (.forMode mode) now + bytes := by
    rw [balanceBy, funext hsp, sum_map_add, hb, hsu]
    rfl
  omega

theorem adjustmentsOf_of_debit (hp : 0 < bytes)
    (h : recordOperationDebit ids operationId subject accountId mode bytes admittedAt db =
      .ok ((), db')) : adjustmentsOf db' subject kind = adjustmentsOf db subject kind := by
  have hf : db'.adjustments = db.adjustments := by
    have hd := (recordOperationDebit_ok hp h).frame
    dsimp only at hd
    rw [hd]
  cases kind with
  | capture => rfl
  | notarization => rw [adjustmentsOf, creditAdjustmentTotal, hf]; rfl

end

/-- The remaining bytes that an account is shown are those that admit its work, and a settlement
lowers them by the bytes it books while the grants that it drew on are live. -/
theorem displayed_balance_is_enforced :
    (∀ db subject kind now, BalanceFits db subject kind now →
      ∃ summary, creditBalanceSummary subject kind now db = .ok (summary, db) ∧
        availableCreditBytes subject kind now db = .ok (summary.totalRemainingBytes, db)) ∧
    ∀ ids operationId subject accountId mode bytes admittedAt db db' now,
      AllocationsOwned db → 0 < bytes →
      recordOperationDebit ids operationId subject accountId mode bytes admittedAt db =
        .ok ((), db') →
      (∀ g ∈ db'.grants, DrewOn db db' g → g.live now) →
      EnforcedFits db subject (.forMode mode) now →
      EnforcedFits db' subject (.forMode mode) now →
      ∃ available, availableCreditBytes subject (.forMode mode) now db = .ok (available, db) ∧
        availableCreditBytes subject (.forMode mode) now db' = .ok (available - bytes, db') := by
  constructor
  · intro _ _ _ _ hfits
    obtain ⟨summary, hsummary, htotal⟩ := creditBalanceSummary_of_fits hfits
    refine ⟨summary, hsummary, ?_⟩
    rw [htotal]
    exact availableCreditBytes_of_fits hfits.toEnforcedFits
  · intro _ _ _ _ _ _ _ _ _ _ howned hpos h hlive
      hfits hfits'
    refine ⟨_, availableCreditBytes_of_fits hfits, ?_⟩
    rw [availableCreditBytes_of_fits hfits', grantBalance_of_debit howned hpos h hlive,
      adjustmentsOf_of_debit hpos h, sub_add_eq_add_sub]

def balanceGrant (id : String) (amount availableAt : ℤ) (expiresAt : Option ℤ) : CreditGrant :=
  ⟨id, "account:a", some "a", .notarization, amount, .promotion, id, id, none, none, availableAt,
    availableAt, expiresAt, none⟩

/-- An expired grant, a grant with too many allocations, a grant of the future, a refund that
exceeds what is left, and an operation. -/
def balanceLedger : Database where
  grants := ⟨[balanceGrant "expired" 70 1 (some 5), balanceGrant "spent" 100 2 (some 90),
    balanceGrant "open" 60 3 none, balanceGrant "later" 500 80 none], by decide⟩
  allocations := ⟨[⟨"debit-1", "spent", 130, 0⟩], by decide⟩
  adjustments := ⟨[⟨"adj", "account:a", "a", "p", -40, .purchaseRefund, "r", "r", "Refund", 7⟩],
    by decide⟩
  operations := ⟨[⟨"op", "hash", "notary", some "a", "account:a", .free, .notarization, none,
    some 50, 1000, 9, 99, some 10, none, none, none⟩], by decide⟩

/-- The ledger after the operation settles more bytes than are left. -/
def settledLedger : Database :=
  match recordOperationDebit ⟨"debit-2", "overage"⟩ "op" "account:a" (some "a") .notarization 75 9
    balanceLedger with
  | .ok (_, db) => db
  | .error _ => balanceLedger

theorem displayed_balance_sample :
    (∃ summary, creditBalanceSummary "account:a" .notarization 10 balanceLedger =
      .ok (summary, balanceLedger) ∧
      availableCreditBytes "account:a" .notarization 10 balanceLedger =
        .ok (summary.totalRemainingBytes, balanceLedger)) ∧
    grantBalance balanceLedger "account:a" .notarization 10 = 30 ∧
    ∃ available, availableCreditBytes "account:a" .notarization 10 balanceLedger =
        .ok (available, balanceLedger) ∧
      availableCreditBytes "account:a" .notarization 10 settledLedger =
        .ok (available - 75, settledLedger) := by
  have hsettled : recordOperationDebit ⟨"debit-2", "overage"⟩ "op" "account:a" (some "a")
      .notarization 75 9 balanceLedger = .ok ((), settledLedger) := by
    have hok : (recordOperationDebit ⟨"debit-2", "overage"⟩ "op" "account:a" (some "a")
      .notarization 75 9 balanceLedger).isOk = true := by decide
    unfold settledLedger
    cases hrun : recordOperationDebit ⟨"debit-2", "overage"⟩ "op" "account:a" (some "a")
        .notarization 75 9 balanceLedger with
    | ok r => rfl
    | error e =>
      rw [hrun] at hok
      cases hok
  have hfits : BalanceFits balanceLedger "account:a" .notarization 10 :=
    ⟨⟨by decide, by decide, by decide⟩, by decide,
      by decide, by decide, by decide, by decide⟩
  have hfits' : EnforcedFits settledLedger "account:a" .notarization 10 :=
    ⟨by decide, by decide, by decide⟩
  have howned : ∀ a ∈ balanceLedger.allocations.rows,
      ∃ g ∈ balanceLedger.grants.rows, g.id = a.grantId := by decide
  have hdrawn : ∀ a ∈ settledLedger.allocations.rows, a ∉ balanceLedger.allocations.rows →
      ∀ g ∈ settledLedger.grants.rows, a.grantId = g.id → g.live 10 := by decide
  refine ⟨displayed_balance_is_enforced.1 _ _ _ _ hfits, by decide,
    displayed_balance_is_enforced.2 _ _ _ _ .notarization 75 9 _ _ 10 howned (by decide) hsettled
      ?_ hfits.toEnforcedFits hfits'⟩
  rintro g hg ⟨a, ha, hnew, hid⟩
  exact hdrawn a ha hnew g hg hid

end Notary.Platform
