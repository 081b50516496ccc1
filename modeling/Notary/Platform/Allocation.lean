import Notary.Lib.Waterfall
import Notary.Platform.Credits

/-! Balances, and the allocation of settled usage to the grants that fund it. -/

namespace Notary.Platform
open Relational List Option Function Tx Waterfall TableRef Table

def allocatedBytes (db : Database) (grantId : String) : ℤ :=
  ((db.allocations.rows.filter fun a => a.grantId = grantId).map (·.amountBytes)).sum

/-- The remaining bytes of every live grant, overage grants included. -/
def grantBalance (db : Database) (creditSubject : String) (kind : CreditKind) (now : ℤ) : ℤ :=
  ((db.grants.rows.filter fun g => g.creditSubject = creditSubject ∧ g.creditKind = kind ∧
    g.availableAt ≤ now ∧ g.expiresAt.all fun e => now < e).map fun g =>
      g.amountBytes - allocatedBytes db g.id).sum

def creditAdjustmentTotal (db : Database) (creditSubject : String) : ℤ :=
  ((db.adjustments.rows.filter fun a => a.creditSubject = creditSubject).map
    (·.amountBytes)).sum

def availableCreditBytes (creditSubject : String) (kind : CreditKind) (now : ℤ) :
    Request ℤ := do
  let balance ← Tx.query fun db => bigint? (grantBalance db creditSubject kind now)
  let balance ← Tx.require balance databaseError
  match kind with
  | .notarization =>
    let total ← Tx.query fun db => bigint? (creditAdjustmentTotal db creditSubject)
    let total ← Tx.require total databaseError
    pure (saturatingAdd balance total)
  | .capture => pure (saturatingAdd balance 0)

def creditExhausted : CreditKind → ApiError
  | .capture => .coded 402 "capture_credits_exhausted"
      "The monthly hosted capture allowance is exhausted"
  | .notarization => .coded 402 "notarization_credits_exhausted"
      "There are not enough hosted notarization credits"

def preflight (creditSubject : String) (kind : CreditKind) (allowance now : ℤ) :
    Request Unit := do
  let available ← availableCreditBytes creditSubject kind now
  Tx.ensure (¬ available < allowance) (creditExhausted kind)

def boundedCaptureAllowance (sessionMax available : ℤ) : Request ℤ := do
  let allowance := min sessionMax available
  Tx.ensure (¬ allowance ≤ 0) (creditExhausted .capture)
  pure allowance

theorem availableCreditBytes_readOnly (subject : String) (kind : CreditKind) (now : ℤ) :
    (availableCreditBytes subject kind now).ReadOnly := by
  refine readOnly_bind (readOnly_query _) fun _ =>
    readOnly_bind (readOnly_require _ _) fun _ => ?_
  cases kind with
  | capture => exact readOnly_pure _
  | notarization =>
    exact readOnly_bind (readOnly_query _) fun _ =>
      readOnly_bind (readOnly_require _ _) fun _ => readOnly_pure _

theorem preflight_readOnly (subject : String) (kind : CreditKind) (allowance now : ℤ) :
    (preflight subject kind allowance now).ReadOnly :=
  readOnly_bind (availableCreditBytes_readOnly _ _ _) fun _ => readOnly_ensure _ _

theorem boundedCaptureAllowance_readOnly (sessionMax available : ℤ) :
    (boundedCaptureAllowance sessionMax available).ReadOnly :=
  readOnly_bind (readOnly_ensure _ _) fun _ => readOnly_pure _

/-- One candidate of a settlement: its remaining bytes may be negative. -/
structure SettlementGrant where
  id : String
  remainingBytes : ℤ
  expiresAt : Option ℤ
  deriving DecidableEq

/-- `ORDER BY expires_at ASC NULLS LAST, available_at, created_at, id`. -/
def settlesBefore (g h : CreditGrant) : Bool :=
  match g.expiresAt, h.expiresAt with
  | some a, some b => if a = b then tail else a < b
  | some _, none => true
  | none, some _ => false
  | none, none => tail
where
  tail : Bool :=
    if g.availableAt ≠ h.availableAt then g.availableAt < h.availableAt
    else if g.createdAt ≠ h.createdAt then g.createdAt < h.createdAt
    else g.id ≤ h.id

def settlementGrants (creditSubject : String) (kind : CreditKind) (admittedAt : ℤ) :
    Request (List SettlementGrant) := do
  let rows ← Tx.query fun db =>
    ((db.grants.rows.filter (·.funds creditSubject kind admittedAt)).insertionSort
      (settlesBefore · ·)).mapM fun g =>
        (bigint? (allocatedBytes db g.id)).map fun used =>
          ({ id := g.id, remainingBytes := g.amountBytes - used, expiresAt := g.expiresAt } :
            SettlementGrant)
  Tx.require rows databaseError

theorem settlementGrants_readOnly (subject : String) (kind : CreditKind) (admittedAt : ℤ) :
    (settlementGrants subject kind admittedAt).ReadOnly :=
  readOnly_bind (readOnly_query _) fun _ => readOnly_require _ _

variable {subject debitId operationId : String} {admittedAt bytes : ℤ} {db : Database} {n : ℕ}
  {grants : List SettlementGrant} {r : Unit × Database} {accountId : Option String}
  {a : CreditAllocation}

variable {kind : CreditKind} {db' : Database}

/-- The candidates are the grants that fund the usage. -/
theorem settlementGrants_ids (h : settlementGrants subject kind admittedAt db = .ok (grants, db')) :
    (grants.map (·.id)).Perm
      ((db.grants.rows.filter (·.funds subject kind admittedAt)).map (·.id)) := by
  simp only [settlementGrants, bind_ok, query_ok, require_ok] at h
  obtain ⟨_, _, ⟨rfl, rfl⟩, h, -⟩ := h
  have hs {rows : List CreditGrant} {grants : List SettlementGrant}
      (h : rows.mapM (fun g => (bigint? (allocatedBytes db g.id)).map fun used =>
        ({ id := g.id, remainingBytes := g.amountBytes - used, expiresAt := g.expiresAt } :
          SettlementGrant)) = some grants) : grants.map (·.id) = rows.map (·.id) := by
    induction rows generalizing grants with
    | nil =>
      cases h
      rfl
    | cons _ _ ih =>
      simp only [mapM_cons, bind_eq_bind, bind_eq_some_iff, Option.pure_def,
        map_eq_some_iff, Option.some.injEq] at h
      obtain ⟨_, ⟨_, -, rfl⟩, _, hr, rfl⟩ := h
      rw [map_cons, map_cons, ih hr]
  rw [hs h]
  exact (perm_insertionSort _ _).map _

theorem settlementGrants_mem
    (h : settlementGrants subject kind admittedAt db = .ok (grants, db')) {id : String}
    (hi : id ∈ grants.map (·.id)) :
    ∃ g ∈ db.grants, g.id = id ∧ g.funds subject kind admittedAt := by
  obtain ⟨g, hg, hi⟩ := List.mem_map.mp ((settlementGrants_ids h).mem_iff.mp hi)
  obtain ⟨hg, hf⟩ := mem_filter.mp hg
  exact ⟨g, hg, hi, hf⟩

theorem settlementGrants_ne_nil (hg : ∃ g ∈ db.grants, g.funds subject kind admittedAt)
    (h : settlementGrants subject kind admittedAt db = .ok (grants, db')) : grants ≠ [] := by
  rintro rfl
  obtain ⟨g, hg, hf⟩ := hg
  have hm : g ∈ db.grants.rows.filter (·.funds subject kind admittedAt) := mem_filter.mpr ⟨hg, hf⟩
  simp [map_eq_nil_iff.mp (settlementGrants_ids h).nil_eq.symm] at hm

/-- Allocations reference an existing debit and an existing grant. -/
def insertAllocation (a : CreditAllocation) : Request Unit := do
  let known ← Tx.query fun db =>
    (db.debits.find? a.debitId).isSome && (db.grants.find? a.grantId).isSome
  Tx.ensure known databaseError
  TableRef.allocations.insert a

/-- The order column is a 32-bit integer. -/
def allocationOrder (allocatedGrants : ℕ) : Request ℤ := do
  Tx.ensure (allocatedGrants ≤ 2147483647) (.internal "too many credit grant allocations")
  pure allocatedGrants

/-- Take from each candidate in turn what it still has, and return what is left over
together with the number of allocations. -/
def allocateGrants (debitId : String) :
    List SettlementGrant → ℤ → ℕ → Request (ℤ × ℕ)
  | [], remaining, n => pure (remaining, n)
  | g :: rest, remaining, n =>
    if remaining = 0 then pure (remaining, n)
    else
      let allocated := min remaining (max g.remainingBytes 0)
      if allocated = 0 then allocateGrants debitId rest remaining n
      else do
        let order ← allocationOrder n
        insertAllocation ⟨debitId, g.id, allocated, order⟩
        allocateGrants debitId rest (remaining - allocated) (n + 1)

def sources (grants : List SettlementGrant) : List (String × ℤ) :=
  grants.map fun g => (g.id, g.remainingBytes)

def draws (new : List CreditAllocation) : List (String × ℤ) :=
  new.map fun a => (a.grantId, a.amountBytes)

theorem sources_fst (grants : List SettlementGrant) :
    (sources grants).map Prod.fst = grants.map (·.id) := by
  simp [sources, comp_def]

/-- Allocations of one debit, numbered from `n` on. -/
def Numbered (debitId : String) (n : ℕ) (new : List CreditAllocation) : Prop :=
  (∀ a ∈ new, a.debitId = debitId) ∧
    new.map (·.allocationOrder) = (List.range' n new.length).map Nat.cast

variable {new : List CreditAllocation}

theorem Numbered.cons (hd : a.debitId = debitId)
    (ho : a.allocationOrder = n) (h : Numbered debitId (n + 1) new) :
    Numbered debitId n (a :: new) := by
  refine ⟨forall_mem_cons.mpr ⟨hd, h.1⟩, ?_⟩
  rw [map_cons, length_cons, range'_succ, map_cons, ho, h.2]

theorem Numbered.concat (h : Numbered debitId n new)
    (hd : a.debitId = debitId) (ho : a.allocationOrder = ((n + new.length : ℕ) : ℤ)) :
    Numbered debitId n (new ++ [a]) := by
  constructor
  · intro b hb
    obtain hb | hb := mem_append.mp hb
    · exact h.1 b hb
    · rwa [mem_singleton.mp hb]
  · rw [map_append, h.2, length_append, length_singleton, range'_concat, map_append]
    simp [ho]

theorem allocationOrder_ok {r : ℤ × Database} (h : allocationOrder n db = .ok r) :
    r = ((n : ℤ), db) := by
  simp only [allocationOrder, bind_ok, ensure_ok] at h
  obtain ⟨_, _, ⟨-, rfl⟩, h⟩ := h
  exact (Except.ok.inj h).symm

theorem insertAllocation_rows (h : insertAllocation a db = .ok r) :
    (db.grants.find? a.grantId).isSome ∧
      ∃ t, db.allocations.insert a = some t ∧ r.2 = { db with allocations := t } := by
  simp only [insertAllocation, bind_ok, query_ok, ensure_ok, insert_ok] at h
  obtain ⟨_, _, ⟨rfl, rfl⟩, _, _, ⟨hk, rfl⟩, t, ht, hr⟩ := h
  simp only [Bool.and_eq_true] at hk
  exact ⟨hk.2, t, ht, hr.symm⟩

/-- The loop allocates the draws of the usage from its candidates. -/
theorem allocateGrants_draws {remaining : ℤ} {r : (ℤ × ℕ) × Database} (hp : 0 ≤ remaining)
    (h : allocateGrants debitId grants remaining n db = .ok r) :
    ∃ new t, r.2 = { db with allocations := t } ∧ t.rows = db.allocations.rows ++ new ∧
      Numbered debitId n new ∧ draws new = Waterfall.draw (sources grants) remaining ∧
      r.1 = (Waterfall.leftover (sources grants) remaining, n + new.length) := by
  have hno (n : ℕ) : Numbered debitId n [] := ⟨nofun, rfl⟩
  induction grants generalizing remaining n db with
  | nil =>
    obtain rfl := Except.ok.inj h
    refine ⟨[], db.allocations, rfl, by simp, hno n, rfl, ?_⟩
    simp [sources, Waterfall.leftover, hp]
  | cons g rest ih =>
    have hs : sources (g :: rest) = (g.id, g.remainingBytes) :: sources rest := rfl
    simp only [allocateGrants] at h
    split_ifs at h with hz hsk
    · obtain rfl := Except.ok.inj h
      subst hz
      refine ⟨[], db.allocations, rfl, by simp, hno n, ?_, ?_⟩
      · rw [draw_zero]
        rfl
      · rw [leftover_zero]
        rfl
    · obtain ⟨new, t, hr, hro, hn, hd, hl⟩ := ih hp h
      refine ⟨new, t, hr, hro, hn, ?_, ?_⟩
      · rw [hs, Waterfall.draw, if_pos hsk, hd]
      · rw [hs, leftover_cons hp, hsk, Int.sub_zero, hl]
    · simp only [bind_ok] at h
      obtain ⟨_, _, ho, _, _, hi, h⟩ := h
      cases allocationOrder_ok ho
      obtain ⟨-, _, ht1, rfl⟩ := insertAllocation_rows hi
      obtain ⟨new, t, hr, hro, hn, hd, hl⟩ := ih (by omega) h
      refine ⟨⟨debitId, g.id, min remaining (max g.remainingBytes 0), n⟩ :: new, t, hr, ?_,
        hn.cons rfl rfl, ?_, ?_⟩
      · rw [hro]
        simp [rows_of_insert ht1]
      · rw [hs, Waterfall.draw, if_neg hsk, ← hd]
        rfl
      · rw [hs, leftover_cons hp, hl, length_cons]
        congr 1
        omega

/-- The grant is in the way of the one that books the overage of an operation. -/
def CreditGrant.BooksOverage (g : CreditGrant) (operationId : String) : Prop :=
  g.idempotencyKey = "operation-overage:" ++ operationId ∨
    g.sourceKind = .operationOverage ∧ g.sourceReference = "operation-overage:" ++ operationId

/-- The bytes that no candidate covers are charged to a grant of their own, which the
operation's balance shows as negative. -/
def overageGrant (id operationId creditSubject : String) (accountId : Option String)
    (kind : CreditKind) (admittedAt : ℤ) (expiresAt : Option ℤ) : CreditGrant where
  id := id
  creditSubject := creditSubject
  accountId := accountId
  creditKind := kind
  amountBytes := 0
  sourceKind := .operationOverage
  sourceReference := "operation-overage:" ++ operationId
  idempotencyKey := "operation-overage:" ++ operationId
  periodStart := none
  periodEnd := none
  createdAt := admittedAt
  availableAt := admittedAt
  expiresAt := expiresAt
  displayLabel := some "Hosted usage overage"

def allocateSettledUsage (overageGrantId debitId : String) (authenticatedBytes : ℤ)
    (grants : List SettlementGrant) (operationId creditSubject : String)
    (accountId : Option String) (kind : CreditKind) (admittedAt : ℤ) : Request Unit := do
  let (remaining, n) ← allocateGrants debitId grants authenticatedBytes 0
  if remaining = 0 then pure ()
  else do
    let last ← Tx.require grants.getLast? (.internal "usage allocation has no grant")
    TableRef.grants.insert (overageGrant overageGrantId operationId creditSubject accountId kind
      admittedAt last.expiresAt)
    let order ← allocationOrder n
    insertAllocation ⟨debitId, overageGrantId, remaining, order⟩

def noCreditGrant : ApiError := .internal "admitted operation has no credit grant"

def operationDebit (debitId operationId creditSubject : String) (accountId : Option String)
    (mode : AdmissionMode) (authenticatedBytes admittedAt : ℤ) : CreditDebit where
  id := debitId
  creditSubject := creditSubject
  accountId := accountId
  creditKind := .forMode mode
  allowanceBytes := authenticatedBytes
  createdAt := admittedAt
  operationId := some operationId

structure SettlementIds where
  debitId : String
  overageGrantId : String

def recordOperationDebit (ids : SettlementIds) (operationId creditSubject : String)
    (accountId : Option String) (mode : AdmissionMode) (authenticatedBytes admittedAt : ℤ) :
    Request Unit := do
  let grants ← settlementGrants creditSubject (.forMode mode) admittedAt
  Tx.ensure (grants ≠ []) noCreditGrant
  let operation ← TableRef.operations.selectByKey operationId
  Tx.ensure operation.isSome databaseError
  TableRef.debits.insert (operationDebit ids.debitId operationId creditSubject accountId mode
    authenticatedBytes admittedAt)
  allocateSettledUsage ids.overageGrantId ids.debitId authenticatedBytes grants operationId
    creditSubject accountId (.forMode mode) admittedAt

/-- A settlement touches only the debits, the allocations and the grants: it appends one
debit, allocations of that debit that add up to it, and at most one overage grant. -/
structure DebitRecorded (db db' : Database) (debit : CreditDebit) : Prop where
  frame : db' = { db with
    debits := db'.debits, allocations := db'.allocations, grants := db'.grants }
  debits : db.debits.insert debit = some db'.debits
  allocations : ∃ new, db'.allocations.rows = db.allocations.rows ++ new ∧
    (∀ a ∈ new, a.debitId = debit.id) ∧
    (new.map (·.amountBytes)).sum = debit.allowanceBytes
  grants : db'.grants = db.grants ∨
    ∃ g, g.sourceKind = .operationOverage ∧ db.grants.insert g = some db'.grants ∧
      ∀ i, g.BooksOverage i → debit.operationId = some i

theorem DebitRecorded.operations_eq (h : DebitRecorded db db' debit) :
    db'.operations = db.operations := by
  rw [h.frame]

/-- Everything that a settlement allocates: the draws, and the overage if there is one. -/
theorem allocateSettledUsage_draws (hp : 0 ≤ bytes)
    (h : allocateSettledUsage overageGrantId debitId bytes grants operationId subject accountId
      kind admittedAt db = .ok r) : ∃ new ta tg, r.2 = { db with allocations := ta, grants := tg } ∧
      ta.rows = db.allocations.rows ++ new ∧ Numbered debitId 0 new ∧
      draws new = Waterfall.draw (sources grants) bytes ++
        (if Waterfall.leftover (sources grants) bytes = 0 then []
        else [(overageGrantId, Waterfall.leftover (sources grants) bytes)]) ∧
      if Waterfall.leftover (sources grants) bytes = 0 then tg = db.grants
      else ∃ expiresAt, db.grants.insert (overageGrant overageGrantId operationId subject accountId
        kind admittedAt expiresAt) = some tg := by
  simp only [allocateSettledUsage, bind_ok] at h
  obtain ⟨⟨_, _⟩, _, hlo, h⟩ := h
  obtain ⟨new, t, rfl, hro, hn, hd, hl⟩ := allocateGrants_draws hp hlo
  obtain ⟨rfl, rfl⟩ := Prod.mk.inj hl
  dsimp only at h
  split_ifs at h ⊢ with hz
  · obtain rfl := Except.ok.inj h
    exact ⟨new, t, _, rfl, hro, hn, by rw [append_nil, hd], rfl⟩
  · simp only [bind_ok, require_ok, insert_ok] at h
    obtain ⟨last, _, ⟨-, rfl⟩, _, _, ⟨tg, htg, rfl⟩, _, _, ho, hi⟩ := h
    cases allocationOrder_ok ho
    obtain ⟨-, ta, ht, hr⟩ := insertAllocation_rows hi
    refine ⟨new ++ [⟨debitId, overageGrantId, Waterfall.leftover (sources grants) bytes,
      ((0 + new.length : ℕ) : ℤ)⟩], ta, tg, hr, ?_, hn.concat rfl rfl, ?_, last.expiresAt, htg⟩
    · simp [rows_of_insert ht, hro]
    · rw [← hd]
      simp [draws]

theorem draws_fst (new : List CreditAllocation) :
    (draws new).map Prod.fst = new.map (·.grantId) := by
  simp [draws, comp_def]

theorem draws_snd (new : List CreditAllocation) :
    (draws new).map Prod.snd = new.map (·.amountBytes) := by
  simp [draws, comp_def]

theorem sum_of_draws (hp : 0 ≤ bytes) (hd : draws new = Waterfall.draw (sources grants) bytes ++
      if Waterfall.leftover (sources grants) bytes = 0 then []
      else [(overageGrantId, Waterfall.leftover (sources grants) bytes)]) :
    (new.map (·.amountBytes)).sum = bytes := by
  rw [← draws_snd, hd, map_append, sum_append]
  have hsm := draw_sum hp (sources grants)
  split_ifs with hz
  · simpa [hz] using hsm
  · simpa using hsm

section Debit

variable {ids : SettlementIds} {mode : AdmissionMode}

/-- A settlement allocates its debit to the candidates it has read. -/
theorem recordOperationDebit_inv
    (h : recordOperationDebit ids operationId subject accountId mode bytes admittedAt db = .ok r) :
    ∃ grants td, settlementGrants subject (.forMode mode) admittedAt db = .ok (grants, db) ∧
      db.debits.insert (operationDebit ids.debitId operationId subject accountId mode bytes
        admittedAt) = some td ∧
      allocateSettledUsage ids.overageGrantId ids.debitId bytes grants operationId subject accountId
        (.forMode mode) admittedAt { db with debits := td } = .ok r := by
  simp only [recordOperationDebit, bind_ok, ensure_ok, selectByKey_ok, insert_ok] at h
  obtain ⟨grants, _, hg, _, _, ⟨-, -, rfl⟩, _, _, ⟨rfl, rfl⟩, _, _, ⟨-, -, rfl⟩, _, _,
    ⟨td, ht, rfl⟩, ha⟩ := h
  obtain rfl := settlementGrants_readOnly _ _ _ hg
  exact ⟨grants, td, hg, ht, ha⟩

theorem recordOperationDebit_ok (hp : 0 < bytes)
    (h : recordOperationDebit ids operationId subject accountId mode bytes admittedAt db = .ok r) :
    DebitRecorded db r.2
      (operationDebit ids.debitId operationId subject accountId mode bytes admittedAt) := by
  obtain ⟨_, _, -, ht, ha⟩ := recordOperationDebit_inv h
  obtain ⟨new, _, _, hr, hro, hn, hd, hg⟩ := allocateSettledUsage_draws hp.le ha
  obtain ⟨_, _⟩ := r
  dsimp only at hr
  subst hr
  refine ⟨rfl, ht, ⟨new, hro, hn.1, sum_of_draws hp.le hd⟩, ?_⟩
  split_ifs at hg
  · exact .inl hg
  · obtain ⟨_, hg⟩ := hg
    refine .inr ⟨_, rfl, hg, fun i hi => ?_⟩
    have he : "operation-overage:" ++ operationId = "operation-overage:" ++ i :=
      hi.elim id And.right
    exact congrArg some (String.append_right_inj _ |>.mp he)

/-- What a settlement books is booked against grants of its subject and kind. -/
theorem recordOperationDebit_grants (hp : 0 < bytes)
    (h : recordOperationDebit ids operationId subject accountId mode bytes admittedAt db = .ok r)
    {a : CreditAllocation} (ha : a ∈ r.2.allocations) (hn : a ∉ db.allocations) :
    ∃ g ∈ r.2.grants, g.id = a.grantId ∧ g.creditSubject = subject ∧
      g.creditKind = .forMode mode := by
  obtain ⟨_, _, hse, -, h⟩ := recordOperationDebit_inv h
  obtain ⟨new, _, tg, hr, hro, -, hd, hg⟩ := allocateSettledUsage_draws hp.le h
  rw [hr] at ha ⊢
  have hm : a.grantId ∈ (draws new).map Prod.fst := by
    rw [Table.mem_def, hro] at ha
    rw [draws_fst]
    exact List.mem_map_of_mem ((mem_append.mp ha).resolve_left hn)
  rw [hd, map_append, mem_append] at hm
  -- A candidate stays a grant, and the overage is a new one.
  have hk : ∀ g ∈ db.grants, g ∈ tg := by
    intro _ hgm
    split_ifs at hg
    · exact hg ▸ hgm
    · obtain ⟨_, ht⟩ := hg
      exact (mem_of_insert ht).mpr (.inl hgm)
  obtain hm | hm := hm
  · have hs := (draw_sublist _ _).subset hm
    rw [sources_fst] at hs
    obtain ⟨g, hgm, hi, hf⟩ := settlementGrants_mem hse hs
    have hf := of_decide_eq_true hf
    exact ⟨g, hk g hgm, hi, hf.1, hf.2.1⟩
  · split_ifs at hm hg
    · cases hm
    · obtain ⟨_, ht⟩ := hg
      exact ⟨_, (mem_of_insert ht).mpr (.inr rfl), (mem_singleton.mp hm).symm, rfl, rfl⟩

end Debit

/-- The errors of booking usage for a subject that has a grant. All are internal. -/
def AllocationFailure (e : ApiError) : Prop :=
  e = databaseError ∨ e = .internal "too many credit grant allocations" ∨
    e = .internal "usage allocation has no grant"

theorem AllocationFailure.status (h : AllocationFailure e) : e.status = 500 := by
  rcases h with rfl | rfl | rfl <;> rfl

theorem AllocationFailure.ne_noCreditGrant (h : AllocationFailure e) :
    e ≠ noCreditGrant := by
  rcases h with rfl | rfl | rfl <;> decide

section Errors

private theorem insertRow_fails {ρ : Type} [Schema ρ] (ref : TableRef ρ) (row : ρ) :
    (ref.insert row).FailsOnly AllocationFailure :=
  failsOnly_write (.inl rfl)

private theorem allocationOrder_fails (n : ℕ) : (allocationOrder n).FailsOnly AllocationFailure :=
  failsOnly_bind (failsOnly_ensure (.inr (.inl rfl))) fun _ => failsOnly_pure _

private theorem insertAllocation_fails (a : CreditAllocation) :
    (insertAllocation a).FailsOnly AllocationFailure :=
  failsOnly_bind (failsOnly_query _) fun _ =>
    failsOnly_bind (failsOnly_ensure (.inl rfl)) fun _ => insertRow_fails _ _

private theorem allocateGrants_fails (debitId : String) (grants : List SettlementGrant)
    (remaining : ℤ) (n : ℕ) :
    (allocateGrants debitId grants remaining n).FailsOnly AllocationFailure := by
  induction grants generalizing remaining n with
  | nil => exact failsOnly_pure _
  | cons _ _ ih =>
    simp only [allocateGrants]
    split_ifs
    · exact failsOnly_pure _
    · exact ih _ _
    · exact failsOnly_bind (allocationOrder_fails n) fun _ =>
        failsOnly_bind (insertAllocation_fails _) fun _ => ih _ _

private theorem allocateSettledUsage_fails (overageGrantId debitId : String) (bytes : ℤ)
    (grants : List SettlementGrant) (operationId subject : String) (accountId : Option String)
    (kind : CreditKind) (admittedAt : ℤ) :
    (allocateSettledUsage overageGrantId debitId bytes grants operationId subject accountId kind
      admittedAt).FailsOnly AllocationFailure := by
  refine failsOnly_bind (allocateGrants_fails _ _ _ _) ?_
  rintro ⟨_, n⟩
  dsimp only
  split_ifs
  · exact failsOnly_pure _
  · exact failsOnly_bind (failsOnly_require (.inr (.inr rfl))) fun _ =>
      failsOnly_bind (insertRow_fails _ _) fun _ =>
        failsOnly_bind (allocationOrder_fails n) fun _ => insertAllocation_fails _

/-- With a grant that funds the subject at the admission time, booking the usage can fail
only inside the database. -/
theorem recordOperationDebit_fails
    (hg : ∃ g ∈ db.grants, g.funds subject (.forMode mode) admittedAt) :
    (recordOperationDebit ids operationId subject accountId mode bytes admittedAt).FailsAt db
      AllocationFailure := by
  refine failsAt_bind (settlementGrants_readOnly _ _ _) ?_ ?_
  · exact failsOnly_bind (failsOnly_query _) fun _ => failsOnly_require (.inl rfl)
  · intro _ hs _ h
    have hn := settlementGrants_ne_nil hg hs
    rcases bind_error.mp h with h | ⟨_, _, -, h⟩
    · simp [Tx.ensure, hn] at h
    · refine failsOnly_bind (failsOnly_query _) (fun _ => ?_) _ _ h
      exact failsOnly_bind (failsOnly_ensure (.inl rfl)) fun _ =>
        failsOnly_bind (insertRow_fails _ _) fun _ =>
          allocateSettledUsage_fails _ _ _ _ _ _ _ _ _

end Errors

end Notary.Platform
