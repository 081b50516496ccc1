import Notary.Platform.Allocation

/-! The split of settled usage over its grants: the loop draws the usage from the candidates in
order, and a grant of its own takes what they leave over. -/

namespace Notary.Platform
open Relational List Tx Waterfall Table

variable {debitId operationId subject : String} {n : ℕ} {a : CreditAllocation} {db : Database}
  {r : Unit × Database} {grants : List SettlementGrant} {bytes admittedAt : ℤ}
  {accountId : Option String} {kind : CreditKind}

/-- What a settlement may count on: its debit is new, the candidates are rows of the database, and
a grant for the overage can be added. -/
structure Settles (db : Database) (overageGrantId debitId operationId subject : String)
    (accountId : Option String) (kind : CreditKind) (admittedAt : ℤ)
    (grants : List SettlementGrant) : Prop where
  debit : (db.debits.find? debitId).isSome
  unallocated : ∀ a ∈ db.allocations, a.debitId ≠ debitId
  nonempty : grants ≠ []
  known : ∀ g ∈ grants, (db.grants.find? g.id).isSome
  overage : ∀ last ∈ grants.getLast?, ∃ t, db.grants.insert (overageGrant overageGrantId
    operationId subject accountId kind admittedAt last.expiresAt) = some t

theorem allocationOrder_of (h : n ≤ 2147483647) (db : Database) :
    allocationOrder n db = .ok ((n : ℤ), db) := by
  simp only [allocationOrder, bind_ok, ensure_ok, pure_ok]
  exact ⟨(), db, ⟨h, rfl⟩, trivial, rfl⟩

theorem insertAllocation_of (a : CreditAllocation) (db : Database)
    (hde : (db.debits.find? a.debitId).isSome) (hgr : (db.grants.find? a.grantId).isSome)
    (hc : 0 < a.amountBytes ∧ 0 ≤ a.allocationOrder)
    (hn : ∀ b ∈ db.allocations, b.debitId = a.debitId →
      b.grantId ≠ a.grantId ∧ b.allocationOrder < a.allocationOrder) :
    ∃ t, db.allocations.insert a = some t ∧
      insertAllocation a db = .ok ((), { db with allocations := t }) := by
  have hf : db.allocations.find? (a.debitId, a.grantId) = none := by
    rw [Table.find?_eq_none]
    intro b hb hk
    obtain ⟨hd, hg⟩ := Prod.mk.inj hk
    exact (hn b hb hd).1 hg
  obtain ⟨t, ht⟩ : ∃ t, db.allocations.insert a = some t := by
    refine insert_of_check hf hc fun b hb => ⟨?_, ?_⟩
    · rintro ⟨hd, ho⟩
      exact (hn b hb hd).2.ne ho
    · rintro ⟨hd, ho⟩
      exact (hn b hb hd.symm).2.ne ho.symm
  refine ⟨t, ht, ?_⟩
  simp only [insertAllocation, bind_ok, query_ok, ensure_ok, TableRef.insert_ok]
  exact ⟨_, db, ⟨rfl, rfl⟩, (), db, ⟨by simp [hde, hgr], rfl⟩, t, ht, rfl⟩

/-- The loop goes through on candidates that the debit has not drawn on. -/
theorem allocateGrants_total (hp : 0 ≤ remaining) (hl : n + grants.length ≤ 2147483647)
    (hde : (db.debits.find? debitId).isSome) (hk : ∀ g ∈ grants, (db.grants.find? g.id).isSome)
    (hid : (grants.map (·.id)).Nodup) (hn : ∀ a ∈ db.allocations, a.debitId = debitId →
      a.grantId ∉ grants.map (·.id) ∧ a.allocationOrder < n) :
    ∃ r, allocateGrants debitId grants remaining n db = .ok r := by
  induction grants generalizing remaining n db with
  | nil => exact ⟨_, rfl⟩
  | cons g _ ih =>
    rw [forall_mem_cons] at hk
    rw [map_cons, nodup_cons] at hid
    rw [length_cons] at hl
    simp only [map_cons, mem_cons, not_or] at hn
    simp only [allocateGrants]
    split_ifs with hz hs
    · exact ⟨_, rfl⟩
    · exact ih hp (by omega) hde hk.2 hid.2 fun a ha hd =>
        ⟨(hn a ha hd).1.2, (hn a ha hd).2⟩
    · obtain ⟨_, ht, hi⟩ := insertAllocation_of
        ⟨debitId, g.id, min remaining (max g.remainingBytes 0), n⟩ db hde hk.1
        ⟨by dsimp only; omega, Int.natCast_nonneg n⟩
        fun b hb hd => ⟨(hn b hb hd).1.1, (hn b hb hd).2⟩
      rw [bind_of_ok (allocationOrder_of (by omega) db), bind_of_ok hi]
      refine ih (by omega) (by omega) hde hk.2 hid.2 fun a ha hd => ?_
      obtain ha | rfl := (mem_of_insert ht).mp ha
      · have := hn a ha hd
        exact ⟨this.1.2, by omega⟩
      · exact ⟨hid.1, by simp⟩

theorem Settles.total
    (h : Settles db overageGrantId debitId operationId subject accountId kind admittedAt grants)
    (hp : 0 ≤ bytes) (hid : (grants.map (·.id)).Nodup) (hov : overageGrantId ∉ grants.map (·.id))
    (hln : grants.length ≤ 2147483647) :
    ∃ r, allocateSettledUsage overageGrantId debitId bytes grants operationId subject accountId
      kind admittedAt db = .ok r := by
  obtain ⟨r, hlo⟩ := allocateGrants_total (n := 0) hp (by omega) h.debit h.known hid
    fun a ha hd => absurd hd (h.unallocated a ha)
  obtain ⟨new, t, hr, hro, hn, hdr, hle⟩ := allocateGrants_draws hp hlo
  obtain ⟨⟨_, _⟩, _⟩ := r
  obtain ⟨rfl, rfl⟩ := Prod.mk.inj hle
  dsimp only at hr
  subst hr
  simp only [allocateSettledUsage]
  rw [bind_of_ok hlo]
  dsimp only
  split_ifs with hz
  · exact ⟨_, rfl⟩
  · obtain ⟨last, hl⟩ := getLast?_isSome.mpr h.nonempty |> Option.isSome_iff_exists.mp
    obtain ⟨tg, ht⟩ := h.overage last hl
    have hs : (new.map (·.grantId)).Sublist (grants.map (·.id)) := by
      have := draw_sublist (sources grants) bytes
      rw [← hdr] at this
      simpa [draws, sources, Function.comp_def] using this
    have hnl : new.length ≤ grants.length := by simpa using hs.length_le
    have hig : TableRef.grants.insert (overageGrant overageGrantId operationId subject
        accountId kind admittedAt last.expiresAt) { db with allocations := t } =
        .ok ((), { db with allocations := t, grants := tg }) :=
      TableRef.insert_ok.mpr ⟨tg, ht, rfl⟩
    have hre : Tx.require (ε := ApiError) grants.getLast?
        (.internal "usage allocation has no grant") { db with allocations := t } =
        .ok (last, { db with allocations := t }) := by
      simp [hl]
    have hg : (tg.find? overageGrantId).isSome :=
      Table.find?_isSome ((mem_of_insert ht).mpr (.inr rfl))
    have hc : 0 < Waterfall.leftover (sources grants) bytes ∧ 0 ≤ ((0 + new.length : ℕ) : ℤ) := by
      have hno : 0 ≤ Waterfall.leftover (sources grants) bytes := le_max_right ..
      omega
    have hne : ∀ a ∈ t, a.debitId = debitId →
        a.grantId ≠ overageGrantId ∧ a.allocationOrder < ((0 + new.length : ℕ) : ℤ) := by
      intro a ha hd
      rw [mem_def, hro] at ha
      obtain ha | ha := mem_append.mp ha
      · exact absurd hd (h.unallocated a ha)
      · refine ⟨fun he => hov (he ▸ hs.subset (mem_map_of_mem ha)), ?_⟩
        have ho := mem_map_of_mem (f := (·.allocationOrder)) ha
        rw [hn.2] at ho
        obtain ⟨_, hi, _⟩ := mem_map.mp ho
        rw [mem_range'_1] at hi
        omega
    obtain ⟨_, -, hi⟩ := insertAllocation_of
      ⟨debitId, overageGrantId, Waterfall.leftover (sources grants) bytes,
        ((0 + new.length : ℕ) : ℤ)⟩ { db with allocations := t, grants := tg } h.debit hg
      hc hne
    rw [bind_of_ok hre, bind_of_ok hig, bind_of_ok (allocationOrder_of (by omega) _)]
    exact ⟨_, hi⟩

/-! ### Settlements that go through -/

/-- What a settlement needs of the database: its identifiers are new, and the grants have sums that
fit their column and can be numbered. -/
structure SettlementRoom (ids : SettlementIds) (db : Database) : Prop where
  debit : db.debits.find? ids.debitId = none
  overage : db.grants.find? ids.overageGrantId = none
  sums : ∀ g ∈ db.grants, (bigint? (allocatedBytes db g.id)).isSome
  few : db.grants.rows.length ≤ 2147483647

theorem settlementGrants_total (subject : String) (kind : CreditKind) (admittedAt : ℤ)
    (hs : ∀ g ∈ db.grants, (bigint? (allocatedBytes db g.id)).isSome) :
    ∃ grants, settlementGrants subject kind admittedAt db = .ok (grants, db) ∧
      ∀ c ∈ grants, ∃ g ∈ db.grants, g.id = c.id ∧ g.expiresAt = c.expiresAt ∧
        g.funds subject kind admittedAt = true := by
  have hm (rows : List CreditGrant)
      (hr : ∀ g ∈ rows, g ∈ db.grants ∧ g.funds subject kind admittedAt = true) :
      ∃ grants, rows.mapM (fun g => (bigint? (allocatedBytes db g.id)).map fun used =>
        ({ id := g.id, remainingBytes := g.amountBytes - used, expiresAt := g.expiresAt } :
          SettlementGrant)) = some grants ∧
        ∀ c ∈ grants, ∃ g ∈ db.grants, g.id = c.id ∧ g.expiresAt = c.expiresAt ∧
          g.funds subject kind admittedAt = true := by
    induction rows with
    | nil => exact ⟨[], rfl, fun _ hc => absurd hc not_mem_nil⟩
    | cons g rows ih =>
      rw [forall_mem_cons] at hr
      obtain ⟨grants, hg, hc⟩ := ih hr.2
      obtain ⟨used, hu⟩ := Option.isSome_iff_exists.mp (hs g hr.1.1)
      refine ⟨⟨g.id, g.amountBytes - used, g.expiresAt⟩ :: grants, by simp [mapM_cons, hu, hg], ?_⟩
      exact forall_mem_cons.mpr ⟨⟨g, hr.1.1, rfl, rfl, hr.1.2⟩, hc⟩
  obtain ⟨grants, hg, hc⟩ := hm ((db.grants.rows.filter (·.funds subject kind
    admittedAt)).insertionSort (settlesBefore · ·)) fun g hg =>
      mem_filter.mp ((perm_insertionSort _ _).mem_iff.mp hg)
  refine ⟨grants, ?_, hc⟩
  simp only [settlementGrants, bind_ok, query_ok, require_ok]
  exact ⟨some grants, db, ⟨hg, rfl⟩, rfl, rfl⟩

/-- A debit goes through when there is room for it, the operation has none yet, and no grant is in
the way of its overage. -/
theorem recordOperationDebit_total {ids : SettlementIds} {mode : AdmissionMode}
    (room : SettlementRoom ids db) (hp : 0 ≤ bytes) (ho : (db.operations.find? operationId).isSome)
    (hid : operationId.utf8ByteSize ≤ 128)
    (hf : ∃ g ∈ db.grants, g.funds subject (.forMode mode) admittedAt = true)
    (hde : ∀ d ∈ db.debits, d.operationId ≠ some operationId)
    (hal : ∀ a ∈ db.allocations, a.debitId ≠ ids.debitId)
    (hov : ∀ g ∈ db.grants, ¬g.BooksOverage operationId) :
    ∃ r, recordOperationDebit ids operationId subject accountId mode bytes admittedAt db =
      .ok r := by
  obtain ⟨grants, hg, hc⟩ := settlementGrants_total subject (.forMode mode) admittedAt room.sums
  have hne := settlementGrants_ne_nil hf hg
  obtain ⟨g, hgm, hfu⟩ := hf
  have hsu : octetsBetween 1 160 subject := by
    have hs := (Table.check hgm).1
    rwa [(of_decide_eq_true hfu).1] at hs
  obtain ⟨td, ht⟩ : ∃ td, db.debits.insert (operationDebit ids.debitId operationId subject accountId
      mode bytes admittedAt) = some td :=
    insert_of_check room.debit ⟨hsu, hp⟩ fun d hd =>
      ⟨fun h => hde d hd h.2, fun h => hde d hd h.2.symm⟩
  have hk : octetsBetween 1 256 ("operation-overage:" ++ operationId) := by
    have hl : "operation-overage:".utf8ByteSize = 18 := by decide
    rw [octetsBetween, String.utf8ByteSize_append, hl]
    omega
  have hdl : (some "Hosted usage overage").all (fun l => decide (l.utf8ByteSize ≤ 120)) = true := by
    decide
  have hse : Settles { db with debits := td } ids.overageGrantId ids.debitId operationId subject
      accountId (.forMode mode) admittedAt grants := by
    refine ⟨Table.find?_isSome ((mem_of_insert ht).mpr (.inr rfl)), hal, hne, fun c hcm => ?_,
      fun last hl => ?_⟩
    · obtain ⟨g, hgm, hi, -⟩ := hc c hcm
      exact hi ▸ Table.find?_isSome hgm
    · obtain ⟨g, -, -, he, hfu⟩ := hc last (mem_of_getLast? hl)
      refine insert_of_check room.overage ⟨hsu, rfl, hk, hk, hdl, ?_, rfl, rfl⟩
        fun g hgm => ⟨fun h => hov g hgm ?_, fun h => hov g hgm ?_⟩
      · exact he ▸ (of_decide_eq_true hfu).2.2.2.2
      · exact h.2
      · exact h.2.imp Eq.symm fun h => ⟨h.1.symm, h.2.symm⟩
  have hpe := settlementGrants_ids hg
  have hsl := filter_sublist
    (p := fun g : CreditGrant => g.funds subject (.forMode mode) admittedAt)
    (l := db.grants.rows)
  obtain ⟨r, hr⟩ := hse.total hp (hpe.nodup_iff.mpr (db.grants.valid.1.sublist (hsl.map _)))
    (fun hm => by
      obtain ⟨g, hgm, hi, -⟩ := settlementGrants_mem hg hm
      exact Table.find?_eq_none.mp room.overage g hgm hi)
    (by
      have hl := hpe.length_eq
      rw [length_map, length_map] at hl
      exact hl ▸ hsl.length_le.trans room.few)
  refine ⟨r, ?_⟩
  simp only [recordOperationDebit, bind_ok, ensure_ok, TableRef.selectByKey_ok, TableRef.insert_ok]
  exact ⟨grants, db, hg, (), db, ⟨hne, rfl⟩, _, db, ⟨rfl, rfl⟩, (), db, ⟨ho, rfl⟩, (), _,
    ⟨td, ht, rfl⟩, hr⟩

/-! ### The split -/

/-- How the allocations of a debit share its bytes out: what each grant gives is the sum of its
allocations. -/
structure Split (overageGrantId : String) (bytes : ℤ) (grants : List SettlementGrant)
    (new : List CreditAllocation) : Prop where
  sum : (new.map (·.amountBytes)).sum = bytes
  distinct : (new.map (·.grantId)).Nodup
  ordered : new.map (·.allocationOrder) = (List.range new.length).map Nat.cast
  funded : ∀ a ∈ new, a.grantId ∈ grants.map (·.id) ∨ a.grantId = overageGrantId
  within : ∀ g ∈ grants, Waterfall.given (draws new) g.id ≤ max g.remainingBytes 0
  inOrder : ∀ before g after, grants = before ++ g :: after →
    (∃ a ∈ new, a.grantId ∈ after.map (·.id) ∨ a.grantId = overageGrantId) →
    Waterfall.given (draws new) g.id = max g.remainingBytes 0
  overage : Waterfall.given (draws new) overageGrantId =
    max (bytes - (grants.map fun g => max g.remainingBytes 0).sum) 0

section Split

variable {overageGrantId : String} {bytes : ℤ} {grants : List SettlementGrant}
  {new : List CreditAllocation}

/-- The draws with the overage behind them are such a split. -/
theorem split_of_draws (hp : 0 < bytes) (hi : (grants.map (·.id)).Nodup)
    (hov : overageGrantId ∉ grants.map (·.id)) (hnu : Numbered debitId 0 new)
    (hd : draws new = Waterfall.draw (sources grants) bytes ++
      if Waterfall.leftover (sources grants) bytes = 0 then []
      else [(overageGrantId, Waterfall.leftover (sources grants) bytes)]) :
    Split overageGrantId bytes grants new := by
  have hsu : ((Waterfall.draw (sources grants) bytes).map Prod.fst).Sublist
      (grants.map (·.id)) := by
    rw [← sources_fst]
    exact draw_sublist ..
  have ho : overageGrantId ∉ (Waterfall.draw (sources grants) bytes).map Prod.fst :=
    fun hm => hov (hsu.subset hm)
  -- The draw of a candidate is what the whole list gives for it.
  have hgi (g : SettlementGrant) (hg : g ∈ grants) : Waterfall.given (draws new) g.id =
      Waterfall.given (Waterfall.draw (sources grants) bytes) g.id := by
    have hne : overageGrantId ≠ g.id := fun he => hov (he ▸ mem_map_of_mem hg)
    rw [hd, given_append]
    split_ifs <;> simp [Waterfall.given, hne]
  have hs (before after : List SettlementGrant) (g : SettlementGrant) :
      sources (before ++ g :: after) =
        sources before ++ (g.id, g.remainingBytes) :: sources after := by
    simp [sources]
  have hn := hi
  rw [← sources_fst] at hn
  constructor
  · exact sum_of_draws hp.le hd
  · rw [← draws_fst, hd, map_append, nodup_append]
    refine ⟨hsu.nodup hi, ?_, ?_⟩
    · split_ifs <;> simp
    · intro _ hid id' hi' he
      split_ifs at hi'
      · cases hi'
      · obtain rfl : id' = overageGrantId := by simpa using hi'
        exact ho (he ▸ hid)
  · rw [hnu.2, range_eq_range']
  · intro a ha
    have hm : a.grantId ∈ (draws new).map Prod.fst := by
      rw [draws_fst]
      exact mem_map_of_mem ha
    rw [hd, map_append, mem_append] at hm
    obtain hm | hm := hm
    · exact .inl (hsu.subset hm)
    · split_ifs at hm
      · cases hm
      · exact .inr (by simpa using hm)
  · intro g hg
    obtain ⟨_, _, rfl⟩ := append_of_mem hg
    rw [hgi g hg]
    rw [hs] at hn ⊢
    rw [given_draw hp.le hn]
    exact min_le_right ..
  · rintro _ g _ rfl ⟨a, ha, hl⟩
    have hm : a.grantId ∈ (draws new).map Prod.fst := by
      rw [draws_fst]
      exact mem_map_of_mem ha
    rw [hd, map_append, mem_append] at hm
    rw [hgi g (by simp)]
    rw [hs] at hn hm ho ⊢
    refine given_draw_of_later hp.le hn ?_
    obtain hl | hl := hl
    · refine .inl ⟨a.grantId, by rwa [sources_fst], hm.resolve_right fun hm => ?_⟩
      split_ifs at hm
      · cases hm
      · obtain rfl : overageGrantId = a.grantId := by simpa [eq_comm] using hm
        exact hov (by simp [hl])
    · refine .inr fun hz => ?_
      rw [if_pos hz, hl] at hm
      exact hm.elim ho (by simp)
  · have hc : Waterfall.capacity (sources grants) =
        (grants.map fun g => max g.remainingBytes 0).sum := by
      simp [Waterfall.capacity, sources, Function.comp_def]
    rw [hd, given_append, given_of_not_mem ho, Int.zero_add, ← hc]
    change _ = Waterfall.leftover (sources grants) bytes
    split_ifs with hz
    · rw [hz]
      rfl
    · simp [Waterfall.given]

end Split

/-- A settlement that goes through splits its bytes over the candidates and the overage, and it
goes through for a new debit of known candidates that the order column can number. -/
theorem settled_usage_split (overageGrantId debitId operationId subject : String)
    (accountId : Option String) (kind : CreditKind) (admittedAt bytes : ℤ)
    (grants : List SettlementGrant) (db : Database) (hpos : 0 < bytes)
    (hids : (grants.map (·.id)).Nodup) (hover : overageGrantId ∉ grants.map (·.id)) :
    (∀ db', allocateSettledUsage overageGrantId debitId bytes grants operationId subject accountId
        kind admittedAt db = .ok ((), db') →
      ∃ new, db'.allocations.rows = db.allocations.rows ++ new ∧
        (∀ a ∈ new, a.debitId = debitId) ∧ Split overageGrantId bytes grants new) ∧
    (Settles db overageGrantId debitId operationId subject accountId kind admittedAt grants →
      grants.length ≤ 2147483647 →
      ∃ db', allocateSettledUsage overageGrantId debitId bytes grants operationId subject accountId
        kind admittedAt db = .ok ((), db')) := by
  constructor
  · intro _ h
    obtain ⟨new, _, _, rfl, hrows, hnumbered, hdraws, -⟩ :=
      allocateSettledUsage_draws hpos.le h
    exact ⟨new, hrows, hnumbered.1, split_of_draws hpos hids hover hnumbered hdraws⟩
  · intro h hlen
    obtain ⟨⟨_, db'⟩, hok⟩ := h.total hpos.le hids hover hlen
    exact ⟨db', hok⟩

/-- A spent grant, one in debt and one with three bytes left pay for ten. -/
def settlementCandidates : List SettlementGrant :=
  [⟨"grant-1", 0, some 100⟩, ⟨"grant-2", -5, some 200⟩, ⟨"grant-3", 3, none⟩]

def settlementDatabase : Option Database := do
  let grant (id : String) : CreditGrant := ⟨id, "account:a", some "a", .notarization, 20,
    .externalPurchase, id, id, none, none, 0, 0, none, none⟩
  let grants ← Table.ofRows? [grant "grant-1", grant "grant-2", grant "grant-3"]
  let debits ← Table.ofRows? [operationDebit "debit-1" "op-1" "account:a" (some "a") .notarization
    10 50]
  some { grants, debits }

theorem settled_usage_split_sample :
    ∃ db db' new, settlementDatabase = some db ∧
      allocateSettledUsage "overage-1" "debit-1" 10 settlementCandidates "op-1" "account:a"
        (some "a") .notarization 50 db = .ok ((), db') ∧
      db'.allocations.rows = db.allocations.rows ++ new ∧
      Split "overage-1" 10 settlementCandidates new := by
  obtain ⟨db, hdb⟩ : ∃ db, settlementDatabase = some db := ⟨_, rfl⟩
  have hsettles : Settles db "overage-1" "debit-1" "op-1" "account:a" (some "a") .notarization 50
      settlementCandidates := by
    obtain rfl : db = settlementDatabase.get rfl := Option.some_inj.mp (hdb.symm.trans rfl)
    exact ⟨rfl, nofun, nofun, by decide, fun last hlast => by
      cases hlast
      exact ⟨_, rfl⟩⟩
  obtain ⟨hsplit, htotal⟩ := settled_usage_split "overage-1" "debit-1" "op-1" "account:a" (some "a")
    .notarization 50 10 settlementCandidates db (by decide) (by decide) (by decide)
  obtain ⟨db', hok⟩ := htotal hsettles (by decide)
  obtain ⟨new, hrows, -, hnew⟩ := hsplit db' hok
  exact ⟨db, db', new, hdb, hok, hrows, hnew⟩

end Notary.Platform
