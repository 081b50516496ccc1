import Notary.Devices.Effects
import Notary.Lib.Transition

/-! Rotation of refresh tokens: what the tables and the history of any run agree on, and what
follows for replayed tokens. -/

namespace Notary.Devices
open Relational List Option Bool Function Table World

variable {sha256Hex : String → String}

/-- Two events of which a history may have only one. -/
def Event.Repeats : Event → Event → Prop
  | approved id _, approved id' _ => id = id'
  | issued id _ _, issued id' _ _ => id = id'
  | exchanged token _, exchanged token' _ => token = token'
  | _, _ => False

/-- What the tables and the history say of each other. -/
structure Ledger (sha256Hex : String → String) (authorizations : Table DeviceAuthorization)
    (devices : Table Device) (replays : Table RefreshReplay) (drawn : List String)
    (history : List Event) : Prop where
  row_drawn : ∀ a ∈ authorizations, a.authorizationId ∈ drawn
  row_approved : ∀ a ∈ authorizations, ∀ accountId,
    a.approvedAccountId = some accountId → .approved a.authorizationId accountId ∈ history
  approved_row : ∀ a ∈ authorizations, a.approvedAccountId = none →
    ∀ accountId, .approved a.authorizationId accountId ∉ history
  issued_row : ∀ a ∈ authorizations, a.completedAt = none →
    ∀ deviceId accountId, .issued a.authorizationId deviceId accountId ∉ history
  approved_drawn : ∀ id accountId, .approved id accountId ∈ history → id ∈ drawn
  issued_approved : ∀ id deviceId accountId, .issued id deviceId accountId ∈ history →
    .approved id accountId ∈ history
  device_drawn : ∀ d ∈ devices, d.deviceId ∈ drawn
  device_issued : ∀ d ∈ devices, ∃ id, .issued id d.deviceId d.accountId ∈ history
  device_token : ∀ d ∈ devices, ∃ token ∈ drawn, sha256Hex token = d.refreshTokenHash ∧
    ∀ deviceId, .exchanged token deviceId ∉ history
  exchanged_drawn : ∀ token deviceId, .exchanged token deviceId ∈ history →
    token ∈ drawn ∧ deviceId ∈ drawn
  exchanged_replay : ∀ token deviceId, .exchanged token deviceId ∈ history →
    ∃ replay, replays.find? (sha256Hex token) = some replay ∧ replay.deviceId = deviceId
  replay_exchanged : ∀ replay ∈ replays, ∃ token,
    .exchanged token replay.deviceId ∈ history ∧ sha256Hex token = replay.tokenHash
  once : history.Pairwise fun e e' => ¬e.Repeats e'

namespace Ledger

variable {authorizations authorizations' : Table DeviceAuthorization}
  {devices devices' : Table Device} {replays : Table RefreshReplay} {drawn : List String}
  {history : List Event}

theorem init : Ledger sha256Hex ∅ ∅ ∅ [] [] := by
  constructor <;> simp

section

variable (h : Ledger sha256Hex authorizations devices replays drawn history)
include h

/-- The end of a request adds nothing that the tables speak of. -/
theorem replayed (device : Option String) : Ledger sha256Hex authorizations devices replays drawn
      (history ++ (device.map Event.replayed).toList) := by
  cases device with
  | none => simpa using h
  | some device =>
    constructor
    · exact h.row_drawn
    · simpa using h.row_approved
    · simpa using h.approved_row
    · simpa using h.issued_row
    · simpa using h.approved_drawn
    · simpa using h.issued_approved
    · exact h.device_drawn
    · simpa using h.device_issued
    · simpa using h.device_token
    · simpa using h.exchanged_drawn
    · simpa using h.exchanged_replay
    · simpa using h.replay_exchanged
    · refine pairwise_append.mpr ⟨h.once, pairwise_singleton .., ?_⟩
      intro e _ e' he'
      obtain rfl : e' = .replayed device := by simpa using he'
      cases e <;> exact not_false

theorem deleted (p : DeviceAuthorization → Bool) :
    Ledger sha256Hex (authorizations.delete p) devices replays drawn history where
  __ := h
  row_drawn a ha := h.row_drawn a (mem_delete.mp ha).1
  row_approved a ha := h.row_approved a (mem_delete.mp ha).1
  approved_row a ha := h.approved_row a (mem_delete.mp ha).1
  issued_row a ha := h.issued_row a (mem_delete.mp ha).1

theorem draw (more : List String) :
    Ledger sha256Hex authorizations devices replays (more ++ drawn) history where
  __ := h
  row_drawn a ha := mem_append_right more (h.row_drawn a ha)
  approved_drawn id accountId he := mem_append_right more (h.approved_drawn id accountId he)
  device_drawn d hd := mem_append_right more (h.device_drawn d hd)
  device_token d hd := by
    obtain ⟨token, hdr, ht⟩ := h.device_token d hd
    exact ⟨token, mem_append_right more hdr, ht⟩
  exchanged_drawn token deviceId he := by
    obtain ⟨ht, hde⟩ := h.exchanged_drawn token deviceId he
    exact ⟨mem_append_right more ht, mem_append_right more hde⟩

theorem started (hid : row.authorizationId ∈ more) (hn : row.authorizationId ∉ drawn)
    (hap : row.approvedAccountId = none) (hi : authorizations.insert row = some authorizations') :
    Ledger sha256Hex authorizations' devices replays (more ++ drawn) history := by
  have hd := h.draw more
  have hu (accountId : String) : .approved row.authorizationId accountId ∉ history :=
    fun he => hn (h.approved_drawn _ _ he)
  refine { hd with
    row_drawn := fun a ha => ?_, row_approved := fun a ha => ?_,
    approved_row := fun a ha => ?_, issued_row := fun a ha => ?_ }
  all_goals obtain ha | rfl := (mem_of_insert hi).mp ha
  · exact hd.row_drawn a ha
  · exact mem_append_left drawn hid
  · exact hd.row_approved a ha
  · simp [hap]
  · exact hd.approved_row a ha
  · exact fun _ => hu
  · exact hd.issued_row a ha
  · exact fun _ deviceId accountId he => hu accountId (h.issued_approved _ _ _ he)

theorem once_append (hn : ∀ e ∈ history, ¬e.Repeats event) :
    (history ++ [event]).Pairwise fun e e' => ¬e.Repeats e' := by
  refine pairwise_append.mpr ⟨h.once, pairwise_singleton .., ?_⟩
  intro e he _ he'
  rw [mem_singleton.mp he']
  exact hn e he

theorem approved {id hash accountId : String}
    (hup : authorizations.update (DeviceAuthorization.approvable id hash now)
      ({ · with approvedAccountId := some accountId }) = some authorizations') :
    Ledger sha256Hex authorizations' devices replays drawn (history ++
      if authorizations.rows.any (DeviceAuthorization.approvable id hash now)
      then [Event.approved id accountId] else []) := by
  have hsa (hn : ∀ r ∈ authorizations, r.approvable id hash now = false) :
      ∀ a ∈ authorizations', a ∈ authorizations := by
    intro _ ha
    obtain ⟨r, hr, rfl⟩ := (mem_of_update hup).mp ha
    rwa [hn r hr]
  split_ifs with han
  · obtain ⟨a, ha, hp⟩ := List.any_eq_true.mp han
    simp only [DeviceAuthorization.approvable, and_eq_true, decide_eq_true_eq,
      isNone_iff_eq_none] at hp
    obtain ⟨⟨⟨⟨rfl, -⟩, -⟩, hu⟩, hun⟩ := hp
    -- The row of the update is the only one of this authorization.
    have hro : ∀ r ∈ authorizations', r.authorizationId = a.authorizationId ∧
        r.approvedAccountId = some accountId ∧ r.completedAt = none ∨
        r ∈ authorizations ∧ r.authorizationId ≠ a.authorizationId := by
      intro _ hr
      obtain ⟨s, hs, rfl⟩ := (mem_of_update hup).mp hr
      by_cases hi : s.authorizationId = a.authorizationId
      · obtain rfl : s = a := authorizations.eq_of_key hs ha hi
        obtain ⟨t, ht, hpt⟩ := List.any_eq_true.mp han
        obtain rfl : t = s := by
          simp only [DeviceAuthorization.approvable, and_eq_true, decide_eq_true_eq] at hpt
          exact authorizations.eq_of_key ht hs hpt.1.1.1.1
        rw [if_pos hpt]
        exact .inl ⟨rfl, rfl, hun⟩
      · have hp : s.approvable a.authorizationId hash now = false := by
          simp [DeviceAuthorization.approvable, hi]
        rw [hp]
        exact .inr ⟨hs, hi⟩
    have hne : ∀ account, .approved a.authorizationId account ∉ history := h.approved_row a ha hu
    constructor
    · intro r hr
      obtain ⟨hi, -⟩ | ⟨hr, -⟩ := hro r hr
      · rw [hi]
        exact h.row_drawn a ha
      · exact h.row_drawn r hr
    · intro r hr account hac
      obtain ⟨hi, hap, -⟩ | ⟨hr, -⟩ := hro r hr
      · rw [hap] at hac
        cases hac
        simp [hi]
      · exact mem_append_left _ (h.row_approved r hr account hac)
    · intro r hr hn account
      obtain ⟨-, hap, -⟩ | ⟨hr, hi⟩ := hro r hr
      · rw [hap] at hn
        cases hn
      · simp [h.approved_row r hr hn account, hi]
    · intro r hr hn _ _
      obtain ⟨hi, -⟩ | ⟨hr, -⟩ := hro r hr
      · simp [hi, h.issued_row a ha hun]
      · simp [h.issued_row r hr hn]
    · intro id account he
      obtain he | he := mem_append.mp he
      · exact h.approved_drawn id account he
      · cases mem_singleton.mp he
        exact h.row_drawn a ha
    · intro id deviceId account he
      have he : .issued id deviceId account ∈ history := by simpa using he
      exact mem_append_left _ (h.issued_approved id deviceId account he)
    · exact h.device_drawn
    · simpa using h.device_issued
    · simpa using h.device_token
    · simpa using h.exchanged_drawn
    · simpa using h.exchanged_replay
    · simpa using h.replay_exchanged
    · refine h.once_append ?_
      rintro (⟨_, account⟩ | _ | _ | _) he
      · rintro rfl
        exact hne account he
      all_goals exact not_false
  · have hn : ∀ r ∈ authorizations, r.approvable id hash now = false := by
      simpa [List.any_eq_true, Table.mem_def] using han
    rw [append_nil]
    exact { h with
      row_drawn := fun a ha => h.row_drawn a (hsa hn a ha)
      row_approved := fun a ha => h.row_approved a (hsa hn a ha)
      approved_row := fun a ha => h.approved_row a (hsa hn a ha)
      issued_row := fun a ha => h.issued_row a (hsa hn a ha) }

theorem issued {id deviceId token accountId name : String} (ha : authorizations.find? id = some a)
    (hap : a.approvedAccountId = some accountId)
    (hp : ∀ r, p r → r.authorizationId = id ∧ r.completedAt = none)
    (ho : authorizations.rows.any p = true)
    (hup : authorizations.update p ({ · with completedAt := some now }) = some authorizations')
    (hde : deviceId ∈ more) (hre : token ∈ more) (hnw : token ∉ drawn)
    (hi : devices.insert ⟨deviceId, accountId, name, sha256Hex token, lastUsed, expiry,
      none⟩ = some devices') : Ledger sha256Hex authorizations' devices' replays (more ++ drawn)
      (history ++ [.issued id deviceId accountId]) := by
  have hd := h.draw more
  obtain ⟨ha, hid⟩ := find?_eq_some.mp ha
  obtain ⟨s, hs, hps⟩ := List.any_eq_true.mp ho
  obtain ⟨hsi, hu⟩ := hp s hps
  obtain rfl : s = a := authorizations.eq_of_key hs ha (hsi.trans hid.symm)
  have hro : ∀ r ∈ authorizations', ∃ r₀ ∈ authorizations,
      r.authorizationId = r₀.authorizationId ∧ r.approvedAccountId = r₀.approvedAccountId ∧
      (r.completedAt = none → r₀.completedAt = none ∧ r₀.authorizationId ≠ id) := by
    intro _ hr
    obtain ⟨r₀, hr0, rfl⟩ := (mem_of_update hup).mp hr
    by_cases hpr : p r₀ = true
    · rw [if_pos hpr]
      exact ⟨r₀, hr0, rfl, rfl, nofun⟩
    · rw [if_neg hpr]
      refine ⟨r₀, hr0, rfl, rfl, fun hn => ⟨hn, ?_⟩⟩
      rintro hri
      obtain rfl : r₀ = s := authorizations.eq_of_key hr0 hs (hri.trans hsi.symm)
      exact hpr hps
  have hf : ∀ device account, .issued id device account ∉ history := by
    subst hsi
    exact h.issued_row s hs hu
  constructor
  · intro r hr
    obtain ⟨r₀, hr0, hri, -⟩ := hro r hr
    rw [hri]
    exact hd.row_drawn r₀ hr0
  · intro r hr account hac
    obtain ⟨r₀, hr0, hri, hra, -⟩ := hro r hr
    rw [hri]
    exact mem_append_left _ (h.row_approved r₀ hr0 account (hra ▸ hac))
  · intro r hr hn account
    obtain ⟨r₀, hr0, hri, hra, -⟩ := hro r hr
    simp [hri, h.approved_row r₀ hr0 (hra ▸ hn) account]
  · intro r hr hn _ _
    obtain ⟨r₀, hr0, hri, -, hrn⟩ := hro r hr
    obtain ⟨hn, hne⟩ := hrn hn
    simp [hri, h.issued_row r₀ hr0 hn, hne]
  · simpa using hd.approved_drawn
  · intro id' device account he
    obtain he | he := mem_append.mp he
    · exact mem_append_left _ (h.issued_approved id' device account he)
    · cases mem_singleton.mp he
      rw [← hsi]
      exact mem_append_left _ (h.row_approved s hs _ hap)
  · intro d hd'
    obtain hd' | rfl := (mem_of_insert hi).mp hd'
    · exact hd.device_drawn d hd'
    · exact mem_append_left drawn hde
  · intro d hd'
    obtain hd' | rfl := (mem_of_insert hi).mp hd'
    · obtain ⟨id', he⟩ := h.device_issued d hd'
      exact ⟨id', mem_append_left _ he⟩
    · exact ⟨id, by simp⟩
  · intro d hd'
    obtain hd' | rfl := (mem_of_insert hi).mp hd'
    · simpa using hd.device_token d hd'
    · refine ⟨token, mem_append_left drawn hre, rfl, fun device he => ?_⟩
      have he : .exchanged token device ∈ history := by simpa using he
      exact hnw (h.exchanged_drawn token device he).1
  · simpa using hd.exchanged_drawn
  · simpa using h.exchanged_replay
  · simpa using h.replay_exchanged
  · refine h.once_append ?_
    rintro (_ | ⟨_, device, account⟩ | _ | _) he
    · exact not_false
    · rintro rfl
      exact hf device account he
    all_goals exact not_false

theorem revoked (hu : devices.update p ({ · with revokedAt := some now }) = some devices') :
    Ledger sha256Hex authorizations devices' replays drawn history := by
  have hr : ∀ d ∈ devices', ∃ d₀ ∈ devices, d.deviceId = d₀.deviceId ∧
      d.accountId = d₀.accountId ∧ d.refreshTokenHash = d₀.refreshTokenHash := by
    intro _ hd
    obtain ⟨d₀, hd0, rfl⟩ := (mem_of_update hu).mp hd
    refine ⟨d₀, hd0, ?_⟩
    split_ifs <;> exact ⟨rfl, rfl, rfl⟩
  refine { h with
    device_drawn := fun d hd => ?_, device_issued := fun d hd => ?_,
    device_token := fun d hd => ?_ }
  all_goals obtain ⟨d₀, hd0, hi, ha, hh⟩ := hr d hd
  · rw [hi]
    exact h.device_drawn d₀ hd0
  · rw [hi, ha]
    exact h.device_issued d₀ hd0
  · rw [hh]
    exact h.device_token d₀ hd0

theorem unexchanged (hs : Function.Injective sha256Hex) (hd : d ∈ devices)
    (ht : d.refreshTokenHash = sha256Hex token) :
    token ∈ drawn ∧ ∀ deviceId, .exchanged token deviceId ∉ history := by
  obtain ⟨token', hdr, hh, hn⟩ := h.device_token d hd
  obtain rfl : token' = token := hs (hh.trans ht)
  exact ⟨hdr, hn⟩

theorem exchanged (hsh : Function.Injective sha256Hex)
    (hp : ∀ d, p d → d.deviceId = key ∧ d.refreshTokenHash = sha256Hex token)
    (ho : devices.rows.any p = true) (hup : devices.update p
      ({ · with refreshTokenHash := sha256Hex refreshToken, lastUsedAt := lastUsed }) =
        some devices') (hre : refreshToken ∈ more) (hn : refreshToken ∉ drawn) :
    Ledger sha256Hex authorizations devices'
      ((replays.insert ⟨sha256Hex token, key, now⟩).getD replays) (more ++ drawn)
      (history ++ [.exchanged token key]) := by
  have hd := h.draw more
  obtain ⟨d, hdv, hpd⟩ := List.any_eq_true.mp ho
  obtain ⟨rfl, hh⟩ := hp d hpd
  obtain ⟨ht, hu⟩ := h.unexchanged hsh hdv hh
  have hro : ∀ d' ∈ devices', ∃ d₀ ∈ devices, d'.deviceId = d₀.deviceId ∧
      d'.accountId = d₀.accountId ∧ (d'.refreshTokenHash = sha256Hex refreshToken ∨
        d'.refreshTokenHash = d₀.refreshTokenHash ∧ d₀.refreshTokenHash ≠ sha256Hex token) := by
    intro _ hd'
    obtain ⟨d₀, hd0, rfl⟩ := (mem_of_update hup).mp hd'
    by_cases hp0 : p d₀ = true
    · rw [if_pos hp0]
      exact ⟨d₀, hd0, rfl, rfl, .inl rfl⟩
    · rw [if_neg hp0]
      refine ⟨d₀, hd0, rfl, rfl, .inr ⟨rfl, fun hs => ?_⟩⟩
      obtain rfl : d₀ = d := devices.eq_of_clash hd0 hdv (hs.trans hh.symm)
      exact hp0 hpd
  -- No row of the replays has this token, so the insertion goes through.
  have hfr : replays.find? (sha256Hex token) = none := by
    rw [Table.find?_eq_none]
    intro replay hr hk
    obtain ⟨token', he, hs⟩ := h.replay_exchanged replay hr
    obtain rfl : token' = token := hsh (hs.trans hk)
    exact hu _ he
  obtain ⟨replays', hi⟩ : ∃ t, replays.insert ⟨sha256Hex token, d.deviceId, now⟩ = some t :=
    insert_of_check hfr trivial fun _ _ => ⟨not_false, not_false⟩
  rw [hi, getD_some]
  constructor
  · exact hd.row_drawn
  · simpa using h.row_approved
  · simpa using h.approved_row
  · simpa using h.issued_row
  · simpa using hd.approved_drawn
  · simpa using h.issued_approved
  · intro d' hd'
    obtain ⟨d₀, hd0, hid, -⟩ := hro d' hd'
    rw [hid]
    exact hd.device_drawn d₀ hd0
  · intro d' hd'
    obtain ⟨d₀, hd0, hid, ha, -⟩ := hro d' hd'
    rw [hid, ha]
    simpa using h.device_issued d₀ hd0
  · intro d' hd'
    obtain ⟨d₀, hd0, -, -, hh' | ⟨hh', hne⟩⟩ := hro d' hd'
    · refine ⟨refreshToken, mem_append_left drawn hre, hh'.symm, fun device he => ?_⟩
      obtain he | he := mem_append.mp he
      · exact hn (h.exchanged_drawn refreshToken device he).1
      · cases mem_singleton.mp he
        exact hn ht
    · obtain ⟨token', hdr, hs, hno⟩ := hd.device_token d₀ hd0
      refine ⟨token', hdr, hs.trans hh'.symm, fun device he => ?_⟩
      obtain he | he := mem_append.mp he
      · exact hno device he
      · cases mem_singleton.mp he
        exact hne hs.symm
  · intro token' device he
    obtain he | he := mem_append.mp he
    · exact hd.exchanged_drawn token' device he
    · cases mem_singleton.mp he
      exact ⟨mem_append_right more ht, hd.device_drawn d hdv⟩
  · intro token' device he
    have hf := find?_of_insert hi (sha256Hex token')
    obtain he | he := mem_append.mp he
    · obtain ⟨replay, hr, hde⟩ := h.exchanged_replay token' device he
      have hne : ¬sha256Hex token = sha256Hex token' := by
        intro hs
        obtain rfl : token = token' := hsh hs
        exact hu device he
      exact ⟨replay, (hf.trans (if_neg hne)).trans hr, hde⟩
    · cases mem_singleton.mp he
      exact ⟨_, hf.trans (if_pos rfl), rfl⟩
  · intro replay hr
    obtain hr | rfl := (mem_of_insert hi).mp hr
    · obtain ⟨token', he, hs⟩ := h.replay_exchanged replay hr
      exact ⟨token', mem_append_left _ he, hs⟩
    · exact ⟨token, by simp, rfl⟩
  · refine h.once_append ?_
    rintro (_ | _ | ⟨_, device⟩ | _) he
    · exact not_false
    · exact not_false
    · rintro rfl
      exact hu device he
    · exact not_false

end

end Ledger

/-! ### Runs -/

namespace World

variable {w w' : World} {act : Act}

def Sound (sha256Hex : String → String) (w : World) : Prop :=
  Ledger sha256Hex w.authorizations w.devices w.replays w.drawn w.history

theorem Sound.step (h : w.Sound sha256Hex) (hs : Function.Injective sha256Hex)
    (he : Effect sha256Hex w act w') : w'.Sound sha256Hex := by
  cases he with
  | expired => exact h.deleted _
  | started hn hi =>
    obtain rfl | hi := hi
    · exact h.draw _
    · exact h.started (mem_cons_self ..) hn rfl hi
  | began | found | heldAuthorization | unmatched | heldDevice | replayFound | revoking => exact h
  | ended | rolledBack | replayAbsent | settled | failed => exact h.replayed _
  | approved _ _ hu => exact (h.approved hu).replayed _
  | issued _ _ hre hro ha hi ho hu =>
    refine (h.issued hro ha (fun r hr => ?_) ho hu (mem_cons_self ..)
      (mem_cons_of_mem _ (mem_cons_self ..)) hre hi).replayed _
    simp only [and_eq_true, decide_eq_true_eq, isNone_iff_eq_none] at hr
    exact hr.1.1
  | rotated _ hre ho hu =>
    refine (h.exchanged hs (fun d hd => ?_) ho hu (mem_cons_self ..) hre).replayed _
    simp only [Device.refreshable, and_eq_true, decide_eq_true_eq] at hd
    exact ⟨hd.1, hd.2.1.1⟩
  | revoked _ _ _ _ hu => exact (h.revoked hu).replayed _

def Dead (w : World) (deviceId : String) : Prop :=
  ∀ d ∈ w.devices, d.deviceId = deviceId → d.revokedAt ≠ none

def Accepts (sha256Hex : String → String) (w : World) (deviceId : String) : Prop :=
  ∃ token now, w.exchangeable sha256Hex token now = some deviceId ∨
    ∃ accountId name, w.resolveToken sha256Hex token now = some (accountId, deviceId, name)

theorem Dead.not_accepts (h : w.Dead deviceId) :
    ¬w.Accepts sha256Hex deviceId := by
  rintro ⟨_, _, he | ⟨_, _, hr⟩⟩
  · obtain ⟨d, hd, rfl⟩ := map_eq_some_iff.mp he
    have hf := find?_some hd
    simp only [Device.refreshable, and_eq_true, isNone_iff_eq_none] at hf
    exact h d (mem_of_find?_eq_some hd) rfl hf.1.2
  · unfold resolveToken at hr
    split at hr
    · cases hr
    · split at hr
      · cases hr
      · split at hr
        · cases hr
        · rename_i d hd
          rw [ite_none_right_eq_some] at hr
          obtain ⟨⟨-, hu, -⟩, heq⟩ := hr
          cases heq
          exact h d (find?_eq_some.mp hd).1 rfl (isNone_iff_eq_none.mp hu)

/-- A device that was drawn and is dead stays so: a step brings in only new identifiers, and none
takes a revocation back. -/
theorem Dead.step (h : w.Dead deviceId) (hdr : deviceId ∈ w.drawn)
    (hef : Effect sha256Hex w act w') :
    w'.Dead deviceId ∧ deviceId ∈ w'.drawn ∧
      ∀ token, .exchanged token deviceId ∈ w'.history → .exchanged token deviceId ∈ w.history := by
  cases hef with
  | expired | began | found | heldAuthorization | unmatched | heldDevice | replayFound | revoking =>
    exact ⟨h, hdr, fun _ => id⟩
  | started => exact ⟨h, mem_append_right _ hdr, fun _ => id⟩
  | ended | replayAbsent | settled => exact ⟨h, hdr, fun _ he => by simpa [World.finish] using he⟩
  | approved =>
    refine ⟨h, hdr, fun token he => ?_⟩
    simp only [World.finish, mem_append] at he
    obtain (he | he) | he := he
    · exact he
    · split_ifs at he <;> simp at he
    · simp at he
  | issued _ hde _ _ _ hi =>
    refine ⟨fun d hd hid => ?_, mem_append_right _ hdr, fun token he => ?_⟩
    · obtain hd | rfl := (mem_of_insert hi).mp hd
      · exact h d hd hid
      · cases hid
        exact absurd hdr hde
    · simpa [World.finish] using he
  | rotated _ _ ho hu =>
    refine ⟨fun d hd hid => ?_, mem_append_right _ hdr, fun token he => ?_⟩
    · obtain ⟨d₀, hd0, rfl⟩ := (mem_of_update hu).mp hd
      split_ifs at hid ⊢ <;> exact h d₀ hd0 hid
    · simp only [World.finish, mem_append, mem_singleton] at he
      obtain (he | he) | he := he
      · exact he
      · -- The rotated row is not revoked.
        cases he
        obtain ⟨d, hd, hp⟩ := List.any_eq_true.mp ho
        simp only [Device.refreshable, and_eq_true, decide_eq_true_eq, isNone_iff_eq_none] at hp
        exact absurd hp.2.1.2 (h d hd hp.1)
      · simp at he
  | rolledBack | failed => exact ⟨h, hdr, fun _ he => by simpa [World.finish, release] using he⟩
  | revoked _ _ _ _ hu =>
    refine ⟨fun d hd hid => ?_, hdr, fun _ he => by simpa [World.finish] using he⟩
    obtain ⟨d₀, hd0, rfl⟩ := (mem_of_update hu).mp hd
    split_ifs at hid ⊢
    · nofun
    · exact h d₀ hd0 hid

/-! ### Replayed tokens -/

theorem exchanged_of_exchangedDevice (h : w.exchangedDevice token = some deviceId) :
    .exchanged token deviceId ∈ w.history := by
  obtain ⟨_, he, hs⟩ := exists_of_findSome?_eq_some h
  split at hs
  · rw [ite_none_right_eq_some, some_inj] at hs
    obtain ⟨rfl, rfl⟩ := hs
    exact he
  · cases hs

end World

/-- Where a request that presents an exchanged token of a device can be: it is a refresh that finds
no device with the token, then the exchange, and then revokes the device. -/
def Request.Tracks (w : World) (r : Request) : Prop :=
  ∀ deviceId, r.presented = some deviceId → ∃ token, r.call = .refresh token ∧
    .exchanged token deviceId ∈ w.history ∧
    match r.stage with
    | .begun | .found none | .unmatched => True
    | .found (some _) | .held _ => False
    | .replay id | .revoking (some id) => id = deviceId
    | .revoking none => w.Dead deviceId

namespace Request.Tracks

variable {w : World} {r : Request}

theorem of_none (h : r.presented = none) : r.Tracks w := by
  intro _ hs
  rw [h] at hs
  cases hs

theorem none_of_exchangesNothing (h : r.Tracks w) (hc : r.call.exchangesNothing = true) :
    r.presented = none := by
  rw [eq_none_iff_forall_ne_some]
  intro deviceId hp
  obtain ⟨_, ht, -⟩ := h deviceId hp
  rw [ht] at hc
  cases hc

theorem none_of_held (h : r.Tracks w) (hs : r.stage = .held key) :
    r.presented = none := by
  rw [eq_none_iff_forall_ne_some]
  intro deviceId hp
  obtain ⟨_, -, -, ha⟩ := h deviceId hp
  rwa [hs] at ha

/-- The next stage of a refresh, if the step changes no device and adds no event. -/
theorem next (h : r.Tracks w) {stage : Stage} (hh : w'.history = w.history)
    (hs : ∀ deviceId token, r.presented = some deviceId → r.call = .refresh token →
      .exchanged token deviceId ∈ w.history → match stage with
      | .begun | .found none | .unmatched => True
      | .found (some _) | .held _ => False
      | .replay id | .revoking (some id) => id = deviceId
      | .revoking none => w'.Dead deviceId) : ({ r with stage } : Request).Tracks w' := by
  intro deviceId hp
  obtain ⟨token, hc, he, -⟩ := h deviceId hp
  exact ⟨token, hc, hh ▸ he, hs deviceId token hp hc he⟩

theorem mono (h : r.Tracks w) (hh : ∀ e ∈ w.history, e ∈ w'.history)
    (hd : ∀ token deviceId, .exchanged token deviceId ∈ w.history →
      w.Dead deviceId → w'.Dead deviceId) : r.Tracks w' := by
  intro deviceId hp
  obtain ⟨token, hc, he, ha⟩ := h deviceId hp
  refine ⟨token, hc, hh _ he, ?_⟩
  split at ha
  · trivial
  · trivial
  · trivial
  · exact ha
  · exact ha
  · exact ha
  · exact ha
  · exact hd token deviceId he ha

end Request.Tracks

/-- An exchange of a device after one of its exchanged tokens was replayed. -/
def Event.Precludes : Event → Event → Prop
  | replayed deviceId, exchanged _ deviceId' => deviceId = deviceId'
  | _, _ => False

namespace World

variable {w w' : World} {act : Act}

/-- The condition under which replays are answered: no logout presents an exchanged token, and no
request that presents one is cut off. -/
def replaysHandled (w : World) : Act → Bool
  | .begin _ (.logout token) _ => w.exchangedDevice token = none
  | .fail n => (w.requests n).all (·.presented = none)
  | _ => true

structure Answered (w : World) : Prop where
  requests : ∀ n r, w.requests n = some r → r.Tracks w
  replayed : ∀ deviceId, .replayed deviceId ∈ w.history →
    deviceId ∈ w.drawn ∧ w.Dead deviceId
  after : w.history.Pairwise fun e e' => ¬e.Precludes e'

/-- What a step adds: events, among them replays of devices that are dead by then, and requests
that are where they should be. -/
def Answers (w w' : World) : Prop :=
  ∃ events, w'.history = w.history ++ events ∧ events.Pairwise (fun e e' => ¬e.Precludes e') ∧
    (∀ deviceId, .replayed deviceId ∈ events → deviceId ∈ w.drawn ∧ w'.Dead deviceId) ∧
    ∀ n r, w'.requests n = some r → w.requests n = some r ∨ r.Tracks w'

theorem Answers.silent (hre : w'.requests = w.requests) (hh : w'.history = w.history) :
    w.Answers w' :=
  ⟨[], by simpa using hh, .nil, by simp, fun _ _ hr => .inl (hre ▸ hr)⟩

theorem Answers.set (hre : w'.requests = Function.update w.requests n (some r))
    (hh : w'.history = w.history) (hr : r.Tracks w') : w.Answers w' := by
  refine ⟨[], by simpa using hh, .nil, by simp, fun m s hs => ?_⟩
  rw [hre] at hs
  by_cases hm : m = n
  · subst hm
    rw [update_self] at hs
    cases hs
    exact .inr hr
  · rw [update_of_ne hm] at hs
    exact .inl hs

theorem Answers.ended (r : Request) (event : Option Event)
    (hr : w'.requests = Function.update w.requests n none)
    (hh : w'.history = w.history ++ event.toList ++ (r.presented.map Event.replayed).toList)
    (hev : ∀ deviceId, event ≠ some (.replayed deviceId))
    (hd : ∀ deviceId, r.presented = some deviceId → deviceId ∈ w.drawn ∧ w'.Dead deviceId) :
    w.Answers w' := by
  refine ⟨_, by rw [hh, append_assoc], ?_, fun deviceId he => ?_, fun m s hs => ?_⟩
  · cases event <;> cases r.presented <;> simp [Event.Precludes]
  · obtain he | he := mem_append.mp he
    · exact absurd (by simpa using he) (hev deviceId)
    · exact hd deviceId (by simpa using he)
  · rw [hr] at hs
    by_cases hm : m = n
    · subst hm
      simp at hs
    · rw [update_of_ne hm] at hs
      exact .inl hs

theorem Sound.candidate_refresh (h : w.Sound sha256Hex) (hs : Function.Injective sha256Hex)
    (he : .exchanged token deviceId ∈ w.history) (now : ℤ) :
    w.candidate sha256Hex now (.refresh token) = none := by
  have hn : w.devices.rows.find? (·.refreshable (sha256Hex token) now) = none := by
    rw [find?_eq_none]
    intro _ hd hf
    simp only [Device.refreshable, and_eq_true, decide_eq_true_eq] at hf
    exact (h.unexchanged hs hd hf.1.1).2 deviceId he
  simp only [candidate, hn, map_none]

theorem dead_of_unrevoked_none (h : w.devices.rows.find? (·.unrevoked deviceId) = none) :
    w.Dead deviceId := by
  intro d hd hi hn
  have hno := find?_eq_none.mp h d hd
  simp [Device.unrevoked, hi, hn] at hno

theorem dead_of_update {devices : Table Device}
    (hu : w.devices.update (fun d => d.deviceId = deviceId && d.revokedAt.isNone)
      ({ · with revokedAt := some now }) = some devices) :
    ({ w with devices } : World).Dead deviceId := by
  intro _ hd hi
  obtain ⟨_, _, rfl⟩ := (mem_of_update hu).mp hd
  split_ifs at hi ⊢ with hp
  · nofun
  · intro hn
    exact hp (by simp [hi, hn])

theorem Answered.answers (h : w.Answered) (hs : w.Sound sha256Hex)
    (hsh : Function.Injective sha256Hex) (hac : w.replaysHandled act = true)
    (hef : Effect sha256Hex w act w') : w.Answers w' := by
  cases hef with
  | expired | started => exact .silent rfl rfl
  | @began _ call =>
    refine .set rfl rfl fun deviceId hp => ?_
    obtain ⟨token, ht, hex⟩ := bind_eq_some_iff.mp hp
    cases call with
    | refresh =>
      cases ht
      exact ⟨token, rfl, exchanged_of_exchangedDevice hex, trivial⟩
    | logout =>
      cases ht
      have hn : w.exchangedDevice token = none := by simpa [replaysHandled] using hac
      rw [hn] at hex
      cases hex
    | _ => cases ht
  | @found n r hr =>
    refine .set rfl rfl ((h.requests n r hr).next rfl fun deviceId token _ hc he => ?_)
    rw [hc, hs.candidate_refresh hsh he]
    trivial
  | @ended n r _ hr _ hno =>
    have hn := (h.requests n r hr).none_of_exchangesNothing hno
    exact .ended r none rfl (by simp [World.finish]) nofun (by simp [hn])
  | @approved n accountId secret now presented _ id key hr =>
    have hn := (h.requests n _ hr).none_of_exchangesNothing rfl
    refine .ended ⟨.approve accountId id secret, now, presented, .found key⟩
      (if w.authorizations.rows.any (DeviceAuthorization.approvable id (sha256Hex secret) now)
        then some (.approved id accountId) else none) rfl ?_ ?_
      fun _ hso => nomatch hn.symm.trans hso
    · split_ifs <;> rfl
    · split_ifs <;> nofun
  | heldAuthorization hr =>
    exact .set rfl rfl (.of_none ((h.requests _ _ hr).none_of_exchangesNothing rfl))
  | @issued n _ _ _ deviceId _ _ accountId _ _ _ _ _ id _ hr =>
    have hn := (h.requests n _ hr).none_of_exchangesNothing rfl
    exact .ended _ (some (.issued id deviceId accountId)) rfl rfl nofun fun _ hso =>
      nomatch hn.symm.trans hso
  | unmatched hr => exact .set rfl rfl ((h.requests _ _ hr).next rfl fun _ _ _ _ _ => trivial)
  | heldDevice hr =>
    refine .set rfl rfl (.of_none ?_)
    rw [eq_none_iff_forall_ne_some]
    intro deviceId hp
    obtain ⟨_, -, -, hat⟩ := h.requests _ _ hr deviceId hp
    exact hat
  | @rotated n token _ _ _ _ _ _ key hr =>
    have hn := (h.requests n _ hr).none_of_held rfl
    exact .ended _ (some (.exchanged token key)) rfl rfl nofun fun _ hso =>
      nomatch hn.symm.trans hso
  | @rolledBack n r _ _ hr _ hh =>
    have hn := (h.requests n r hr).none_of_held hh
    exact .ended r none rfl (by simp [World.finish, release]) nofun (by simp [hn])
  | @replayAbsent n token now presented hr ha =>
    have hn : presented = none := by
      rw [eq_none_iff_forall_ne_some]
      intro deviceId hp
      obtain ⟨_, hc, he, -⟩ := h.requests n _ hr deviceId hp
      cases hc
      obtain ⟨_, hre, -⟩ := hs.exchanged_replay token deviceId he
      rw [ha] at hre
      cases hre
    exact .ended ⟨.refresh token, now, presented, .unmatched⟩ none rfl (by simp [World.finish])
      nofun (by simp [hn])
  | @replayFound n token _ _ _ hr hre =>
    refine .set rfl rfl ((h.requests n _ hr).next rfl fun deviceId token' _ hc he => ?_)
    cases hc
    obtain ⟨_, hr', hde⟩ := hs.exchanged_replay token deviceId he
    cases hre.symm.trans hr'
    exact hde
  | @revoking n _ _ _ id hr =>
    refine .set rfl rfl ((h.requests n _ hr).next rfl fun deviceId token hp _ _ => ?_)
    obtain ⟨_, -, -, rfl⟩ := h.requests n _ hr deviceId hp
    cases hf : w.devices.rows.find? (·.unrevoked id) with
    | none => exact dead_of_unrevoked_none hf
    | some =>
      have hd := find?_some hf
      simp only [Device.unrevoked, and_eq_true, decide_eq_true_eq] at hd
      exact hd.1
  | @settled n call now presented hr =>
    refine .ended ⟨call, now, presented, .revoking none⟩ none rfl (by simp [World.finish]) nofun
      fun deviceId hp => ?_
    obtain ⟨token, -, he, hdd⟩ := h.requests n _ hr deviceId hp
    exact ⟨(hs.exchanged_drawn token deviceId he).2, hdd⟩
  | @revoked n r _ _ _ _ key hr _ hca _ hu =>
    refine .ended r none rfl (by simp [World.finish]) nofun fun deviceId hp => ?_
    obtain ⟨token, -, he, hat⟩ := h.requests n _ hr deviceId hp
    obtain hno | ⟨hst, rfl⟩ := hca
    · have hn := (h.requests n r hr).none_of_exchangesNothing hno
      rw [hn] at hp
      cases hp
    · rw [hst] at hat
      subst hat
      exact ⟨(hs.exchanged_drawn token key he).2, dead_of_update hu⟩
  | @failed _ r hr =>
    have hn : r.presented = none := by simpa [replaysHandled, hr] using hac
    exact .ended r none rfl (by simp [World.finish, release]) nofun (by simp [hn])

theorem drawn_of_effect {id : String} (he : Effect sha256Hex w act w') (h : id ∈ w.drawn) :
    id ∈ w'.drawn := by
  cases he <;> first | exact h | exact mem_append_right _ h

theorem Answered.step (h : w.Answered) (hs : w.Sound sha256Hex)
    (hsh : Function.Injective sha256Hex) (ha : w.replaysHandled act = true)
    (hef : Effect sha256Hex w act w') : w'.Answered := by
  obtain ⟨events, hh, hev, hre, hrq⟩ := h.answers hs hsh ha hef
  have hde {deviceId : String} (hdr : deviceId ∈ w.drawn) (hd : w.Dead deviceId) := hd.step hdr hef
  constructor
  · intro n r hr
    obtain hr | hr := hrq n r hr
    · refine (h.requests n r hr).mono (fun e he => ?_) fun token deviceId he hd => ?_
      · rw [hh]
        exact mem_append_left events he
      · exact (hde (hs.exchanged_drawn token deviceId he).2 hd).1
    · exact hr
  · intro deviceId he
    rw [hh] at he
    obtain he | he := mem_append.mp he
    · obtain ⟨ho, hd⟩ := h.replayed deviceId he
      exact ⟨(hde ho hd).2.1, (hde ho hd).1⟩
    · obtain ⟨ho, hd⟩ := hre deviceId he
      exact ⟨drawn_of_effect hef ho, hd⟩
  · rw [hh]
    refine pairwise_append.mpr ⟨h.after, hev, ?_⟩
    rintro (_ | _ | _ | deviceId) he (_ | _ | ⟨token, _⟩ | _) he' <;> try exact not_false
    rintro rfl
    -- The exchange would be one that the history has already.
    obtain ⟨ho, hd⟩ := h.replayed deviceId he
    have hb := (hde ho hd).2.2 token (hh ▸ mem_append_right w.history he')
    have hon := (hs.step hsh hef).once
    rw [hh] at hon
    exact (pairwise_append.mp hon).2.2 _ hb _ he' rfl

theorem sound_empty : ({} : World).Sound sha256Hex := Ledger.init

theorem answered_empty : ({} : World).Answered := ⟨nofun, nofun, .nil⟩

/-- With one hash for one token, a device has at most one token that can be exchanged. -/
theorem exchangeable_unique (hs : Function.Injective sha256Hex)
    (h : w.exchangeable sha256Hex token now = some deviceId)
    (h' : w.exchangeable sha256Hex token' now' = some deviceId) : token = token' := by
  obtain ⟨d, hd, hi⟩ := map_eq_some_iff.mp h
  obtain ⟨d', hd', hi'⟩ := map_eq_some_iff.mp h'
  have hh := find?_some hd
  have hh' := find?_some hd'
  simp only [Device.refreshable, and_eq_true, decide_eq_true_eq] at hh hh'
  obtain rfl : d = d' := w.devices.eq_of_key (mem_of_find?_eq_some hd)
    (mem_of_find?_eq_some hd') (hi.trans hi'.symm)
  exact hs (hh.1.1.symm.trans hh'.1.1)

end World

section Runs

variable {Allowed : World → Act → Prop} {w w' : World}

theorem sound_of_reachable (hs : Function.Injective sha256Hex)
    (h : (sessions sha256Hex Allowed).Reachable w) : w.Sound sha256Hex := by
  refine h.invariant (I := World.Sound sha256Hex) ?_ ?_
  · rintro _ rfl
    exact World.sound_empty
  · rintro _ _ ha ⟨_, -, hac⟩
    exact ha.step hs (step_effect hac)

theorem answered_of_reachable (hsh : Function.Injective sha256Hex)
    (h : (sessions sha256Hex fun w act => w.replaysHandled act = true).Reachable w) :
    w.Sound sha256Hex ∧ w.Answered := by
  refine h.invariant (I := fun w => w.Sound sha256Hex ∧ w.Answered) ?_ ?_
  · rintro _ rfl
    exact ⟨World.sound_empty, World.answered_empty⟩
  · rintro _ _ ⟨hs, ha⟩ ⟨_, hh, hac⟩
    have he := step_effect hac
    exact ⟨hs.step hsh he, ha.step hs hsh hh he⟩

theorem dead_of_run (hr : (sessions sha256Hex Allowed).Run w w') (hdr : deviceId ∈ w.drawn)
    (hd : w.Dead deviceId) : deviceId ∈ w'.drawn ∧ w'.Dead deviceId ∧
      ∀ token, .exchanged token deviceId ∈ w'.history → .exchanged token deviceId ∈ w.history := by
  induction hr with
  | refl => exact ⟨hdr, hd, fun _ => id⟩
  | tail _ hs ih =>
    obtain ⟨_, -, ha⟩ := hs
    obtain ⟨hdr', hd', hev⟩ := ih
    obtain ⟨hde, hd'', hn⟩ := hd'.step hdr' (step_effect ha)
    exact ⟨hd'', hde, fun token he => hev token (hn token he)⟩

end Runs

/-- Devices come from their authorizations, one each and for the approving account, a token is
exchanged once, a device has one token to exchange, and a revoked one none, in every run. A replayed
token shuts its device out in the runs in which no logout presents such a token and no request that
does is cut off. -/
theorem refresh_tokens_rotate (sha256Hex : String → String) (hsha : Function.Injective sha256Hex) :
    (∀ w, (sessions sha256Hex fun _ _ => True).Reachable w →
      (∀ d ∈ w.devices, ∃ id, .issued id d.deviceId d.accountId ∈ w.history) ∧
      (∀ id deviceId accountId, .issued id deviceId accountId ∈ w.history →
        .approved id accountId ∈ w.history) ∧
      w.history.Pairwise (fun e e' => ¬e.Repeats e') ∧
      (∀ token token' deviceId now now', w.exchangeable sha256Hex token now = some deviceId →
        w.exchangeable sha256Hex token' now' = some deviceId → token = token') ∧
      ∀ d ∈ w.devices, d.revokedAt ≠ none →
        ∀ w', (sessions sha256Hex fun _ _ => True).Run w w' → ¬w'.Accepts sha256Hex d.deviceId ∧
          ∀ token, .exchanged token d.deviceId ∈ w'.history →
            .exchanged token d.deviceId ∈ w.history) ∧
    ∀ w, (sessions sha256Hex fun w act => w.replaysHandled act = true).Reachable w →
      (∀ deviceId, .replayed deviceId ∈ w.history → ¬w.Accepts sha256Hex deviceId) ∧
      w.history.Pairwise fun e e' => ¬e.Precludes e' := by
  constructor
  · intro w h
    have hsound := sound_of_reachable hsha h
    refine ⟨hsound.device_issued, hsound.issued_approved, hsound.once,
      fun _ _ _ _ _ => World.exchangeable_unique hsha, fun d hd hrevoked w' hr => ?_⟩
    have hdead : w.Dead d.deviceId := by
      intro d' hd' hid
      obtain rfl : d' = d := w.devices.eq_of_key hd' hd hid
      exact hrevoked
    obtain ⟨-, hdead', hevents⟩ := dead_of_run hr (hsound.device_drawn d hd) hdead
    exact ⟨hdead'.not_accepts, hevents⟩
  · intro _ h
    obtain ⟨-, ha⟩ := answered_of_reachable hsha h
    exact ⟨fun deviceId he => (ha.replayed deviceId he).2.not_accepts, ha.after⟩

def signInAndRefresh : List Act :=
  [.startDeviceAuthorization "laptop" DeviceCapability.all "auth-1" "AAAA" "poll-1"
      "notary_approval_1" 0,
    .begin 0 (.approve "acc-1" "auth-1" "notary_approval_1") 1, .find 0,
    .approveDeviceAuthorization 0,
    .begin 1 (.complete "auth-1" "poll-1") 2, .find 1, .lockDeviceAuthorization 1,
    .completeDeviceAuthorization 1 "dev-1" "refresh-1" "notary_access_1",
    .begin 2 (.refresh "refresh-1") 3, .find 2, .lockDevice 2,
    .refreshDeviceTokens 2 "refresh-2" "notary_access_2"]

theorem exists_sessionRun (Allowed : World → Act → Prop) [∀ w a, Decidable (Allowed w a)]
    {P : World → Prop} [DecidablePred P] (acts : List Act)
    (h : (Transition.System.runActs (World.step id) Allowed {} (signInAndRefresh ++ acts)).any
      (P ·) = true) :
    ∃ w, (sessions id Allowed).Reachable w ∧ P w :=
  (Transition.System.Reachable.init (S := sessions id _) rfl).exists_runActs
    (fun _ act _ hallowed hstep => ⟨act, hallowed, hstep⟩) _ h

theorem refresh_tokens_rotate_sample :
    ∃ w : World, .replayed "dev-1" ∈ w.history ∧ .exchanged "refresh-1" "dev-1" ∈ w.history ∧
      ¬w.Accepts id "dev-1" := by
  obtain ⟨w, hreach, hreplayed, hexchanged⟩ :=
    exists_sessionRun (fun w act => w.replaysHandled act = true)
      [.begin 3 (.refresh "refresh-1") 4, .find 3, .lockDevice 3, .findReplay 3, .findReplayed 3,
        .revokeReplayed 3]
      (P := fun w => .replayed "dev-1" ∈ w.history ∧ .exchanged "refresh-1" "dev-1" ∈ w.history)
      (by decide)
  exact ⟨w, hreplayed, hexchanged,
    ((refresh_tokens_rotate id injective_id).2 w hreach).1 "dev-1" hreplayed⟩

/-- A logout with a token that was exchanged before ends well and revokes nothing. -/
theorem logout_keeps_replayed_device :
    ∃ w, (sessions id fun _ _ => True).Reachable w ∧ .exchanged "refresh-1" "dev-1" ∈ w.history ∧
      .replayed "dev-1" ∈ w.history ∧
      w.exchangeable id "refresh-2" 5 = some "dev-1" ∧
      w.resolveToken id "notary_access_1" 5 = some ("acc-1", "dev-1", "laptop") :=
  exists_sessionRun _
    [.begin 3 (.logout "refresh-1") 4, .find 3, .logoutDeviceSession 3] (by decide)

end Notary.Devices
