import Notary.Devices.Tokens

/-! What each step of the device requests does: the state it finds and the state it leaves. -/

namespace Notary.Devices
open Relational Option

/-- A call that presents no refresh token to be exchanged. -/
def Call.exchangesNothing : Call → Bool
  | refresh _ => false
  | _ => true

inductive Effect (sha256Hex : String → String) (w : World) : Act → World → Prop
  | expired {id : String} (hfree : w.authorizationLocks id = none) :
    Effect sha256Hex w (.deleteExpired id now)
      { w with
        authorizations := w.authorizations.delete fun r =>
          r.authorizationId = id && r.expiresAt ≤ now }
  | started
    {id : String}
    (hnew : id ∉ w.drawn) (hinsert : authorizations = w.authorizations ∨
      w.authorizations.insert ⟨id, code, sha256Hex poll, sha256Hex approval, name,
        now + deviceAuthorizationTtlSecs, none, none⟩ = some authorizations) :
    Effect sha256Hex w (.startDeviceAuthorization name capabilities id code poll approval now)
      { w with authorizations, drawn := [id, poll, approval] ++ w.drawn }
  | began (hidle : w.requests n = none) :
    Effect sha256Hex w (.begin n call now)
      (w.setRequest n (some ⟨call, now, call.refreshToken?.bind w.exchangedDevice, .begun⟩))
  | found (hrequest : w.requests n = some r) :
    Effect sha256Hex w (.find n) (w.setStage n r (.found (w.candidate sha256Hex r.now r.call)))
  | ended (hrequest : w.requests n = some r)
    (hact : ∀ m, act ≠ .fail m) (hnothing : r.call.exchangesNothing = true) :
    Effect sha256Hex w act (w.finish n r)
  | approved {id : String} {key : Option String}
    (hrequest : w.requests n = some ⟨.approve accountId id secret, now, presented, .found key⟩)
    (hfree : w.authorizationLocks id = none)
    (hupdate : w.authorizations.update (DeviceAuthorization.approvable id (sha256Hex secret) now)
      ({ · with approvedAccountId := some accountId }) = some authorizations) :
    Effect sha256Hex w (.approveDeviceAuthorization n)
      ({ w with
        authorizations
        history := w.history ++
          if w.authorizations.rows.any (DeviceAuthorization.approvable id (sha256Hex secret) now)
          then [Event.approved id accountId] else []
      }.finish n ⟨.approve accountId id secret, now, presented, .found key⟩)
  | heldAuthorization {id : String} {key : Option String}
    (hrequest : w.requests n = some ⟨.complete id secret, now, presented, .found key⟩)
    (hfree : w.authorizationLocks id = none) (hrow : w.authorizations.find? id = some a)
    (hunused : a.completedAt = none) :
    Effect sha256Hex w (.lockDeviceAuthorization n)
      ({ w with authorizationLocks := Function.update w.authorizationLocks id (some n)
      }.setStage n ⟨.complete id secret, now, presented, .found key⟩ (.held id))
  | issued {id : String} {key : String}
    (hrequest : w.requests n = some ⟨.complete id secret, now, presented, .held key⟩)
    (hdevice : deviceId ∉ w.drawn) (hrefresh : refreshToken ∉ w.drawn)
    (hrow : w.authorizations.find? id = some a) (happroved : a.approvedAccountId = some accountId)
    (hinsert : w.devices.insert ⟨deviceId, accountId, deviceName, sha256Hex refreshToken, now,
      now + deviceRefreshTokenTtlSecs, none⟩ = some devices)
    (hopen : w.authorizations.rows.any (fun a => a.authorizationId = id && a.completedAt.isNone &&
      now < a.expiresAt && a.approvedAccountId.isSome) = true)
    (hupdate : w.authorizations.update (fun a => a.authorizationId = id &&
        a.completedAt.isNone && now < a.expiresAt && a.approvedAccountId.isSome)
      ({ · with completedAt := some now }) = some authorizations) :
    Effect sha256Hex w (.completeDeviceAuthorization n deviceId refreshToken accessToken)
      ({ w.release n with
        authorizations, devices, accessTokens
        drawn := [deviceId, refreshToken, accessToken] ++ w.drawn
        history := w.history ++ [Event.issued id deviceId accountId]
      }.finish n ⟨.complete id secret, now, presented, .held key⟩)
  | unmatched {key : Option String}
    (hrequest : w.requests n = some ⟨.refresh token, now, presented, .found key⟩) :
    Effect sha256Hex w (.lockDevice n)
      (w.setStage n ⟨.refresh token, now, presented, .found key⟩ .unmatched)
  | heldDevice {key : String}
    (hrequest : w.requests n = some ⟨.refresh token, now, presented, .found (some key)⟩)
    (hfree : w.deviceLocks key = none) (hrow : w.devices.find? key = some d)
    (hfresh : d.refreshable (sha256Hex token) now = true) :
    Effect sha256Hex w (.lockDevice n)
      ({ w with deviceLocks := Function.update w.deviceLocks key (some n)
      }.setStage n ⟨.refresh token, now, presented, .found (some key)⟩ (.held key))
  | rotated {key : String}
    (hrequest : w.requests n = some ⟨.refresh token, now, presented, .held key⟩)
    (hrefresh : refreshToken ∉ w.drawn)
    (hopen : w.devices.rows.any
      (fun d => d.deviceId = key && d.refreshable (sha256Hex token) now) = true)
    (hupdate : w.devices.update
        (fun d => d.deviceId = key && d.refreshable (sha256Hex token) now)
        ({ · with refreshTokenHash := sha256Hex refreshToken, lastUsedAt := now }) = some devices) :
    Effect sha256Hex w (.refreshDeviceTokens n refreshToken accessToken)
      ({ w.release n with
        devices, accessTokens
        replays := (w.replays.insert ⟨sha256Hex token, key, now⟩).getD w.replays
        drawn := [refreshToken, accessToken] ++ w.drawn
        history := w.history ++ [Event.exchanged token key]
      }.finish n ⟨.refresh token, now, presented, .held key⟩)
  | rolledBack {key : String} (hrequest : w.requests n = some r)
    (hact : ∀ m, act ≠ .fail m) (hheld : r.stage = .held key) :
    Effect sha256Hex w act ((w.release n).finish n r)
  | replayAbsent
    (hrequest : w.requests n = some ⟨.refresh token, now, presented, .unmatched⟩)
    (habsent : w.replays.find? (sha256Hex token) = none) :
    Effect sha256Hex w (.findReplay n) (w.finish n ⟨.refresh token, now, presented, .unmatched⟩)
  | replayFound
    (hrequest : w.requests n = some ⟨.refresh token, now, presented, .unmatched⟩)
    (hreplay : w.replays.find? (sha256Hex token) = some replay) :
    Effect sha256Hex w (.findReplay n)
      (w.setStage n ⟨.refresh token, now, presented, .unmatched⟩ (.replay replay.deviceId))
  | revoking {id : String}
    (hrequest : w.requests n = some ⟨call, now, presented, .replay id⟩) :
    Effect sha256Hex w (.findReplayed n)
      (w.setStage n ⟨call, now, presented, .replay id⟩
        (.revoking ((w.devices.rows.find? (·.unrevoked id)).map (·.deviceId))))
  | settled
    (hrequest : w.requests n = some ⟨call, now, presented, .revoking none⟩) :
    Effect sha256Hex w (.revokeReplayed n) (w.finish n ⟨call, now, presented, .revoking none⟩)
  | revoked {key : String} (hrequest : w.requests n = some r) (hact : ∀ m, act ≠ .fail m)
    (hcause : r.call.exchangesNothing = true ∨
      r.stage = .revoking (some key) ∧ p = fun d => d.revokedAt.isNone)
    (hfree : w.deviceLocks key = none)
    (hupdate : w.devices.update (fun d => d.deviceId = key && p d)
      ({ · with revokedAt := some now }) = some devices) :
    Effect sha256Hex w act ({ w with devices }.finish n r)
  | failed (hrequest : w.requests n = some r) :
    Effect sha256Hex w (.fail n) ((w.release n).finish n r)

variable {sha256Hex : String → String} {n : ℕ}

namespace World

variable {w w' : World}

theorem revokeDevice_eq_some {id : String} (h : w.revokeDevice id p now = some w') :
    w.deviceLocks id = none ∧ ∃ devices, w.devices.update (fun d => d.deviceId = id && p d)
      ({ · with revokedAt := some now }) = some devices ∧ w' = { w with devices } := by
  unfold revokeDevice at h
  rw [ite_none_right_eq_some, map_eq_some_iff] at h
  obtain ⟨hf, devices, hu, rfl⟩ := h
  exact ⟨hf, devices, hu, rfl⟩

theorem startDeviceAuthorization_effect {id code poll approval : String}
    (h : w.startDeviceAuthorization sha256Hex name capabilities id code poll approval now =
      some w') : Effect sha256Hex w
      (.startDeviceAuthorization name capabilities id code poll approval now) w' := by
  unfold startDeviceAuthorization at h
  split at h
  · cases h
  · split at h
    · cases h
    · split at h
      · cases h
      · rename_i hd
        cases h
        have hn : id ∉ w.drawn := fun hm => hd (.inl hm)
        refine .started hn ?_
        cases hi : w.authorizations.insert ⟨id, code, sha256Hex poll, sha256Hex approval, name,
          now + deviceAuthorizationTtlSecs, none, none⟩ with
        | none => exact .inl rfl
        | some authorizations => exact .inr rfl

theorem approveDeviceAuthorization_effect (h : w.approveDeviceAuthorization sha256Hex n = some w') :
    Effect sha256Hex w (.approveDeviceAuthorization n) w' := by
  unfold approveDeviceAuthorization at h
  split at h
  · rename_i hr
    split at h
    · cases h
      exact .ended hr nofun rfl
    · rw [ite_none_right_eq_some, map_eq_some_iff] at h
      obtain ⟨hf, _, hu, rfl⟩ := h
      exact .approved hr hf hu
  · cases h

theorem lockDeviceAuthorization_effect (h : w.lockDeviceAuthorization sha256Hex n = some w') :
    Effect sha256Hex w (.lockDeviceAuthorization n) w' := by
  unfold lockDeviceAuthorization at h
  split at h
  · rename_i hr
    split at h
    · cases h
      exact .ended hr nofun rfl
    · rw [ite_none_right_eq_some] at h
      obtain ⟨hf, h⟩ := h
      split at h
      · cases h
        exact .ended hr nofun rfl
      · rename_i a ha
        obtain ⟨hro, -⟩ := filter_eq_some_iff.mp ha
        split at h
        · cases h
          exact .ended hr nofun rfl
        · rename_i ho
          cases h
          have hu : a.completedAt = none := by
            by_contra hn
            exact ho (.inr (.inl (isSome_iff_ne_none.mpr hn)))
          exact .heldAuthorization hr hf hro hu
  · cases h

theorem completeDeviceAuthorization_effect
    (h : w.completeDeviceAuthorization sha256Hex n deviceId refreshToken accessToken = some w') :
    Effect sha256Hex w (.completeDeviceAuthorization n deviceId refreshToken accessToken) w' := by
  unfold completeDeviceAuthorization at h
  split at h
  · rename_i hr
    dsimp only at h
    split at h
    · cases h
    · rename_i hd
      split at h
      · rename_i hac _
        split at h
        · cases h
          exact .rolledBack hr nofun rfl
        · rename_i ho
          split at h
          · rename_i hi _ hu
            cases h
            obtain ⟨_, hro, ha⟩ := bind_eq_some_iff.mp hac
            exact .issued hr (fun hm => hd (.inl hm)) (fun hm => hd (.inr (.inl hm))) hro ha hi
              (not_not.mp ho) hu
          · cases h
      · cases h
  · cases h

theorem lockDevice_effect (h : w.lockDevice sha256Hex n = some w') :
    Effect sha256Hex w (.lockDevice n) w' := by
  unfold lockDevice at h
  split at h
  · rename_i hr
    split at h
    · cases h
      exact .unmatched hr
    · rw [ite_none_right_eq_some] at h
      obtain ⟨hfr, h⟩ := h
      split at h
      · rename_i hf
        cases h
        obtain ⟨_, hd⟩ := isSome_iff_exists.mp (isSome_of_any hf)
        rw [hd, any_some] at hf
        exact .heldDevice hr hfr hd hf
      · cases h
        exact .unmatched hr
  · cases h

theorem refreshDeviceTokens_effect
    (h : w.refreshDeviceTokens sha256Hex n refreshToken accessToken = some w') :
    Effect sha256Hex w (.refreshDeviceTokens n refreshToken accessToken) w' := by
  unfold refreshDeviceTokens at h
  split at h
  · rename_i hr
    dsimp only at h
    split at h
    · cases h
    · rename_i hd
      split at h
      · cases h
        exact .rolledBack hr nofun rfl
      · rename_i ho
        split at h
        · rename_i hu _
          cases h
          exact .rotated hr (fun hm => hd (.inl hm)) (not_not.mp ho) hu
        · cases h
  · cases h

theorem findReplay_effect (h : w.findReplay sha256Hex n = some w') :
    Effect sha256Hex w (.findReplay n) w' := by
  unfold findReplay at h
  split at h
  · rename_i hr
    split at h
    · rename_i ha
      cases h
      exact .replayAbsent hr ha
    · rename_i hre
      cases h
      exact .replayFound hr hre
  · cases h

theorem revokeReplayed_effect (h : w.revokeReplayed n = some w') :
    Effect sha256Hex w (.revokeReplayed n) w' := by
  unfold revokeReplayed at h
  split at h
  · rename_i hr
    split at h
    · cases h
      exact .settled hr
    · obtain ⟨_, hre, rfl⟩ := map_eq_some_iff.mp h
      obtain ⟨hf, _, hu, rfl⟩ := revokeDevice_eq_some hre
      exact .revoked hr nofun (.inr ⟨rfl, rfl⟩) hf hu
  · cases h

theorem logoutDeviceSession_effect (h : w.logoutDeviceSession sha256Hex n = some w') :
    Effect sha256Hex w (.logoutDeviceSession n) w' := by
  unfold logoutDeviceSession at h
  split at h
  · rename_i hr
    split at h
    · cases h
      exact .ended hr nofun rfl
    · obtain ⟨_, hre, rfl⟩ := map_eq_some_iff.mp h
      obtain ⟨hf, _, hu, rfl⟩ := revokeDevice_eq_some hre
      exact .revoked hr nofun (.inl rfl) hf hu
  · cases h

theorem revokeWebDeviceSession_effect (h : w.revokeWebDeviceSession n = some w') :
    Effect sha256Hex w (.revokeWebDeviceSession n) w' := by
  unfold revokeWebDeviceSession at h
  split at h
  · rename_i hr
    split at h
    · cases h
      exact .ended hr nofun rfl
    · obtain ⟨_, hre, rfl⟩ := map_eq_some_iff.mp h
      obtain ⟨hf, _, hu, rfl⟩ := revokeDevice_eq_some hre
      exact .revoked hr nofun (.inl rfl) hf hu
  · cases h

theorem step_effect (h : w.step sha256Hex act = some w') :
    Effect sha256Hex w act w' := by
  cases act with
  | deleteExpired =>
    simp only [step, deleteExpired, ite_none_right_eq_some] at h
    obtain ⟨hf, he⟩ := h
    cases he
    exact .expired hf
  | startDeviceAuthorization =>
    exact startDeviceAuthorization_effect h
  | begin =>
    simp only [step, begin, ite_none_right_eq_some] at h
    obtain ⟨⟨hi, -⟩, he⟩ := h
    cases he
    exact .began hi
  | find =>
    simp only [step, find] at h
    split at h
    · rename_i hr
      rw [ite_none_right_eq_some] at h
      cases h.2
      exact .found hr
    · cases h
  | approveDeviceAuthorization => exact approveDeviceAuthorization_effect h
  | lockDeviceAuthorization => exact lockDeviceAuthorization_effect h
  | completeDeviceAuthorization =>
    exact completeDeviceAuthorization_effect h
  | lockDevice => exact lockDevice_effect h
  | refreshDeviceTokens => exact refreshDeviceTokens_effect h
  | findReplay => exact findReplay_effect h
  | findReplayed =>
    simp only [step, findReplayed] at h
    split at h
    · rename_i hr
      cases h
      exact .revoking hr
    · cases h
  | revokeReplayed => exact revokeReplayed_effect h
  | logoutDeviceSession => exact logoutDeviceSession_effect h
  | revokeWebDeviceSession => exact revokeWebDeviceSession_effect h
  | fail =>
    obtain ⟨_, hr, rfl⟩ := map_eq_some_iff.mp h
    exact .failed hr

end World

end Notary.Devices
