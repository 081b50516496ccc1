import Notary.Lib.Table
import Notary.Lib.Transition

/-! Device authorization and refresh tokens under `READ COMMITTED`. A statement that locks a row
finds it in the snapshot it begins with, waits for the row's lock, and then looks at the row as it
is committed by then. -/

namespace Notary.Devices
open Relational

structure DeviceAuthorization where
  authorizationId : String
  userCode : String
  pollSecretHash : String
  approvalSecretHash : String
  deviceName : String
  expiresAt : ℤ
  approvedAccountId : Option String
  completedAt : Option ℤ
  deriving DecidableEq

instance : Schema DeviceAuthorization where
  Key := String
  key := DeviceAuthorization.authorizationId
  Check _ := True
  Clash r s := r.userCode = s.userCode

structure Device where
  deviceId : String
  accountId : String
  deviceName : String
  refreshTokenHash : String
  lastUsedAt : ℤ
  expiresAt : ℤ
  revokedAt : Option ℤ
  deriving DecidableEq

instance : Schema Device where
  Key := String
  key := Device.deviceId
  Check _ := True
  Clash r s := r.refreshTokenHash = s.refreshTokenHash

structure RefreshReplay where
  tokenHash : String
  deviceId : String
  usedAt : ℤ
  deriving DecidableEq

instance : Schema RefreshReplay where
  Key := String
  key := RefreshReplay.tokenHash
  Check _ := True
  Clash _ _ := False

structure AccessToken where
  tokenHash : String
  deviceId : String
  expiresAt : ℤ
  deriving DecidableEq

instance : Schema AccessToken where
  Key := String
  key := AccessToken.tokenHash
  Check _ := True
  Clash _ _ := False

def deviceAuthorizationTtlSecs : ℤ := 10 * 60
def deviceAccessTokenTtlSecs : ℤ := 15 * 60
def deviceRefreshTokenTtlSecs : ℤ := 90 * 24 * 60 * 60

inductive DeviceCapability
  | hostedNotarization | consumeCredits | shareNotarizedTraces
  deriving DecidableEq

def DeviceCapability.all : List DeviceCapability :=
  [hostedNotarization, consumeCredits, shareNotarizedTraces]

/-! The conditions of the statements that lock a row. -/

/-- The approval of an authorization. -/
def DeviceAuthorization.approvable (authorizationId approvalSecretHash : String) (now : ℤ)
    (r : DeviceAuthorization) : Bool :=
  r.authorizationId = authorizationId && r.approvalSecretHash = approvalSecretHash &&
    now < r.expiresAt && r.approvedAccountId.isNone && r.completedAt.isNone

/-- The row that a poll locks. -/
def DeviceAuthorization.polled (authorizationId pollSecretHash : String)
    (r : DeviceAuthorization) : Bool :=
  r.authorizationId = authorizationId && r.pollSecretHash = pollSecretHash

/-- The device that a refresh locks. -/
def Device.refreshable (refreshTokenHash : String) (now : ℤ) (r : Device) : Bool :=
  r.refreshTokenHash = refreshTokenHash && r.revokedAt.isNone && now < r.expiresAt

/-- The device that a logout revokes. -/
def Device.signedIn (refreshTokenHash : String) (r : Device) : Bool :=
  r.refreshTokenHash = refreshTokenHash && r.revokedAt.isNone

/-- The device that its owner revokes. -/
def Device.revocable (accountId deviceId : String) (now : ℤ) (r : Device) : Bool :=
  r.deviceId = deviceId && r.accountId = accountId && r.revokedAt.isNone && now < r.expiresAt

/-- The device that a replayed token revokes. -/
def Device.unrevoked (deviceId : String) (r : Device) : Bool :=
  r.deviceId = deviceId && r.revokedAt.isNone

/-! ### Requests -/

inductive Call
  | approve (accountId authorizationId approvalSecret : String)
  | complete (authorizationId pollSecret : String)
  | refresh (refreshToken : String)
  | logout (refreshToken : String)
  | revoke (accountId deviceId : String)
  deriving DecidableEq

def Call.refreshToken? : Call → Option String
  | refresh token | logout token => some token
  | approve _ _ _ | complete _ _ | revoke _ _ => none

/-- `approval_secret`, the check of the header. -/
def Call.wellFormed : Call → Bool
  | approve _ _ secret =>
    "notary_approval_".toList.isPrefixOf secret.toList && secret.utf8ByteSize ≤ 256
  | _ => true

/-- How far a request is. `found` and `revoking` have the row of the statement's snapshot and wait
for its lock, `held` has the lock inside a transaction, and `unmatched` is a refresh whose token is
of no device, which then asks whether it was of one before. -/
inductive Stage
  | begun
  | found (key : Option String)
  | held (key : String)
  | unmatched
  | replay (deviceId : String)
  | revoking (key : Option String)
  deriving DecidableEq

structure Request where
  call : Call
  now : ℤ
  /-- The device whose refresh token, exchanged before, the request presents. -/
  presented : Option String
  stage : Stage
  deriving DecidableEq

/-- What has happened, in the order in which it took effect. -/
inductive Event
  | approved (authorizationId accountId : String)
  | issued (authorizationId deviceId accountId : String)
  | exchanged (refreshToken deviceId : String)
  /-- A request that presented an exchanged token of the device has ended. -/
  | replayed (deviceId : String)
  deriving DecidableEq

structure World where
  authorizations : Table DeviceAuthorization := ∅
  devices : Table Device := ∅
  replays : Table RefreshReplay := ∅
  accessTokens : Table AccessToken := ∅
  authorizationLocks : String → Option ℕ := fun _ => none
  deviceLocks : String → Option ℕ := fun _ => none
  requests : ℕ → Option Request := fun _ => none
  /-- The identifiers and secrets drawn so far; a new one is none of them. -/
  drawn : List String := []
  history : List Event := []

namespace World

def setRequest (w : World) (n : ℕ) (request : Option Request) : World :=
  { w with requests := Function.update w.requests n request }

def setStage (w : World) (n : ℕ) (r : Request) (stage : Stage) : World :=
  w.setRequest n (some { r with stage })

/-- The device that a token was exchanged for. -/
def exchangedDevice (w : World) (token : String) : Option String :=
  w.history.findSome? fun
    | .exchanged refreshToken deviceId => if refreshToken = token then some deviceId else none
    | _ => none

def finish (w : World) (n : ℕ) (r : Request) : World :=
  { w with
    requests := Function.update w.requests n none
    history := w.history ++ (r.presented.map Event.replayed).toList }

/-! ### Starting an authorization -/

/-- The rows that every start deletes, one at a time. -/
def deleteExpired (w : World) (authorizationId : String) (now : ℤ) : Option World :=
  if w.authorizationLocks authorizationId = none then
    some { w with
      authorizations := w.authorizations.delete fun r =>
        r.authorizationId = authorizationId && r.expiresAt ≤ now }
  else none

/-- One try of `INSERT ... ON CONFLICT DO NOTHING`. -/
def startDeviceAuthorization (w : World) (sha256Hex : String → String)
    (deviceName : String) (capabilities : List DeviceCapability)
    (authorizationId userCode pollSecret approvalSecret : String) (now : ℤ) : Option World :=
  if deviceName.utf8ByteSize = 0 ∨ 120 < deviceName.utf8ByteSize then none
  else if capabilities.length ≠ DeviceCapability.all.length ∨
      ¬DeviceCapability.all.all capabilities.contains then none
  else if authorizationId ∈ w.drawn ∨ pollSecret ∈ w.drawn ∨ approvalSecret ∈ w.drawn then none
  else
    let row : DeviceAuthorization :=
      { authorizationId, userCode, deviceName
        pollSecretHash := sha256Hex pollSecret
        approvalSecretHash := sha256Hex approvalSecret
        expiresAt := now + deviceAuthorizationTtlSecs
        approvedAccountId := none, completedAt := none }
    some { w with
      authorizations := (w.authorizations.insert row).getD w.authorizations
      drawn := [authorizationId, pollSecret, approvalSecret] ++ w.drawn }

/-! ### The steps of a request -/

def begin (w : World) (n : ℕ) (call : Call) (now : ℤ) : Option World :=
  if w.requests n = none ∧ call.wellFormed then
    some (w.setRequest n
      (some ⟨call, now, call.refreshToken?.bind w.exchangedDevice, .begun⟩))
  else none

/-- The row that the first statement of a request finds in its snapshot. -/
def candidate (w : World) (sha256Hex : String → String) (now : ℤ) : Call → Option String
  | .approve _ id secret => (w.authorizations.rows.find?
      (·.approvable id (sha256Hex secret) now)).map (·.authorizationId)
  | .complete id secret => (w.authorizations.rows.find?
      (·.polled id (sha256Hex secret))).map (·.authorizationId)
  | .refresh token => (w.devices.rows.find? (·.refreshable (sha256Hex token) now)).map (·.deviceId)
  | .logout token => (w.devices.rows.find? (·.signedIn (sha256Hex token))).map (·.deviceId)
  | .revoke accountId id => (w.devices.rows.find? (·.revocable accountId id now)).map (·.deviceId)

def find (w : World) (sha256Hex : String → String) (n : ℕ) : Option World :=
  match w.requests n with
  | some r =>
    if r.stage = .begun then
      some (w.setStage n r (.found (w.candidate sha256Hex r.now r.call)))
    else none
  | none => none

/-- `UPDATE devices SET revoked_at = now WHERE device_id = id AND p`, once the row is free. -/
def revokeDevice (w : World) (id : String) (p : Device → Bool) (now : ℤ) : Option World :=
  if w.deviceLocks id = none then
    (w.devices.update (fun r => r.deviceId = id && p r) ({ · with revokedAt := some now })).map
      fun devices => { w with devices }
  else none

/-- The end of a transaction gives its locks back. -/
def release (w : World) (n : ℕ) : World :=
  { w with
    authorizationLocks := fun id =>
      if w.authorizationLocks id = some n then none else w.authorizationLocks id
    deviceLocks := fun id => if w.deviceLocks id = some n then none else w.deviceLocks id }

def approveDeviceAuthorization (w : World) (sha256Hex : String → String) (n : ℕ) : Option World :=
  match w.requests n with
  | some ⟨.approve accountId id secret, now, presented, .found key⟩ =>
    let r : Request := ⟨.approve accountId id secret, now, presented, .found key⟩
    match key with
    | none => some (w.finish n r)
    | some _ =>
      if w.authorizationLocks id = none then
        let p := DeviceAuthorization.approvable id (sha256Hex secret) now
        (w.authorizations.update p ({ · with approvedAccountId := some accountId })).map
          fun authorizations => { w with
            authorizations
            history := w.history ++
              if w.authorizations.rows.any p then [Event.approved id accountId] else [] }.finish n r
      else none
  | _ => none

/-- The poll locks its authorization, and goes on only if it was approved and not used. -/
def lockDeviceAuthorization (w : World) (sha256Hex : String → String) (n : ℕ) : Option World :=
  match w.requests n with
  | some ⟨.complete id secret, now, presented, .found key⟩ =>
    let r : Request := ⟨.complete id secret, now, presented, .found key⟩
    match key with
    | none => some (w.finish n r)
    | some _ =>
      if w.authorizationLocks id = none then
        match (w.authorizations.find? id).filter (·.polled id (sha256Hex secret)) with
        | none => some (w.finish n r)
        | some a =>
          if a.expiresAt ≤ now ∨ a.completedAt.isSome ∨ a.approvedAccountId.isNone then
            some (w.finish n r)
          else
            some ({ w with
              authorizationLocks := Function.update w.authorizationLocks id (some n)
            }.setStage n r (.held id))
      else none
  | _ => none

/-- The rest of the transaction, which touches only the locked row and new ones, and its commit. -/
def completeDeviceAuthorization (w : World) (sha256Hex : String → String) (n : ℕ)
    (deviceId refreshToken accessToken : String) : Option World :=
  match w.requests n with
  | some ⟨.complete id secret, now, presented, .held key⟩ =>
    let r : Request := ⟨.complete id secret, now, presented, .held key⟩
    let p := fun a : DeviceAuthorization => a.authorizationId = id && a.completedAt.isNone &&
      now < a.expiresAt && a.approvedAccountId.isSome
    if deviceId ∈ w.drawn ∨ refreshToken ∈ w.drawn ∨ accessToken ∈ w.drawn then none
    else
      match (w.authorizations.find? id).bind (·.approvedAccountId),
        (w.authorizations.find? id).map (·.deviceName) with
      | some accountId, some deviceName =>
        let device : Device :=
          { deviceId, accountId, deviceName
            refreshTokenHash := sha256Hex refreshToken
            lastUsedAt := now, expiresAt := now + deviceRefreshTokenTtlSecs, revokedAt := none }
        let access : AccessToken :=
          ⟨sha256Hex accessToken, deviceId, now + deviceAccessTokenTtlSecs⟩
        if ¬w.authorizations.rows.any p then some ((w.release n).finish n r)
        else
          match w.devices.insert device, w.accessTokens.insert access,
            w.authorizations.update p ({ · with completedAt := some now }) with
          | some devices, some accessTokens, some authorizations =>
            some ({ w.release n with
              authorizations, devices, accessTokens
              drawn := [deviceId, refreshToken, accessToken] ++ w.drawn
              history := w.history ++ [Event.issued id deviceId accountId] }.finish n r)
          | _, _, _ => none
      | _, _ => none
  | _ => none

/-- The refresh locks the device of its token, if the row still has it by then. -/
def lockDevice (w : World) (sha256Hex : String → String) (n : ℕ) : Option World :=
  match w.requests n with
  | some ⟨.refresh token, now, presented, .found key⟩ =>
    let r : Request := ⟨.refresh token, now, presented, .found key⟩
    match key with
    | none => some (w.setStage n r .unmatched)
    | some key =>
      if w.deviceLocks key = none then
        if (w.devices.find? key).any (·.refreshable (sha256Hex token) now) then
          some ({ w with deviceLocks := Function.update w.deviceLocks key (some n) }.setStage n r
            (.held key))
        else some (w.setStage n r .unmatched)
      else none
  | _ => none

/-- The rest of a rotation and its commit. -/
def refreshDeviceTokens (w : World) (sha256Hex : String → String) (n : ℕ)
    (refreshToken accessToken : String) : Option World :=
  match w.requests n with
  | some ⟨.refresh token, now, presented, .held key⟩ =>
    let r : Request := ⟨.refresh token, now, presented, .held key⟩
    let p := fun d : Device => d.deviceId = key && d.refreshable (sha256Hex token) now
    let access : AccessToken := ⟨sha256Hex accessToken, key, now + deviceAccessTokenTtlSecs⟩
    if refreshToken ∈ w.drawn ∨ accessToken ∈ w.drawn then none
    else if ¬w.devices.rows.any p then some ((w.release n).finish n r)
    else
      match w.devices.update p
          ({ · with refreshTokenHash := sha256Hex refreshToken, lastUsedAt := now }),
        w.accessTokens.insert access with
      | some devices, some accessTokens =>
        some ({ w.release n with
          devices, accessTokens
          replays := (w.replays.insert ⟨sha256Hex token, key, now⟩).getD w.replays
          drawn := [refreshToken, accessToken] ++ w.drawn
          history := w.history ++ [Event.exchanged token key] }.finish n r)
      | _, _ => none
  | _ => none

/-- The second statement of a refresh whose token is of no device. -/
def findReplay (w : World) (sha256Hex : String → String) (n : ℕ) : Option World :=
  match w.requests n with
  | some ⟨.refresh token, now, presented, .unmatched⟩ =>
    let r : Request := ⟨.refresh token, now, presented, .unmatched⟩
    match w.replays.find? (sha256Hex token) with
    | none => some (w.finish n r)
    | some replay => some (w.setStage n r (.replay replay.deviceId))
  | _ => none

/-- The snapshot of the third, which revokes the device. -/
def findReplayed (w : World) (n : ℕ) : Option World :=
  match w.requests n with
  | some ⟨call, now, presented, .replay id⟩ =>
    some (w.setStage n ⟨call, now, presented, .replay id⟩
      (.revoking ((w.devices.rows.find? (·.unrevoked id)).map (·.deviceId))))
  | _ => none

def revokeReplayed (w : World) (n : ℕ) : Option World :=
  match w.requests n with
  | some ⟨call, now, presented, .revoking key⟩ =>
    let r : Request := ⟨call, now, presented, .revoking key⟩
    match key with
    | none => some (w.finish n r)
    | some key => (w.revokeDevice key (·.revokedAt.isNone) now).map (·.finish n r)
  | _ => none

def logoutDeviceSession (w : World) (sha256Hex : String → String) (n : ℕ) : Option World :=
  match w.requests n with
  | some ⟨.logout token, now, presented, .found key⟩ =>
    let r : Request := ⟨.logout token, now, presented, .found key⟩
    match key with
    | none => some (w.finish n r)
    | some key => (w.revokeDevice key (·.signedIn (sha256Hex token)) now).map (·.finish n r)
  | _ => none

def revokeWebDeviceSession (w : World) (n : ℕ) : Option World :=
  match w.requests n with
  | some ⟨.revoke accountId id, now, presented, .found key⟩ =>
    let r : Request := ⟨.revoke accountId id, now, presented, .found key⟩
    match key with
    | none => some (w.finish n r)
    | some key => (w.revokeDevice key (·.revocable accountId id now) now).map (·.finish n r)
  | _ => none

/-- A request is cut off, and its transaction is rolled back. -/
def fail (w : World) (n : ℕ) : Option World :=
  (w.requests n).map fun r => (w.release n).finish n r

/-! ### What the service accepts -/

/-- The device that a refresh token could be exchanged for. -/
def exchangeable (w : World) (sha256Hex : String → String) (token : String) (now : ℤ) :
    Option String :=
  w.candidate sha256Hex now (.refresh token)

/-- The account, the device and its name that an access token stands for. -/
def resolveToken (w : World) (sha256Hex : String → String) (token : String) (now : ℤ) :
    Option (String × String × String) :=
  if ¬"notary_access_".toList.isPrefixOf token.toList then none
  else
    match w.accessTokens.find? (sha256Hex token) with
    | none => none
    | some access =>
      match w.devices.find? access.deviceId with
      | none => none
      | some d =>
        if now < access.expiresAt ∧ d.revokedAt.isNone ∧ now < d.expiresAt then
          some (d.accountId, d.deviceId, d.deviceName)
        else none

end World

inductive Act
  | deleteExpired (authorizationId : String) (now : ℤ)
  | startDeviceAuthorization (deviceName : String) (capabilities : List DeviceCapability)
    (authorizationId userCode pollSecret approvalSecret : String) (now : ℤ)
  | begin (n : ℕ) (call : Call) (now : ℤ)
  | find (n : ℕ)
  | approveDeviceAuthorization (n : ℕ)
  | lockDeviceAuthorization (n : ℕ)
  | completeDeviceAuthorization (n : ℕ) (deviceId refreshToken accessToken : String)
  | lockDevice (n : ℕ)
  | refreshDeviceTokens (n : ℕ) (refreshToken accessToken : String)
  | findReplay (n : ℕ)
  | findReplayed (n : ℕ)
  | revokeReplayed (n : ℕ)
  | logoutDeviceSession (n : ℕ)
  | revokeWebDeviceSession (n : ℕ)
  | fail (n : ℕ)
  deriving DecidableEq

def World.step (sha256Hex : String → String) (w : World) : Act → Option World
  | .deleteExpired id now => w.deleteExpired id now
  | .startDeviceAuthorization name capabilities id code poll approval now =>
    w.startDeviceAuthorization sha256Hex name capabilities id code poll approval now
  | .begin n call now => w.begin n call now
  | .find n => w.find sha256Hex n
  | .approveDeviceAuthorization n => w.approveDeviceAuthorization sha256Hex n
  | .lockDeviceAuthorization n => w.lockDeviceAuthorization sha256Hex n
  | .completeDeviceAuthorization n id refreshToken accessToken =>
    w.completeDeviceAuthorization sha256Hex n id refreshToken accessToken
  | .lockDevice n => w.lockDevice sha256Hex n
  | .refreshDeviceTokens n refreshToken accessToken =>
    w.refreshDeviceTokens sha256Hex n refreshToken accessToken
  | .findReplay n => w.findReplay sha256Hex n
  | .findReplayed n => w.findReplayed n
  | .revokeReplayed n => w.revokeReplayed n
  | .logoutDeviceSession n => w.logoutDeviceSession sha256Hex n
  | .revokeWebDeviceSession n => w.revokeWebDeviceSession n
  | .fail n => w.fail n

/-- The runs of the service in which every act meets a condition on the state it finds. -/
def sessions (sha256Hex : String → String) (Allowed : World → Act → Prop) :
    Transition.System World where
  Init w := w = {}
  Step w w' := ∃ act, Allowed w act ∧ w.step sha256Hex act = some w'

end Notary.Devices
