import Notary.Lib.Transition

/-! The daemon's account session: browser authorizations, logouts, status lookups and the calls
that need an access token, each a task that reads and writes the stored credentials. -/

namespace Notary.Daemon.Account

variable {Origin : Type}

/-- A bearer text and the API origin that issued it. -/
structure Token (Origin : Type) where
  issuer : Origin
  text : String
  deriving DecidableEq

/-- `credentials.json`. Without a token of its own the file refers to the keychain. -/
structure FileCredentials (Origin : Type) where
  apiOrigin : Origin
  refreshToken : Option (Token Origin)
  deriving DecidableEq

structure Credentials (Origin : Type) where
  apiOrigin : Origin
  refreshToken : Token Origin
  deriving DecidableEq

/-- The environment names an origin and may hold an API key, which the operator got there. -/
structure Environment (Origin : Type) where
  apiOrigin : Origin
  apiKey : Option String
  deriving DecidableEq

inductive CredentialConfiguration (Origin : Type)
  | anonymous (origin : Origin)
  | apiKey (origin : Origin) (accessToken : Token Origin)
  | deviceSession (origin : Origin)
  deriving DecidableEq

/-- The places where credentials are kept. -/
structure Store (Origin : Type) where
  file : Option (FileCredentials Origin) := none
  keychain : Option (Token Origin) := none
  deriving DecidableEq

/-- An API key and a stored session exclude each other. -/
def credentialConfiguration (env : Environment Origin) (store : Store Origin) :
    Option (CredentialConfiguration Origin) :=
  match env.apiKey, store.file with
  | some _, some _ => none
  | some key, none => some (.apiKey env.apiOrigin ⟨env.apiOrigin, key⟩)
  | none, some file => some (.deviceSession file.apiOrigin)
  | none, none => some (.anonymous env.apiOrigin)

/-- How a write to the keychain ends; one that reports an error may have been done. -/
inductive KeychainWrite
  | stored | refused | unreported
  deriving DecidableEq

/-- How the two writes of one save end. -/
structure SaveOutcome where
  keychain : KeychainWrite
  written : Bool
  deriving DecidableEq

namespace Store

def loadCredentials (store : Store Origin) : Option (Credentials Origin) :=
  match store.file with
  | none => none
  | some ⟨apiOrigin, some refreshToken⟩ => some ⟨apiOrigin, refreshToken⟩
  | some ⟨apiOrigin, none⟩ => store.keychain.map (⟨apiOrigin, ·⟩)

/-- The file that a save writes: without the token if the keychain took it. An empty token
looks like none. -/
def savedFile (credentials : Credentials Origin) : KeychainWrite → FileCredentials Origin
  | .stored => ⟨credentials.apiOrigin, none⟩
  | _ => ⟨credentials.apiOrigin,
      if credentials.refreshToken.text = "" then none else some credentials.refreshToken⟩

def saveCredentials (store : Store Origin) (credentials : Credentials Origin)
    (outcome : SaveOutcome) : Store Origin where
  file := if outcome.written then some (savedFile credentials outcome.keychain) else store.file
  keychain :=
    if outcome.keychain = .refused then store.keychain else some credentials.refreshToken

def deleteCredentials (store : Store Origin) (keychainDeleted : Bool) : Store Origin where
  file := none
  keychain := if keychainDeleted then none else store.keychain

end Store

/-- How far a task is. A request in flight has the origin that is to answer it, which redirects
may change. -/
inductive Task (Origin : Type)
  | polling (origin addressed : Origin)
  | completing (credentials : Credentials Origin)
  | revoking (refreshToken : Token Origin) (addressed : Origin)
  | lookingUp (origin : Origin)
  | authenticating
  | refreshing (credentials : Credentials Origin) (origin addressed : Origin)
  | authenticated (origin : Origin) (accessToken : Token Origin)
  deriving DecidableEq

structure Session (Origin : Type) where
  store : Store Origin := {}
  guard : Option ℕ := none
  tasks : ℕ → Option (Task Origin) := fun _ => none
  /-- Every token that left the daemon, with the origin it went to. -/
  sent : List (Token Origin × Origin) := []

inductive Act (Origin : Type)
  | startPoll (task : ℕ) (origin : Origin)
  | completePoll (task : ℕ) (refreshToken : String)
  | savePoll (task : ℕ) (outcome : SaveOutcome)
  | startLogout (task : ℕ)
  | finishLogout (task : ℕ) (keychainDeleted : Bool)
  | startStatus (task : ℕ)
  | startAuthentication (task : ℕ)
  | refresh (task : ℕ)
  | answerRefresh (task : ℕ) (refreshToken accessToken : String) (outcome : SaveOutcome)
  | useToken (task : ℕ)
  | redirect (task : ℕ) (target : Origin)
  | fail (task : ℕ)
  deriving DecidableEq

namespace Session

def setTask (s : Session Origin) (n : ℕ) (task : Option (Task Origin)) : Session Origin :=
  { s with tasks := Function.update s.tasks n task }

def send (s : Session Origin) (token : Token Origin) (destination : Origin) : Session Origin :=
  { s with sent := (token, destination) :: s.sent }

def release (s : Session Origin) (n : ℕ) : Session Origin :=
  { s with guard := if s.guard = some n then none else s.guard }

/-- The credentials that a refresh loads, and the origin it asks: a status lookup asks the one
that it read with the configuration. -/
def refreshRequest (s : Session Origin) : Task Origin → Option (Credentials Origin × Origin)
  | .lookingUp origin => s.store.loadCredentials.map (·, origin)
  | .authenticating => s.store.loadCredentials.map fun c => (c, c.apiOrigin)
  | _ => none

/-- The next request of a redirect, with the refresh token that its body repeats. -/
def redirected (target : Origin) : Task Origin → Option (Task Origin × Option (Token Origin))
  | .polling origin _ => some (.polling origin target, none)
  | .revoking token _ => some (.revoking token target, some token)
  | .refreshing credentials origin _ =>
    some (.refreshing credentials origin target, some credentials.refreshToken)
  | _ => none

def step (env : Environment Origin) (s : Session Origin) : Act Origin → Option (Session Origin)
  | .startPoll n origin =>
    if (s.tasks n).isNone ∧ env.apiKey = none then
      some (s.setTask n (some (.polling origin origin)))
    else none
  | .completePoll n refreshToken =>
    match s.tasks n with
    | some (.polling origin addressed) =>
      some (s.setTask n (some (.completing ⟨origin, ⟨addressed, refreshToken⟩⟩)))
    | _ => none
  | .savePoll n outcome =>
    match s.tasks n with
    | some (.completing credentials) =>
      if s.guard = none then
        some ({ s with store := s.store.saveCredentials credentials outcome }.setTask n none)
      else none
    | _ => none
  | .startLogout n =>
    if (s.tasks n).isNone ∧ s.guard = none then
      match credentialConfiguration env s.store, s.store.loadCredentials with
      | some (.deviceSession _), some credentials =>
        let guarded := { s with guard := some n }
        some ((guarded.send credentials.refreshToken credentials.apiOrigin).setTask n
          (some (.revoking credentials.refreshToken credentials.apiOrigin)))
      | _, _ => none
    else none
  | .finishLogout n keychainDeleted =>
    match s.tasks n with
    | some (.revoking _ _) =>
      let deleted := { s with store := s.store.deleteCredentials keychainDeleted }
      some ((deleted.setTask n none).release n)
    | _ => none
  | .startStatus n =>
    if (s.tasks n).isNone then
      match credentialConfiguration env s.store with
      | some (.apiKey origin accessToken) =>
        some (s.setTask n (some (.authenticated origin accessToken)))
      | some (.deviceSession origin) => some (s.setTask n (some (.lookingUp origin)))
      | _ => none
    else none
  | .startAuthentication n =>
    if (s.tasks n).isNone then
      match credentialConfiguration env s.store with
      | some (.apiKey origin accessToken) =>
        some (s.setTask n (some (.authenticated origin accessToken)))
      | some (.deviceSession _) => some (s.setTask n (some .authenticating))
      | _ => none
    else none
  | .refresh n =>
    if s.guard = none then
      match (s.tasks n).bind s.refreshRequest with
      | some (credentials, origin) =>
        some (({ s with guard := some n }.send credentials.refreshToken origin).setTask n
          (some (.refreshing credentials origin origin)))
      | none => none
    else none
  | .answerRefresh n refreshToken accessToken outcome =>
    match s.tasks n with
    | some (.refreshing credentials origin addressed) =>
      let rotated : Credentials Origin := ⟨credentials.apiOrigin, ⟨addressed, refreshToken⟩⟩
      let saved := { s with store := s.store.saveCredentials rotated outcome }
      some ((saved.setTask n
        (if outcome.written then some (.authenticated origin ⟨addressed, accessToken⟩)
          else none)).release n)
    | _ => none
  | .useToken n =>
    match s.tasks n with
    | some (.authenticated origin accessToken) => some (s.send accessToken origin)
    | _ => none
  | .redirect n target =>
    match (s.tasks n).bind (redirected target) with
    | some (task, some token) => some ((s.send token target).setTask n (some task))
    | some (task, none) => some (s.setTask n (some task))
    | none => none
  | .fail n => some ((s.setTask n none).release n)

end Session

end Notary.Daemon.Account
