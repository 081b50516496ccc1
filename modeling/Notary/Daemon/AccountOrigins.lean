import Notary.Daemon.AccountSession

/-! Which runs of the account session keep every token with the origin that issued it. -/

namespace Notary.Daemon.Account
open Option

variable {Origin : Type}

/-- A save whose file is not written leaves a keychain that the old file may refer to. -/
def SaveSafe (store : Store Origin) (apiOrigin : Origin) (outcome : SaveOutcome) : Prop :=
  outcome.written = false → outcome.keychain ≠ .refused →
    ∀ file, store.file = some file → file.refreshToken = none → file.apiOrigin = apiOrigin

def Task.addressed? : Task Origin → Option Origin
  | polling _ addressed => some addressed
  | revoking _ addressed => some addressed
  | refreshing _ _ addressed => some addressed
  | _ => none

/-- A status lookup still finds the origin that it read, a save that fails half way leaves no
other origin's file over the new token, no answer carries an empty refresh token, and no request
is redirected to another origin. -/
def Session.Orderly (s : Session Origin) : Act Origin → Prop
  | .refresh n => ∀ origin, s.tasks n = some (.lookingUp origin) →
      ∀ file, s.store.file = some file → file.apiOrigin = origin
  | .completePoll _ refreshToken => refreshToken ≠ ""
  | .savePoll n outcome => ∀ credentials, s.tasks n = some (.completing credentials) →
      SaveSafe s.store credentials.apiOrigin outcome
  | .answerRefresh n refreshToken _ outcome => refreshToken ≠ "" ∧
      ∀ credentials origin addressed, s.tasks n = some (.refreshing credentials origin addressed) →
        SaveSafe s.store credentials.apiOrigin outcome
  | .redirect n target => ∀ task, s.tasks n = some task → task.addressed? = some target
  | _ => True

/-- Stored credentials hold a token of their own origin. -/
def Store.Own (store : Store Origin) : Prop :=
  ∀ c, store.loadCredentials = some c → c.refreshToken.issuer = c.apiOrigin

/-- The runs of the session from stored credentials of any origin, in which every act meets a
condition on the state it finds. -/
def sessions (env : Environment Origin) (Allowed : Session Origin → Act Origin → Prop) :
    Transition.System (Session Origin) where
  Init s := ∃ store : Store Origin, store.Own ∧ s = { store }
  Step s s' := ∃ act, Allowed s act ∧ s.step env act = some s'

def Task.Own : Task Origin → Prop
  | polling origin addressed => addressed = origin
  | completing c => c.refreshToken.issuer = c.apiOrigin ∧ c.refreshToken.text ≠ ""
  | revoking refreshToken addressed => refreshToken.issuer = addressed
  | lookingUp _ => True
  | authenticating => True
  | refreshing c origin addressed =>
    addressed = origin ∧ origin = c.apiOrigin ∧ c.refreshToken.issuer = c.apiOrigin
  | authenticated origin accessToken => accessToken.issuer = origin

structure Session.Own (s : Session Origin) : Prop where
  store : s.store.Own
  tasks : ∀ n task, s.tasks n = some task → task.Own
  sent : ∀ p ∈ s.sent, p.1.issuer = p.2

variable {store : Store Origin} {c : Credentials Origin}

theorem Store.file_of_load (h : store.loadCredentials = some c) :
    ∃ file, store.file = some file ∧ file.apiOrigin = c.apiOrigin := by
  unfold loadCredentials at h
  split at h
  · cases h
  · rename_i hf
    cases h
    exact ⟨_, hf, rfl⟩
  · rename_i hf
    obtain ⟨_, -, rfl⟩ := map_eq_some_iff.mp h
    exact ⟨_, hf, rfl⟩

theorem Store.Own.save (h : store.Own) (hon : c.refreshToken.issuer = c.apiOrigin)
    (ht : c.refreshToken.text ≠ "") (hs : SaveSafe store c.apiOrigin outcome) :
    (store.saveCredentials c outcome).Own := by
  obtain ⟨keychain, written⟩ := outcome
  intro loaded hl
  cases written with
  | true =>
    cases keychain <;> simp [saveCredentials, savedFile, loadCredentials, ht] at hl <;>
      exact hl ▸ hon
  | false =>
    -- The old file is still there; only the keychain may have changed.
    cases keychain with
    | refused => exact h loaded hl
    | stored | unreported =>
      rcases hf : store.file with _ | ⟨apiOrigin, _ | _⟩
      · simp [saveCredentials, loadCredentials, hf] at hl
      · have ho : apiOrigin = c.apiOrigin := hs rfl nofun _ hf rfl
        simp only [saveCredentials, loadCredentials, hf] at hl
        cases hl
        exact hon.trans ho.symm
      · refine h loaded ?_
        simpa [saveCredentials, loadCredentials, hf] using hl

theorem issuer_of_configuration
    (h : credentialConfiguration env store = some (.apiKey origin accessToken)) :
    accessToken.issuer = origin := by
  unfold credentialConfiguration at h
  split at h
  · cases h
  · cases h
    rfl
  · cases h
  · cases h

theorem Store.Own.delete :
    (store.deleteCredentials keychainDeleted).Own := by
  intro _ hl
  cases hl

namespace Session.Own

variable {s : Session Origin}

theorem setTask (h : s.Own) (ht : ∀ t, task = some t → t.Own) : (s.setTask n task).Own := by
  refine ⟨h.store, fun m t hm => ?_, h.sent⟩
  by_cases hn : m = n
  · subst hn
    exact ht t (by simpa [Session.setTask] using hm)
  · exact h.tasks m t (by simpa [Session.setTask, Function.update_of_ne hn] using hm)

theorem endTask (h : s.Own) (n : ℕ) : (s.setTask n none).Own :=
  h.setTask fun _ ht => by cases ht

theorem send (h : s.Own) (ht : token.issuer = destination) : (s.send token destination).Own :=
  ⟨h.store, h.tasks, List.forall_mem_cons.mpr ⟨ht, h.sent⟩⟩

theorem release (h : s.Own) (n : ℕ) : (s.release n).Own := ⟨h.store, h.tasks, h.sent⟩

theorem guarded (h : s.Own) (n : ℕ) : { s with guard := some n }.Own :=
  ⟨h.store, h.tasks, h.sent⟩

theorem withStore (h : s.Own) (hs : store.Own) : { s with store }.Own := ⟨hs, h.tasks, h.sent⟩

/-- A refresh in order asks the origin of the credentials that it loaded. -/
theorem refreshRequest (h : s.Own) (ht : s.tasks n = some task) (ho : s.Orderly (.refresh n))
    (hr : s.refreshRequest task = some (c, origin)) :
    origin = c.apiOrigin ∧ c.refreshToken.issuer = c.apiOrigin := by
  cases task with
  | lookingUp =>
    obtain ⟨_, hl, he⟩ := map_eq_some_iff.mp hr
    cases he
    obtain ⟨file, hf, hor⟩ := Store.file_of_load hl
    exact ⟨(ho _ ht file hf).symm.trans hor, h.store _ hl⟩
  | authenticating =>
    obtain ⟨_, hl, he⟩ := map_eq_some_iff.mp hr
    cases he
    exact ⟨rfl, h.store _ hl⟩
  | _ => cases hr

/-- A redirect within the origin repeats the token to its issuer. -/
theorem redirected {task next : Task Origin} {token : Option (Token Origin)} {target : Origin}
    (hta : task.Own) (ha : task.addressed? = some target)
    (hn : redirected target task = some (next, token)) :
    next.Own ∧ ∀ t, token = some t → t.issuer = target := by
  cases task with
  | polling =>
    cases hn
    cases ha
    exact ⟨hta, nofun⟩
  | revoking =>
    cases hn
    cases ha
    exact ⟨hta, fun _ ht => Option.some.inj ht ▸ hta⟩
  | refreshing =>
    cases hn
    cases ha
    obtain ⟨rfl, rfl, hi⟩ := hta
    exact ⟨⟨rfl, rfl, hi⟩, fun _ ht => Option.some.inj ht ▸ hi⟩
  | _ => cases hn

theorem step (h : s.Own) (ho : s.Orderly act) (hs : s.step env act = some s') : s'.Own := by
  cases act with
  | startPoll n origin =>
    simp only [Session.step, ite_none_right_eq_some] at hs
    obtain ⟨-, he⟩ := hs
    cases he
    exact h.setTask fun _ ht => Option.some.inj ht ▸ rfl
  | completePoll n refreshToken =>
    simp only [Session.step] at hs
    split at hs
    · rename_i origin addressed hta
      cases hs
      have hon : addressed = origin := h.tasks n _ hta
      exact h.setTask fun _ ht => Option.some.inj ht ▸ ⟨hon, ho⟩
    · cases hs
  | savePoll n outcome =>
    simp only [Session.step] at hs
    split at hs
    · rename_i hta
      rw [ite_none_right_eq_some] at hs
      cases hs.2
      obtain ⟨hi, hte⟩ := h.tasks n _ hta
      exact (h.withStore (h.store.save hi hte (ho _ hta))).endTask n
    · cases hs
  | startLogout n =>
    simp only [Session.step, ite_none_right_eq_some] at hs
    obtain ⟨-, hs⟩ := hs
    split at hs
    · rename_i hl
      cases hs
      have hi := h.store _ hl
      exact ((h.guarded n).send hi).setTask fun _ ht => Option.some.inj ht ▸ hi
    · cases hs
  | finishLogout n keychainDeleted =>
    simp only [Session.step] at hs
    split at hs
    · cases hs
      exact ((h.withStore Store.Own.delete).endTask n).release n
    · cases hs
  | startStatus n | startAuthentication n =>
    simp only [Session.step, ite_none_right_eq_some] at hs
    obtain ⟨-, hs⟩ := hs
    split at hs
    · rename_i hc
      cases hs
      exact h.setTask fun _ ht => Option.some.inj ht ▸ issuer_of_configuration hc
    · cases hs
      exact h.setTask fun _ ht => Option.some.inj ht ▸ trivial
    · cases hs
  | refresh n =>
    simp only [Session.step, ite_none_right_eq_some] at hs
    obtain ⟨-, hs⟩ := hs
    split at hs
    · rename_i hr
      cases hs
      obtain ⟨task, hta, hr⟩ := bind_eq_some_iff.mp hr
      obtain ⟨rfl, hi⟩ := h.refreshRequest hta ho hr
      exact ((h.guarded n).send hi).setTask fun _ ht => Option.some.inj ht ▸ ⟨rfl, rfl, hi⟩
    · cases hs
  | answerRefresh n refreshToken accessToken outcome =>
    simp only [Session.step] at hs
    split at hs
    · rename_i credentials _ _ hta
      cases hs
      obtain ⟨rfl, rfl, -⟩ := h.tasks n _ hta
      have hsa := h.store.save
        (c := ⟨credentials.apiOrigin, credentials.apiOrigin, refreshToken⟩) rfl ho.1
        (ho.2 credentials _ _ hta)
      refine ((h.withStore hsa).setTask fun t ht => ?_).release n
      split at ht
      · exact Option.some.inj ht ▸ rfl
      · cases ht
    · cases hs
  | useToken n =>
    simp only [Session.step] at hs
    split at hs
    · rename_i hta
      cases hs
      exact h.send (h.tasks n _ hta)
    · cases hs
  | redirect n target =>
    simp only [Session.step] at hs
    split at hs
    all_goals first | cases hs; done | skip
    all_goals
      rename_i hn
      obtain ⟨old, hol, hn⟩ := bind_eq_some_iff.mp hn
      obtain ⟨hown, hi⟩ := redirected (h.tasks n _ hol) (ho _ hol) hn
      cases hs
    · exact (h.send (hi _ rfl)).setTask fun _ ht => Option.some.inj ht ▸ hown
    · exact h.setTask fun _ ht => Option.some.inj ht ▸ hown
  | fail n =>
    cases hs
    exact (h.endTask n).release n

end Session.Own

/-- In every run whose acts are in order, each refresh token and each access token is sent only to
the API origin that issued it, and is stored only with that origin. -/
theorem tokens_stay_with_origin (env : Environment Origin) (s : Session Origin)
    (h : (sessions env Session.Orderly).Reachable s) :
    (∀ p ∈ s.sent, p.1.issuer = p.2) ∧ s.store.Own := by
  have hown : s.Own := by
    refine h.invariant ?_ ?_
    · rintro _ ⟨_, hstore, rfl⟩
      exact ⟨hstore, nofun, nofun⟩
    · rintro _ _ hs ⟨_, horderly, hstep⟩
      exact hs.step horderly hstep
  exact ⟨hown.sent, hown.store⟩

def sampleEnvironment : Environment String := ⟨"https://api.exalto.ai", none⟩

def runAll (env : Environment Origin) (acts : List (Act Origin)) : Option (Session Origin) :=
  Transition.System.runActs (fun s act => s.step env act) (fun _ _ => True) {} acts

def login (task : ℕ) (origin refreshToken : String) : List (Act String) := [
  .startPoll task origin, .completePoll task refreshToken, .savePoll task ⟨.stored, true⟩]

/-- A login and a logout: the refresh token goes back to where it came from. -/
theorem tokens_stay_with_origin_sample :
    ∃ s : Session String,
      s.sent = [(⟨"https://one.example", "refresh-1"⟩, "https://one.example")] ∧
      (∀ p ∈ s.sent, p.1.issuer = p.2) ∧ s.store.Own := by
  have hstart : (sessions sampleEnvironment Session.Orderly).Reachable {} :=
    .init ⟨{}, nofun, rfl⟩
  have hpolling := hstart.step ⟨.startPoll 0 "https://one.example", trivial, rfl⟩
  have htext : "refresh-1" ≠ "" := by decide
  have hcompleting := hpolling.step ⟨.completePoll 0 "refresh-1", htext, rfl⟩
  have hsaved := hcompleting.step ⟨.savePoll 0 ⟨.stored, true⟩, fun _ _ => nofun, rfl⟩
  have hrevoking := hsaved.step ⟨.startLogout 1, trivial, rfl⟩
  exact ⟨_, rfl, tokens_stay_with_origin sampleEnvironment _ hrevoking⟩

/-- A status lookup reads the origin of the stored session; before it gets the guard, another
login replaces the session. -/
def overtakenLookup : List (Act String) :=
  login 0 "https://one.example" "refresh-1" ++ [.startStatus 1] ++
    login 2 "https://two.example" "refresh-2" ++ [.refresh 1]

/-- The second origin's refresh token goes to the first origin. -/
theorem overtaken_lookup_leaks :
    (runAll sampleEnvironment overtakenLookup).map (·.sent) =
      some [(⟨"https://two.example", "refresh-2"⟩, "https://one.example")] := by
  decide

end Notary.Daemon.Account
