import Notary.Lib.Crash
import Notary.Lib.Hex

/-! The local vault in passphrase mode: what initialisations that are killed leave behind, and when
the next run gets a vault. -/

namespace Notary.Core.Vault
open Crash Crash.Prog
open Utf8 (Bytes bytes text?)

inductive VaultMode
  | os | passphrase
  deriving DecidableEq

structure VaultConfig where
  format : String
  mode : VaultMode
  saltHex : Option String
  deriving DecidableEq

def configFormat : String := "notary/vault/v1"
def keyCheckPlaintext : Bytes := bytes "notary vault key check"

/-- The configuration of a passphrase vault. -/
def passphraseConfig (saltHex : String) : VaultConfig := ⟨configFormat, .passphrase, some saltHex⟩

/-- The libraries of the vault: JSON, Argon2, the authenticated cipher with its tag, and the key
store of the operating system. -/
structure Crates where
  Key : Type
  toVecPretty : VaultConfig → Bytes
  fromSlice : Bytes → Option VaultConfig
  fromSlice_toVecPretty : ∀ saltHex,
    fromSlice (toVecPretty (passphraseConfig saltHex)) = some (passphraseConfig saltHex)
  hashPassword : Bytes → Bytes → Option Key
  hashPassword_salt : ∀ passphrase salt, salt.length = 16 → (hashPassword passphrase salt).isSome
  encrypt : Key → Bytes → Bytes → Bytes
  decrypt : Key → Bytes → Bytes → Option Bytes
  decrypt_encrypt : ∀ key nonce plaintext,
    decrypt key nonce (encrypt key nonce plaintext) = some plaintext
  length_encrypt : ∀ key nonce plaintext, 16 ≤ (encrypt key nonce plaintext).length
  readOsKey : Except String Key

inductive VaultFile
  | config | keyCheck
  deriving DecidableEq

abbrev Disk := VaultFile → Option Bytes

/-- A step goes through, or the process is killed in it. A write that is killed leaves so many of
its bytes. -/
inductive Fault
  | pass
  | kill (written : ℕ)
  deriving DecidableEq

abbrev VaultM := Prog Fault Disk String

/-! ### Files -/

def read {α : Type} (f : Disk → Except String α) : VaultM α :=
  fun faults s => ofExcept (f s) faults s

def createNew (file : VaultFile) (error : String) : VaultM Unit := step fun
  | some (.kill _), s => (.killed, s)
  | _, s =>
    if s file = none then (.done (), Function.update s file (some [])) else (.failed error, s)

def writeAll (file : VaultFile) (content : Bytes) : VaultM Unit := step fun
  | some (.kill written), s => (.killed, Function.update s file (some (content.take written)))
  | _, s => (.done (), Function.update s file (some content))

def syncAll : VaultM Unit := step fun
  | some (.kill _), s => (.killed, s)
  | _, s => (.done (), s)

def removeFile (file : VaultFile) : VaultM Unit := step fun
  | some (.kill _), s => (.killed, s)
  | _, s => (.done (), Function.update s file none)

/-- `create_new`, `write_all` and `sync_all`. -/
def writeNew (file : VaultFile) (content : Bytes) (error : String) : VaultM Unit := do
  createNew file error
  writeAll file content
  syncAll

variable (c : Crates)

def writeConfig (config : VaultConfig) : VaultM Unit :=
  writeNew .config (c.toVecPretty config) "creating vault configuration"

def writeKeyCheck (encoded : String) : VaultM Unit :=
  writeNew .keyCheck (bytes encoded) "creating vault key check"

def readConfig (s : Disk) : Except String VaultConfig :=
  match s .config with
  | none => .error "reading vault configuration"
  | some content =>
    match c.fromSlice content with
    | none => .error "invalid vault configuration"
    | some config =>
      if config.format = configFormat then .ok config
      else .error "unsupported vault configuration format"

def readKeyCheck (s : Disk) : Except String (Option String) :=
  match s .keyCheck with
  | none => .ok none
  | some content =>
    match text? content with
    | none => .error "reading vault key check"
    | some encoded => .ok (some encoded)

/-! ### Keys -/

def derivePassphraseKey (passphrase saltHex : String) : Except String c.Key :=
  match Hex.decode saltHex with
  | none => .error "invalid vault salt"
  | some salt =>
    match c.hashPassword (bytes passphrase) salt with
    | none => .error "deriving vault key failed"
    | some key => .ok key

def createKeyCheck (key : c.Key) (nonce : Bytes) : String :=
  Hex.encode (nonce ++ c.encrypt key nonce keyCheckPlaintext)

def verifyKeyCheck (key : c.Key) (encoded : String) : Except String Unit :=
  match Hex.decode encoded with
  | none => .error "decoding vault key check"
  | some check =>
    if check.length < 24 + 16 then .error "vault key check is invalid"
    else
      match c.decrypt key (check.take 24) (check.drop 24) with
      | none => .error "the vault passphrase is incorrect"
      | some plaintext =>
        if plaintext = keyCheckPlaintext then .ok () else .error "vault key check is invalid"

/-! ### Opening and initialising -/

def openAt (passphrase : Option String) (s : Disk) : Except String c.Key := do
  let config ← readConfig c s
  match config.mode with
  | .os => c.readOsKey
  | .passphrase =>
    match passphrase, config.saltHex with
    | none, _ => .error "this vault requires a passphrase"
    | some _, none => .error "passphrase vault is missing a salt"
    | some passphrase, some saltHex => do
      let key ← derivePassphraseKey c passphrase saltHex
      match ← readKeyCheck s with
      | none => .error "passphrase vault is missing its key verifier"
      | some keyCheck => do
        verifyKeyCheck c key keyCheck
        pure key

/-- The passphrase is the one of the passphrase file, or of the prompt. -/
def openInteractive (passphrase : String) (s : Disk) : Except String c.Key := do
  let config ← readConfig c s
  match config.mode with
  | .os => openAt c none s
  | .passphrase => openAt c (some passphrase) s

def initPassphraseAt (passphrase : String) (salt : Vector UInt8 16) (nonce : Vector UInt8 24) :
    VaultM c.Key := do
  read fun s => if s .config = none then .ok () else .error "a vault is already initialized"
  let saltHex := Hex.encode salt.toList
  let key ← ofExcept (derivePassphraseKey c passphrase saltHex)
  writeKeyCheck (createKeyCheck c key nonce.toList)
  match ← attempt (writeConfig c (passphraseConfig saltHex)) with
  | .ok () => pure key
  | .error error => do
    discard (attempt (removeFile .keyCheck))
    fail error

/-- With a passphrase file. -/
def openOrInitInteractive (passphrase : String) (salt : Vector UInt8 16)
    (nonce : Vector UInt8 24) : VaultM c.Key := do
  if ← read fun s => .ok (s .config).isSome then read (openInteractive c passphrase)
  else initPassphraseAt c passphrase salt nonce

structure Initialisation where
  salt : Vector UInt8 16
  nonce : Vector UInt8 24
  faults : List Fault

/-- The files after a sequence of initialisations with one passphrase. -/
def afterAll (passphrase : String) (inits : List Initialisation) : Disk :=
  inits.foldl (fun s i => (initPassphraseAt c passphrase i.salt i.nonce).after i.faults s)
    fun _ => none

/-- The initialisation is not killed after it has created the key check and before the
configuration is complete: its first step creates the one, its fifth writes the other. -/
def Initialisation.spared (i : Initialisation) : Bool :=
  ((i.faults.drop 1).take 4).all (· = .pass)

variable {c} {passphrase : String} {salt : Vector UInt8 16} {nonce : Vector UInt8 24} {key : c.Key}
  {s : Disk}

theorem derivePassphraseKey_salt (passphrase : String) (salt : Vector UInt8 16) :
    ∃ key, derivePassphraseKey c passphrase (Hex.encode salt.toList) = .ok key := by
  have hs := c.hashPassword_salt (bytes passphrase) salt.toList salt.length_toList
  obtain ⟨key, hk⟩ := Option.isSome_iff_exists.mp hs
  exact ⟨key, by simp only [derivePassphraseKey, Hex.decode_encode, hk]⟩

theorem verifyKeyCheck_create (key : c.Key) (nonce : Vector UInt8 24) :
    verifyKeyCheck c key (createKeyCheck c key nonce.toList) = .ok () := by
  have hn : nonce.toList.length = 24 := nonce.length_toList
  have hl := c.length_encrypt key nonce.toList keyCheckPlaintext
  have hc : ¬(nonce.toList ++ c.encrypt key nonce.toList keyCheckPlaintext).length < 24 + 16 := by
    rw [List.length_append]
    omega
  simp only [verifyKeyCheck, createKeyCheck, Hex.decode_encode, if_neg hc, List.take_left' hn,
    List.drop_left' hn, c.decrypt_encrypt, if_true]

/-- The files of a vault. -/
def vaultFiles (c : Crates) (key : c.Key) (salt : Vector UInt8 16) (nonce : Vector UInt8 24) : Disk
  | .config => some (c.toVecPretty (passphraseConfig (Hex.encode salt.toList)))
  | .keyCheck => some (bytes (createKeyCheck c key nonce.toList))

theorem openInteractive_vaultFiles (nonce : Vector UInt8 24)
    (hk : derivePassphraseKey c passphrase (Hex.encode salt.toList) = .ok key) :
    openInteractive c passphrase (vaultFiles c key salt nonce) = .ok key := by
  have hr : readConfig c (vaultFiles c key salt nonce) =
      .ok (passphraseConfig (Hex.encode salt.toList)) := by
    simp only [readConfig, vaultFiles, c.fromSlice_toVecPretty]
    rfl
  have hc : readKeyCheck (vaultFiles c key salt nonce) =
      .ok (some (createKeyCheck c key nonce.toList)) := by
    simp only [readKeyCheck, vaultFiles, Utf8.text?_bytes]
  simp only [openInteractive, openAt, hr, bind, Except.bind, passphraseConfig, hk, hc,
    verifyKeyCheck_create]
  rfl

theorem writeNew_pass (hs : s file = none) (hf : (faults.take 2).all (· = .pass)) :
    writeNew file content error faults s =
      syncAll (faults.drop 2) (Function.update s file (some content)) := by
  have hu (t : Bytes) : Function.update (Function.update s file (some t)) file (some content) =
      Function.update s file (some content) := Function.update_idem ..
  rcases faults with _ | ⟨_ | _, _ | ⟨_ | _, _⟩⟩ <;>
    simp_all [writeNew, createNew, writeAll, bind, Prog.bind, step]

/-- An initialisation that gets through its writes has a vault, even if it is killed after them. -/
theorem initPassphraseAt_pass (faults : List Fault) (hf : (faults.take 5).all (· = .pass))
    (hk : derivePassphraseKey c passphrase (Hex.encode salt.toList) = .ok key) :
    initPassphraseAt c passphrase salt nonce faults (fun _ => none) =
      (syncAll >>= fun _ => pure key) (faults.drop 5) (vaultFiles c key salt nonce) := by
  have hd : Function.update (Function.update (fun _ => none) .keyCheck
      (some (bytes (createKeyCheck c key nonce.toList)))) .config
      (some (c.toVecPretty (passphraseConfig (Hex.encode salt.toList)))) =
      vaultFiles c key salt nonce := by
    funext file
    cases file <;> rfl
  have hw : writeKeyCheck (createKeyCheck c key nonce.toList) faults (fun _ => none) =
      (.done (), Function.update (fun _ => none) .keyCheck
        (some (bytes (createKeyCheck c key nonce.toList))), faults.drop 3) := by
    rcases faults with _ | ⟨_ | _, _ | ⟨_ | _, _ | ⟨_ | _, _⟩⟩⟩ <;>
      simp_all [writeKeyCheck, writeNew_pass, syncAll, step]
  have hc : writeConfig c (passphraseConfig (Hex.encode salt.toList)) (faults.drop 3)
      (Function.update (fun _ => none) .keyCheck
        (some (bytes (createKeyCheck c key nonce.toList)))) =
      syncAll (faults.drop 5) (vaultFiles c key salt nonce) := by
    rw [writeConfig, writeNew_pass rfl, hd, List.drop_drop]
    rw [List.all_eq_true] at hf ⊢
    intro fault hm
    rw [List.take_drop] at hm
    exact hf fault (List.mem_of_mem_drop hm)
  simp only [initPassphraseAt, hk]
  refine (bind_of_done (a := ()) rfl).trans ((bind_of_done (a := key) rfl).trans
    ((bind_of_done hw).trans ?_))
  change Prog.bind (attempt _) _ _ _ = Prog.bind syncAll _ _ _
  rw [Prog.bind, attempt, hc, Prog.bind]
  rcases faults.drop 5 with _ | ⟨_ | _, _⟩ <;> rfl

/-- No file is there yet, or those of a vault that the passphrase opens. -/
def Settled (c : Crates) (passphrase : String) (s : Disk) : Prop :=
  s = (fun _ => none) ∨ ∃ key salt nonce, s = vaultFiles c key salt nonce ∧
    derivePassphraseKey c passphrase (Hex.encode salt.toList) = .ok key

theorem Settled.init {i : Initialisation} (h : Settled c passphrase s) (hi : i.spared = true) :
    Settled c passphrase ((initPassphraseAt c passphrase i.salt i.nonce).after i.faults s) := by
  obtain rfl | ⟨key, salt, nonce, rfl, hk⟩ := h
  · obtain ⟨key, hk⟩ := derivePassphraseKey_salt (c := c) passphrase i.salt
    rcases hf : i.faults with _ | ⟨_ | _, faults⟩
    · refine .inr ⟨key, i.salt, i.nonce, ?_, hk⟩
      rw [Prog.after, initPassphraseAt_pass [] rfl hk]
      rfl
    · refine .inr ⟨key, i.salt, i.nonce, ?_, hk⟩
      have hp : ((Fault.pass :: faults).take 5).all (· = .pass) := by
        simpa [Initialisation.spared, hf] using hi
      rw [Prog.after, initPassphraseAt_pass _ hp hk]
      rcases (Fault.pass :: faults).drop 5 with _ | ⟨_ | _, _⟩ <;> rfl
    · refine .inl ?_
      simp only [Prog.after, initPassphraseAt, hk]
      rfl
  · exact .inr ⟨key, salt, nonce, rfl, hk⟩

/-- After any initialisations that are not killed between the key check and the configuration, the
next run has a vault, and the passphrase opens it again. -/
theorem init_survives_kills (c : Crates) (passphrase : String) (inits : List Initialisation)
    (hspared : ∀ i ∈ inits, i.spared = true) (salt : Vector UInt8 16) (nonce : Vector UInt8 24) :
    ∃ key s, openOrInitInteractive c passphrase salt nonce [] (afterAll c passphrase inits) =
      (.done key, s, []) ∧ openInteractive c passphrase s = .ok key := by
  have hsettled : Settled c passphrase (afterAll c passphrase inits) :=
    List.foldlRecOn inits _ (.inl rfl) fun _ hs i hi => hs.init (hspared i hi)
  obtain hempty | ⟨key, _, nonce', hfiles, hkey⟩ := hsettled
  · obtain ⟨key, hkey⟩ := derivePassphraseKey_salt (c := c) passphrase salt
    refine ⟨key, _, ?_, openInteractive_vaultFiles nonce hkey⟩
    rw [hempty]
    refine (bind_of_done (a := false) rfl).trans ?_
    exact initPassphraseAt_pass [] rfl hkey
  · have hopen := openInteractive_vaultFiles nonce' hkey
    refine ⟨key, _, ?_, hopen⟩
    rw [hfiles]
    refine (bind_of_done (a := true) rfl).trans ?_
    simp only [if_true, read, hopen]
    rfl

/-- A cipher without secrets, and a configuration that is only its salt. -/
def sampleCrates : Crates where
  Key := Bytes
  toVecPretty config := bytes (config.saltHex.getD "")
  fromSlice content := (text? content).map passphraseConfig
  fromSlice_toVecPretty saltHex := by simp [passphraseConfig, Utf8.text?_bytes]
  hashPassword passphrase salt := some (passphrase ++ salt)
  hashPassword_salt _ _ _ := rfl
  encrypt _ _ plaintext := List.replicate 16 0 ++ plaintext
  decrypt _ _ ciphertext := some (ciphertext.drop 16)
  decrypt_encrypt _ _ _ := by simp
  length_encrypt _ _ _ := by simp
  readOsKey := .error "no key store"

/-- An initialisation that is killed after so many steps. -/
def killedAfter (steps : ℕ) : Initialisation :=
  ⟨.replicate 16 0, .replicate 24 0, List.replicate steps .pass ++ [.kill 0]⟩

theorem init_survives_kills_sample :
    ∃ key s, openOrInitInteractive sampleCrates "secret" (.replicate 16 1) (.replicate 24 1) []
        (afterAll sampleCrates "secret" [killedAfter 0, killedAfter 5]) = (.done key, s, []) ∧
      openInteractive sampleCrates "secret" s = .ok key :=
  init_survives_kills sampleCrates "secret" [killedAfter 0, killedAfter 5] (by decide) _ _

/-- A kill between the two files leaves the key check, which no later initialisation replaces. -/
theorem killed_init_blocks_vault :
    afterAll sampleCrates "secret" [killedAfter 3] .config = none ∧
      ∀ salt nonce, (openOrInitInteractive sampleCrates "secret" salt nonce []
        (afterAll sampleCrates "secret" [killedAfter 3])).1 =
          .failed "creating vault key check" := by
  obtain ⟨_, hold⟩ := derivePassphraseKey_salt (c := sampleCrates) "secret" (.replicate 16 0)
  have hfiles : afterAll sampleCrates "secret" [killedAfter 3] .config = none ∧
      afterAll sampleCrates "secret" [killedAfter 3] .keyCheck ≠ none := by
    simp only [afterAll, List.foldl_cons, List.foldl_nil, Prog.after, initPassphraseAt, killedAfter,
      hold]
    exact ⟨rfl, nofun⟩
  refine ⟨hfiles.1, fun salt _ => ?_⟩
  obtain ⟨_, hkey⟩ := derivePassphraseKey_salt (c := sampleCrates) "secret" salt
  simp [openOrInitInteractive, initPassphraseAt, bind, Prog.bind, read, Prog.ofExcept, hfiles, hkey,
    writeKeyCheck, writeNew, createNew, step, Prog.pure]

end Notary.Core.Vault
