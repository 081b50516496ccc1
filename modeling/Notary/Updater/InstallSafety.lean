import Notary.Core.ArchiveRoundTrip
import Notary.Updater.Install

/-! An update that is killed anywhere, or whose steps fail, never leaves a mixed pair once recovery
has succeeded. -/

namespace Notary.Updater
open Function List
open Notary.Core (Crates toVec fromSliceRaw fromSliceRaw_toVec sampleCrates)
open Utf8 (Bytes)
open Json Crash Crash.Prog

/-! The rules of the steps. `Keeps` says that a condition does not look at a file. -/

def Keeps (P : Disk → Prop) (file : FileName) : Prop :=
  ∀ s v, P s → P (Function.update s file v)

variable {Q : Disk → Prop} {file source target backup partialFile pending left right : FileName}
  {contents data : Bytes} {buildId : String} {phase : JournalPhase}

section Rules

variable {I P : Disk → Prop}

section

variable (hI : ∀ s, P s → I s)
include hI

theorem sat_look {α : Type} {f : Disk → Except String α} {Q : α → Disk → Prop}
    (ho : ∀ s a, P s → f s = .ok a → Q a s) : Sat I P (look f) Q := by
  refine sat_step fun fault s hs => ?_
  rcases fault with _ | _ | _ | _
  case some.error => exact hI s hs
  case some.kill => exact hI s hs
  all_goals
    rcases hf : f s with _ | a
    · simpa [hf] using hI s hs
    · simpa [hf] using ho s a hs hf

theorem sat_change {f : Disk → Except String Disk} (ho : ∀ s s', P s → f s = .ok s' → Q s')
    (hQ : ∀ s, Q s → I s) : Sat I P (change f) fun _ => Q := by
  refine sat_step fun fault s hs => ?_
  rcases hf : f s with _ | s'
  · exact hI s hs
  · have hs' := ho s s' hs hf
    rcases fault with _ | _ | written | _
    · exact hs'
    · exact hs'
    all_goals
      simp only
      split_ifs
      · exact hI s hs
      · exact hQ s' hs'

theorem sat_writeContents {contents : Disk → Except String Bytes} (hk : Keeps P file) :
    Sat I P (writeContents file contents) fun _ s =>
      P s ∧ ∃ before data, P before ∧ contents before = .ok data ∧
        s = Function.update before file (some data) := by
  refine sat_step fun fault s hs => ?_
  rcases hc : contents s with _ | data
  · exact hI s hs
  · rcases fault with _ | _ | written | _
    · exact ⟨hk s _ hs, s, data, hs, hc, rfl⟩
    · exact ⟨hk s _ hs, s, data, hs, hc, rfl⟩
    · exact hI _ (hk s _ hs)
    · exact hI _ (hk s _ hs)

theorem sat_sync : Sat I P sync fun _ => P :=
  sat_look hI fun _ _ hs _ => hs

theorem sat_inspect : Sat I P (inspect file) fun data s => P s ∧ s file = some data := by
  refine sat_look hI fun s data hs hd => ⟨hs, ?_⟩
  unfold contentsOf at hd
  rcases h : s file with _ | _
  · simp [h] at hd
  · rw [h] at hd
    rw [Except.ok.inj hd]

theorem sat_pathIsAbsent :
    Sat I P (pathIsAbsent file) fun absent s => P s ∧ (absent = true ↔ s file = none) := by
  refine sat_look hI fun s absent hs ha => ⟨hs, ?_⟩
  rw [← Except.ok.inj ha, Option.isNone_iff_eq_none]

theorem sat_isFile : Sat I P (isFile file) fun _ => P := by
  refine sat_step fun fault s hs => ?_
  rcases fault with _ | _ | _ | _
  · exact hs
  · exact hs
  · exact hs
  · exact hI s hs

theorem sat_removeIfExists (ho : ∀ s, P s → Q (Function.update s file none))
    (hQ : ∀ s, Q s → I s) : Sat I P (removeIfExists file) fun _ => Q :=
  sat_change hI (fun s _ hs h => Except.ok.inj h ▸ ho s hs) hQ

theorem sat_replaceFile (ho : ∀ s data, P s → s source = some data →
      Q (Function.update (Function.update s target (some data)) source none))
    (hQ : ∀ s, Q s → I s) : Sat I P (replaceFile source target) fun _ => Q := by
  refine sat_change hI (fun s s' hs h => ?_) hQ
  rcases hso : s source with _ | data
  · simp [hso] at h
  · rw [hso] at h
    exact Except.ok.inj h ▸ ho s data hs hso

theorem sat_allAbsent {files : List FileName} :
    Sat I P (allAbsent files) fun clean s => P s ∧ (clean = true → ∀ f ∈ files, s f = none) := by
  induction files generalizing P with
  | nil => exact sat_pure fun s hs => ⟨hs, fun _ => forall_mem_nil _⟩
  | cons _ _ ih =>
    refine sat_bind (sat_pathIsAbsent hI) fun absent => ?_
    split_ifs with ha
    · refine (ih fun s hs => hI s hs.1).post fun clean s hs => ⟨hs.1.1, fun hc => ?_⟩
      exact forall_mem_cons.mpr ⟨hs.1.2.mp ha, hs.2 hc⟩
    · exact sat_pure fun s hs => ⟨hs.1, fun h => by simp at h⟩

end

end Rules

/-! The rules of the transaction's parts. -/

section Parts

variable {tools : Tools} {I P Q : Disk → Prop}

theorem sat_writePending (hP : Keeps P pending) : Sat P P (writePending pending contents)
    fun _ s => ∃ before, P before ∧ s = Function.update before pending (some contents) := by
  refine sat_bind (sat_sync fun _ hs => hs) fun _ => ?_
  refine sat_bind (sat_writeContents (fun _ hs => hs) hP) fun _ => ?_
  refine (sat_sync fun _ hs => hs.1).post fun _ s hs => ?_
  obtain ⟨-, before, _, hbefore, hc, rfl⟩ := hs
  exact ⟨before, hbefore, Except.ok.inj hc ▸ rfl⟩

/-- Cleaning up keeps what does not look at the file, whether it succeeds or not. -/
theorem sat_attempt_removeIfExists (hP : Keeps P file) :
    Sat P P (removeIfExists file).attempt fun _ => P :=
  (sat_attempt (sat_removeIfExists (fun _ hs => hs) (fun s hs => hP s none hs)
    fun _ hs => hs)).post fun r s hs => by cases r <;> exact hs

theorem sat_writePrivateFileAtomically (hI : ∀ s, P s → I s) (hQI : ∀ s, Q s → I s)
    (hP : Keeps P partialFile) (hQ : Keeps Q partialFile)
    (ho : ∀ s, P s → Q (Function.update s file (some contents))) :
    Sat I P (writePrivateFileAtomically file partialFile contents) fun _ => Q := by
  have hl : ∀ s, P s → P s ∨ Q s := fun _ => .inl
  have hri : ∀ s, Q s → P s ∨ Q s := fun _ => .inr
  -- Until the rename the file is untouched; an error after it finds the new contents.
  have hw : Sat (fun s => P s ∨ Q s) P (do
      writePending partialFile contents
      replaceFile partialFile file) fun _ => Q := by
    refine sat_bind ((sat_writePending hP).weaken hl) fun _ => ?_
    refine sat_replaceFile (fun s hs => ?_) (fun s data hs hd => ?_) hri
    · obtain ⟨before, hbefore, rfl⟩ := hs
      exact .inl (hP _ _ hbefore)
    · obtain ⟨before, hbefore, rfl⟩ := hs
      rw [update_self, Option.some.injEq] at hd
      exact hQ _ _ (hd ▸ ho _ (hP _ _ hbefore))
  refine Sat.weaken (sat_bind (sat_attempt hw) fun written => ?_) fun s hs => hs.elim (hI s) (hQI s)
  cases written with
  | ok =>
    exact sat_bind ((sat_attempt_removeIfExists hQ).weaken hri) fun _ =>
      sat_ofExcept (fun _ _ _ hs => hs) nofun
  | error =>
    exact sat_bind (sat_attempt_removeIfExists fun s v hs => hs.imp (hP s v) (hQ s v)) fun _ =>
      sat_ofExcept nofun fun _ _ _ hs => hs

theorem sat_writeJournal (hI : ∀ s, P s → I s) (hQI : ∀ s, Q s → I s)
    (hP : Keeps P .journalPartial) (hQ : Keeps Q .journalPartial)
    (ho : ∀ s, P s → Q (Function.update s .journal
      (some ((⟨journalSchema, buildId, phase⟩ : UpdateJournal).bytes tools)))) :
    Sat I P (writeJournal tools buildId phase) fun _ => Q :=
  sat_bind (sat_writePrivateFileAtomically hI hQI hP hQ ho) fun _ => sat_sync hQI

theorem sat_hardLinkBackup (hI : ∀ s, P s → I s) (hso : ∀ s, P s → s source = some data)
    (hk : Keeps P backup) :
    Sat I P (hardLinkBackup source backup) fun _ s => P s ∧ s backup = some data := by
  have hl : Sat P P (hardLink source backup) fun _ s => P s ∧ s backup = some data := by
    refine sat_change (fun _ hs => hs) (fun s s' hs h => ?_) fun _ hs => hs.1
    rw [hso s hs] at h
    rcases hb : s backup with _ | _
    · rw [hb] at h
      rw [← Except.ok.inj h]
      exact ⟨hk s _ hs, update_self ..⟩
    · simp [hb] at h
  refine sat_bind (sat_pathIsAbsent hI) fun _ => ?_
  refine sat_bind (sat_ensure fun s hs => hI s hs.1) fun _ => ?_
  refine sat_bind (((sat_attempt hl).pre fun _ hs => hs.1.1).weaken hI) fun linked => ?_
  refine sat_bind ?_ fun _ => sat_sync fun s hs => hI s hs.1
  cases linked with
  | ok => exact sat_pure fun _ hs => hs
  | error =>
    refine sat_bind (sat_inspect hI) fun _ => ?_
    have hcr : Sat I P (createNew backup) fun _ => P := by
      refine sat_change hI (fun s s' hs h => ?_) hI
      rcases hb : s backup with _ | _
      · rw [hb] at h
        exact Except.ok.inj h ▸ hk s _ hs
      · simp [hb] at h
    refine sat_bind (hcr.pre fun _ hs => hs.1) fun _ => ?_
    refine sat_bind (sat_writeContents hI hk) fun _ => ?_
    refine (sat_sync fun s hs => hI s hs.1).post fun _ s hs => ⟨hs.1, ?_⟩
    obtain ⟨-, before, _, hbe, hc, rfl⟩ := hs
    rw [contentsOf, hso before hbe] at hc
    rw [update_self, Except.ok.inj hc]

section

variable (hI : ∀ s, P s → I s) (hd : ∀ s l r, P s → s left = some l → s right = some r →
  tools.fileSha256 l = tools.fileSha256 r → l = r)
include hI hd

theorem sat_filesMatch : Sat I P (filesMatch tools left right) fun same s =>
    P s ∧ (same = true → s left = s right) := by
  refine sat_bind (sat_inspect hI) fun _ => ?_
  refine sat_bind (sat_inspect fun s hs => hI s hs.1) fun _ => ?_
  split_ifs
  · exact sat_pure fun s hs => ⟨hs.1.1, fun h => by simp at h⟩
  · refine sat_bind (sat_inspect fun s hs => hI s hs.1.1) fun _ => ?_
    refine sat_bind (sat_inspect fun s hs => hI s hs.1.1.1) fun _ => ?_
    refine sat_pure fun s hs => ⟨hs.1.1.1.1, fun h => ?_⟩
    rw [hs.1.2, hs.2, hd s _ _ hs.1.1.1.1 hs.1.2 hs.2 (of_decide_eq_true h)]

theorem sat_alreadyRestored : Sat I P (alreadyRestored tools left right) fun restored s =>
    P s ∧ (restored = true → s left = s right) := by
  refine sat_bind (sat_isFile hI) fun present => ?_
  split_ifs
  · exact sat_filesMatch hI hd
  · exact sat_pure fun s hs => ⟨hs, fun h => by simp at h⟩

end

theorem sat_restoreBackup (hI : ∀ s, P s → I s) (hQI : ∀ s, Q s → I s) (hP : Keeps P pending)
    (hQ : Keeps Q pending) (hn : pending ≠ backup)
    (hb : ∀ s found, P s → s backup = some found → found = data)
    (hd : ∀ s found, P s → s target = some found →
      tools.fileSha256 data = tools.fileSha256 found → data = found)
    (ho : ∀ s, P s → s backup = some data → Q (Function.update s target (some data))) :
    Sat I P (restoreBackup tools backup target pending) fun _ => Q := by
  -- From here on the rollback copy is there.
  let R (s : Disk) : Prop := P s ∧ s backup = some data
  have hRI : ∀ s, R s → I s := fun s hs => hI s hs.1
  have hR : Keeps R pending := fun s v hs =>
    ⟨hP s v hs.1, by rw [update_of_ne hn.symm, hs.2]⟩
  refine sat_bind (S := fun _ => R) ((sat_inspect hI).post fun found s hs =>
    ⟨hs.1, by rw [hs.2, hb s found hs.1 hs.2]⟩) fun _ => ?_
  have hcollide : ∀ s l r, R s → s backup = some l → s target = some r →
      tools.fileSha256 l = tools.fileSha256 r → l = r := by
    intro s l r hs hl hr heq
    rw [hs.2, Option.some.injEq] at hl
    exact hl ▸ hd s r hs.1 hr (hl ▸ heq)
  refine sat_bind (sat_alreadyRestored hRI hcollide) fun restored => ?_
  split_ifs with hr
  · refine sat_pure fun s hs => ?_
    have hsa : Function.update s target (some data) = s :=
      update_eq_self_iff.mpr (by rw [← hs.1.2, hs.2 hr])
    exact hsa ▸ ho s hs.1.1 hs.1.2
  · refine sat_bind (sat_removeIfExists (fun s hs => hRI s hs.1) (fun s hs => hR s none hs.1)
      hRI) fun _ => ?_
    refine sat_bind (sat_writeContents hRI hR) fun _ => ?_
    refine sat_bind (sat_inspect fun s hs => hRI s hs.1) fun _ => ?_
    refine sat_bind (sat_sync fun s hs => hRI s hs.1.1) fun _ => ?_
    refine sat_replaceFile (fun s hs => hRI s hs.1.1) (fun s found hs hf => ?_) hQI
    obtain ⟨⟨hs, _, _, hbe, hc, rfl⟩, -⟩ := hs
    rw [contentsOf, hbe.2] at hc
    rw [update_self, Option.some.injEq, ← Except.ok.inj hc] at hf
    exact hQ _ _ (hf ▸ ho _ hs.1 hs.2)

theorem sat_ensureCandidateBuild (hI : ∀ s, P s → I s) :
    Sat I P (ensureCandidateBuild tools file buildId) fun _ s =>
      P s ∧ ∃ program, s file = some program ∧ tools.reports program buildId = true := by
  refine sat_bind (sat_inspect hI) fun program => ?_
  exact (sat_ensure fun s hs => hI s hs.1).post fun _ s hs => ⟨hs.1.1, program, hs.1.2, hs.2⟩

theorem sat_bothReport (hI : ∀ s, P s → I s) :
    Sat I P (bothReport tools buildId) fun valid s => P s ∧ (valid = true →
      ∃ cli daemon, s .cli = some cli ∧ s .daemon = some daemon ∧
        tools.reports cli buildId = true ∧ tools.reports daemon buildId = true) := by
  refine sat_bind ((sat_attempt (sat_ensureCandidateBuild fun _ hs => hs)).weaken hI) fun cli => ?_
  cases cli with
  | error => exact sat_pure fun s hs => ⟨hs, fun h => by simp at h⟩
  | ok =>
    refine sat_bind (((sat_attempt (sat_ensureCandidateBuild fun _ hs => hs)).weaken
      fun s hs => hI s hs.1)) fun daemon => ?_
    refine sat_pure fun s hs => ?_
    cases daemon with
    | error => exact ⟨hs.1, nofun⟩
    | ok =>
      obtain ⟨⟨hs, cli, hc, hr⟩, daemon, hd, hr'⟩ := hs
      exact ⟨hs, fun _ => ⟨cli, daemon, hc, hd, hr, hr'⟩⟩

end Parts

/-! The journal that is read is the journal that was written. -/

theorem JournalPhase.ofText_text (p : JournalPhase) : ofText p.text = some p := by
  cases p <;> decide

theorem UpdateJournal.ofJson_toJson (c : Crates) (j : UpdateJournal) :
    UpdateJournal.ofJson c (j.toJson c) = some j := by
  have hf : structFields ["schema_version", "build_id", "phase"] true (j.toJson c) =
      some [.string j.schemaVersion, .string j.buildId, .string j.phase.text] := rfl
  simp [UpdateJournal.ofJson, hf, Value.asStr, JournalPhase.ofText_text]

theorem readJournal_bytes (tools : Tools) (j : UpdateJournal) :
    readJournal tools (j.bytes tools) = .ok j := by
  have hr : fromSliceRaw tools.crates (j.bytes tools) = some (j.toJson tools.crates) :=
    fromSliceRaw_toVec (by simp [UpdateJournal.toJson, Value.depth, Value.memberDepths,
      nestingLimit]) rfl
  rw [readJournal, hr, Option.bind_some, UpdateJournal.ofJson_toJson]

/-- Both installed programs report the build. -/
def pairReports (tools : Tools) (buildId : String) (s : Disk) : Bool :=
  (s .cli).any (tools.reports · buildId) && (s .daemon).any (tools.reports · buildId)

/-! The states of an update. -/

/-- One update: the installed pair, the pair that replaces it, and the build of the latter. -/
structure Update where
  oldCli : Bytes
  oldDaemon : Bytes
  newCli : Bytes
  newDaemon : Bytes
  buildId : String
  deriving DecidableEq

namespace Update

variable (tools : Tools) (u : Update)

def Old (s : Disk) : Prop := s .cli = some u.oldCli ∧ s .daemon = some u.oldDaemon

def New (s : Disk) : Prop := s .cli = some u.newCli ∧ s .daemon = some u.newDaemon

/-- Nothing is left of the transaction. -/
def Clean (s : Disk) : Prop := s .journal = none ∧ s .cliBackup = none ∧ s .daemonBackup = none

/-- The installation before the update, with the candidates staged. -/
structure Ready (s : Disk) : Prop where
  old : u.Old s
  clean : Clean s
  cliCandidate : s .cliCandidate = some u.newCli
  daemonCandidate : s .daemonCandidate = some u.newDaemon

/-- What the disk may hold while the journal names a phase. A rollback copy that is gone was
removed by the end of a transaction, when the pair was settled. -/
def Holds (s : Disk) : JournalPhase → Prop
  | .prepared => u.Old s
  | .replacingNotaryd | .notarydReplaced =>
    s .cli = some u.oldCli ∧ (s .daemon = some u.oldDaemon ∨ s .daemon = some u.newDaemon) ∧
      (s .daemonBackup = some u.oldDaemon ∨
        s .daemonBackup = none ∧ s .daemon = some u.oldDaemon)
  | .replacingNotaryctl | .notaryctlReplaced =>
    (s .cliBackup = some u.oldCli ∧ s .daemonBackup = some u.oldDaemon ∧
        (s .cli = some u.oldCli ∨ s .cli = some u.newCli) ∧
        (s .daemon = some u.oldDaemon ∨ s .daemon = some u.newDaemon)) ∨
      s .cliBackup = none ∧ (u.Old s ∨ u.New s)

/-- The journal names the phase, and the disk is as the phase says. -/
def At (phase : JournalPhase) (s : Disk) : Prop :=
  s .journal = some ((⟨journalSchema, u.buildId, phase⟩ : UpdateJournal).bytes tools) ∧
    u.Holds s phase

/-- The disk is as the phase of its journal says, and this is not the last phase. -/
def Unrecorded (s : Disk) : Prop := ∃ phase, phase ≠ .notaryctlReplaced ∧ u.At tools phase s

/-- The invariant of an update and its recoveries. -/
def Consistent (s : Disk) : Prop :=
  (Clean s ∧ (u.Old s ∨ u.New s)) ∨ ∃ phase, u.At tools phase s

/-- The pair a transaction may end with in a phase. -/
def Settled (s : Disk) : JournalPhase → Prop
  | .prepared | .replacingNotaryd | .notarydReplaced => u.Old s
  | .replacingNotaryctl | .notaryctlReplaced => u.Old s ∨ u.New s

variable {tools u} {s : Disk} {phase : JournalPhase}

/-- The digest tells the two versions of each program apart. -/
structure Distinguishes (tools : Tools) (u : Update) : Prop where
  cli : tools.fileSha256 u.oldCli = tools.fileSha256 u.newCli → u.oldCli = u.newCli
  daemon : tools.fileSha256 u.oldDaemon = tools.fileSha256 u.newDaemon → u.oldDaemon = u.newDaemon

theorem Settled.oldOrNew (h : u.Settled s phase) : u.Old s ∨ u.New s := by
  cases phase with
  | prepared | replacingNotaryd | notarydReplaced => exact .inl h
  | replacingNotaryctl | notaryctlReplaced => exact h

theorem Holds.removeCliBackup (h : u.Holds s phase) (hs : u.Settled s phase) :
    u.Holds (Function.update s .cliBackup none) phase := by
  cases phase with
  | prepared | replacingNotaryd | notarydReplaced => exact h
  | replacingNotaryctl | notaryctlReplaced => exact .inr ⟨update_self .., hs⟩

theorem Holds.removeDaemonBackup (hs : u.Settled s phase) (hc : s .cliBackup = none) :
    u.Holds (Function.update s .daemonBackup none) phase := by
  cases phase with
  | prepared => exact hs
  | replacingNotaryd | notarydReplaced =>
    exact ⟨hs.1, .inl hs.2, .inr ⟨update_self .., hs.2⟩⟩
  | replacingNotaryctl | notaryctlReplaced => exact .inr ⟨hc, hs⟩

theorem Holds.oldOrNew (h : u.Holds s phase) :
    (s .cli = some u.oldCli ∨ s .cli = some u.newCli) ∧
      (s .daemon = some u.oldDaemon ∨ s .daemon = some u.newDaemon) := by
  cases phase with
  | prepared => exact ⟨.inl h.1, .inl h.2⟩
  | replacingNotaryd | notarydReplaced => exact ⟨.inl h.1, h.2.1⟩
  | replacingNotaryctl | notaryctlReplaced =>
    rcases h with ⟨-, -, h⟩ | ⟨-, h | h⟩
    · exact h
    · exact ⟨.inl h.1, .inl h.2⟩
    · exact ⟨.inr h.1, .inr h.2⟩

/-- A file with the digest of the old program is the old program. -/
theorem eq_of_digest {found old new : Bytes}
    (hd : tools.fileSha256 old = tools.fileSha256 new → old = new)
    (h : s file = some old ∨ s file = some new) (hf : s file = some found)
    (he : tools.fileSha256 old = tools.fileSha256 found) : old = found := by
  rw [hf, Option.some.injEq, Option.some.injEq] at h
  rcases h with rfl | rfl
  · rfl
  · exact hd he

theorem At.consistent (h : u.At tools phase s) : u.Consistent tools s := .inr ⟨phase, h⟩

theorem sat_finishTransaction {R : Disk → Prop} (hcl : Keeps R .cliBackup)
    (hd : Keeps R .daemonBackup)
    (hj : Keeps R .journal) (hse : ∀ s, R s → u.Settled s phase) :
    Sat (u.Consistent tools) (fun s => u.At tools phase s ∧ R s) finishTransaction
      fun _ s => Clean s ∧ R s := by
  have hc : ∀ s, Clean s ∧ R s → u.Consistent tools s :=
    fun s hs => .inl ⟨hs.1, (hse s hs.2).oldOrNew⟩
  refine sat_bind (S := fun _ s => (u.At tools phase s ∧ R s) ∧ s .cliBackup = none)
    (sat_removeIfExists (fun s hs => hs.1.consistent) (fun s hs => ?_)
      fun s hs => hs.1.1.consistent) fun _ => ?_
  · exact ⟨⟨⟨hs.1.1, hs.1.2.removeCliBackup (hse s hs.2)⟩, hcl s _ hs.2⟩, update_self ..⟩
  refine sat_bind (S := fun _ s => (u.At tools phase s ∧ R s) ∧ s .cliBackup = none ∧
      s .daemonBackup = none)
    (sat_removeIfExists (fun s hs => hs.1.1.consistent) (fun s hs => ?_)
      fun s hs => hs.1.1.consistent) fun _ => ?_
  · exact ⟨⟨⟨hs.1.1.1, Holds.removeDaemonBackup (hse s hs.1.2) hs.2⟩, hd s _ hs.1.2⟩,
      hs.2, update_self ..⟩
  refine sat_bind (sat_removeIfExists (fun s hs => hs.1.1.consistent) (fun s hs => ?_) hc)
    fun _ => sat_sync hc
  exact ⟨⟨update_self .., hs.2⟩, hj s _ hs.1.2⟩

/-- With both rollback copies there, the pair goes back to the old one. -/
theorem sat_restorePair (hdi : Distinguishes tools u)
    (hp : phase = .replacingNotaryctl ∨ phase = .notaryctlReplaced) :
    Sat (u.Consistent tools) (u.At tools phase) (restorePair tools)
      fun _ s => u.At tools phase s ∧ u.Old s := by
  have hh {s : Disk} : u.Holds s phase ↔ u.Holds s .replacingNotaryctl := by
    rcases hp with rfl | rfl <;> rfl
  refine sat_bind (S := fun _ s => u.At tools phase s ∧ s .cli = some u.oldCli ∧
      s .cliBackup = some u.oldCli ∧ s .daemonBackup = some u.oldDaemon) ?_ fun _ => ?_
  · refine sat_restoreBackup (fun s hs => hs.consistent) (fun s hs => hs.1.consistent)
      (fun s v hs => ⟨hs.1, hh.mpr (hh.mp hs.2)⟩)
      (fun s v hs => ⟨⟨hs.1.1, hh.mpr (hh.mp hs.1.2)⟩, hs.2⟩) (by decide)
      (fun s found hs hf => (?_ : found = u.oldCli))
      (fun s found hs => eq_of_digest hdi.cli hs.2.oldOrNew.1) fun s hs hb => ?_
    · rcases hh.mp hs.2 with ⟨hcl, -⟩ | ⟨hn, -⟩
      · exact Option.some.inj (hf.symm.trans hcl)
      · exact absurd (hf.symm.trans hn) nofun
    · rcases hh.mp hs.2 with ⟨-, hd, -, hda⟩ | ⟨hn, -⟩
      · exact ⟨⟨hs.1, hh.mpr (.inl ⟨hb, hd, .inl (update_self ..),
          hda⟩)⟩, update_self .., hb, hd⟩
      · exact absurd (hb.symm.trans hn) nofun
  · refine sat_restoreBackup (fun s hs => hs.1.consistent) (fun s hs => hs.1.consistent)
      (fun s v hs => ⟨⟨hs.1.1, hh.mpr (hh.mp hs.1.2)⟩, hs.2⟩)
      (fun s v hs => ⟨⟨hs.1.1, hh.mpr (hh.mp hs.1.2)⟩, hs.2⟩) (by decide)
      (fun s found hs hf => Option.some.inj (hf.symm.trans hs.2.2.2))
      (fun s found hs => eq_of_digest hdi.daemon hs.1.2.oldOrNew.2) fun s hs hb => ?_
    obtain ⟨ha, hcl, hc, hd⟩ := hs
    exact ⟨⟨ha.1, hh.mpr (.inl ⟨hc, hd, .inl hcl,
      .inl (update_self ..)⟩)⟩, hcl, update_self ..⟩

/-- An old program does not report the new build. -/
structure HonestProbe (tools : Tools) (u : Update) : Prop where
  cli : tools.reports u.oldCli u.buildId = true → u.oldCli = u.newCli
  daemon : tools.reports u.oldDaemon u.buildId = true → u.oldDaemon = u.newDaemon

theorem Holds.new_of_reports {cli daemon : Bytes} (hp : HonestProbe tools u)
    (h : u.Holds s .notaryctlReplaced) (hcl : s .cli = some cli) (hd : s .daemon = some daemon)
    (hc : tools.reports cli u.buildId = true) (hdr : tools.reports daemon u.buildId = true) :
    u.New s := by
  have ho : (cli = u.oldCli ∨ cli = u.newCli) ∧ (daemon = u.oldDaemon ∨ daemon = u.newDaemon) := by
    simpa only [hcl, hd, Option.some.injEq] using h.oldOrNew
  refine ⟨hcl.trans ?_, hd.trans ?_⟩
  · rcases ho.1 with rfl | rfl
    · rw [hp.cli hc]
    · rfl
  · rcases ho.2 with rfl | rfl
    · rw [hp.daemon hdr]
    · rfl

variable (tools u) in
/-- Both installed programs report the new build, so recovery keeps them. -/
def Kept (s : Disk) : Prop :=
  u.At tools .notaryctlReplaced s ∧ pairReports tools u.buildId s = true

theorem sat_finishOld (phase : JournalPhase) : Sat (u.Consistent tools)
      (fun s => u.At tools phase s ∧ u.Old s) finishTransaction fun _ s => Clean s ∧ u.Old s := by
  refine sat_finishTransaction (fun _ _ hs => hs) (fun _ _ hs => hs) (fun _ _ hs => hs) ?_
  intro s hs
  cases phase with
  | prepared | replacingNotaryd | notarydReplaced => exact hs
  | replacingNotaryctl | notaryctlReplaced => exact .inl hs

theorem sat_finishNew : Sat (u.Consistent tools)
      (fun s => u.At tools .notaryctlReplaced s ∧ u.New s) finishTransaction
      fun _ s => Clean s ∧ u.New s :=
  sat_finishTransaction (fun _ _ hs => hs) (fun _ _ hs => hs) (fun _ _ hs => hs)
    fun _ hs => .inr hs

/-- Recovery of a journal that was read goes back to the old pair, unless the new one was
recorded and reports its build. -/
theorem sat_recoverPhase (hdi : Distinguishes tools u)
    (hpr : HonestProbe tools u) (R : Disk → Prop) (phase : JournalPhase) :
    Sat (u.Consistent tools) (fun s => u.At tools phase s ∧ R s)
      (recoverPhase tools ⟨journalSchema, u.buildId, phase⟩)
      fun _ s => Clean s ∧ (u.Old s ∨ u.New s ∧ ∃ s₀, R s₀ ∧ u.Kept tools s₀) := by
  -- The two phases that restore only notaryd.
  have hd : ∀ p, p = .replacingNotaryd ∨ p = .notarydReplaced →
      Sat (u.Consistent tools) (u.At tools p) (do
        restoreBackup tools .daemonBackup .daemon .daemonRestore
        finishTransaction) fun _ s => Clean s ∧ u.Old s := by
    intro p hp
    have hh {s : Disk} : u.Holds s p ↔ u.Holds s .replacingNotaryd := by
      rcases hp with rfl | rfl <;> rfl
    refine sat_bind (sat_restoreBackup (fun s hs => hs.consistent)
      (fun s hs => hs.1.consistent) (fun s v hs => ⟨hs.1, hh.mpr (hh.mp hs.2)⟩)
      (fun s v hs => ⟨⟨hs.1.1, hh.mpr (hh.mp hs.1.2)⟩, hs.2⟩) (by decide)
      (fun s found hs hfo => (?_ : found = u.oldDaemon))
      (fun s found hs => eq_of_digest hdi.daemon hs.2.oldOrNew.2) fun s hs hb => ?_)
      fun _ => sat_finishOld p
    · rcases (hh.mp hs.2).2.2 with hb | ⟨hn, -⟩
      · exact Option.some.inj (hfo.symm.trans hb)
      · exact absurd (hfo.symm.trans hn) nofun
    · have hc := (hh.mp hs.2).1
      exact ⟨⟨hs.1, hh.mpr ⟨hc, .inl (update_self ..), .inl hb⟩⟩, hc, update_self ..⟩
  have ho {x : Action Unit} {P : Disk → Prop}
      (h : Sat (u.Consistent tools) P x fun _ s => Clean s ∧ u.Old s) :
      Sat (u.Consistent tools) (fun s => P s ∧ R s) x
        fun _ s => Clean s ∧ (u.Old s ∨ u.New s ∧ ∃ s₀, R s₀ ∧ u.Kept tools s₀) :=
    (h.pre fun _ hs => hs.1).post fun _ s hs => ⟨hs.1, .inl hs.2⟩
  cases phase with
  | prepared => exact ho ((sat_finishOld .prepared).pre fun _ hs => ⟨hs, hs.2⟩)
  | replacingNotaryd => exact ho (hd _ (.inl rfl))
  | notarydReplaced => exact ho (hd _ (.inr rfl))
  | replacingNotaryctl =>
    exact ho (sat_bind (sat_restorePair hdi (.inl rfl)) fun _ => sat_finishOld _)
  | notaryctlReplaced =>
    refine sat_bind (sat_bothReport fun s hs => hs.1.consistent) fun valid => ?_
    split_ifs with hv
    · intro faults s hs
      obtain ⟨_, _, hc, hd, hr, hr'⟩ := hs.2 hv
      have hk : u.Kept tools s := ⟨hs.1.1, by simp [pairReports, hc, hd, hr, hr']⟩
      exact (sat_finishNew.post fun _ s' hs' => ⟨hs'.1, .inr ⟨hs'.2, s, hs.1.2, hk⟩⟩) faults s
        ⟨hs.1.1, hs.1.1.2.new_of_reports hpr hc hd hr hr'⟩
    · exact (ho (sat_bind (sat_restorePair hdi (.inr rfl)) fun _ => sat_finishOld _)).pre
        fun _ hs => hs.1

theorem sat_recoverInterruptedUpdate (hd : Distinguishes tools u)
    (hp : HonestProbe tools u) (R : Disk → Prop) :
    Sat (u.Consistent tools) (fun s => u.Consistent tools s ∧ R s) (recoverInterruptedUpdate tools)
      fun _ s => Clean s ∧ (u.Old s ∨ u.New s ∧ ∃ s₀, R s₀ ∧ (Clean s₀ ∨ u.Kept tools s₀)) := by
  refine sat_bind (sat_pathIsAbsent fun _ hs => hs.1) fun absent => ?_
  split_ifs with ha
  · refine sat_bind (sat_allAbsent fun s hs => hs.1.1) fun _ => ?_
    refine (sat_ensure fun s hs => hs.1.1.1).post fun _ s hs => ?_
    obtain ⟨⟨⟨⟨⟨hcl, ho⟩ | ⟨_, hat⟩, hR⟩, hn⟩, -⟩, -⟩ := hs
    · exact ⟨hcl, ho.imp_right fun hn => ⟨hn, s, hR, .inl hcl⟩⟩
    · exact absurd (hat.1.symm.trans (hn.mp ha)) nofun
  · refine sat_bind (sat_inspect fun s hs => hs.1.1) fun data => ?_
    -- The journal that was found is the one some phase wrote.
    refine sat_bind (S := fun journal s => ∃ phase,
      journal = ⟨journalSchema, u.buildId, phase⟩ ∧ u.At tools phase s ∧ R s)
      (sat_ofExcept (fun journal hr s hs => ?_) fun _ _ s hs => hs.1.1.1) fun journal => ?_
    · obtain ⟨⟨⟨⟨hcl, -⟩ | ⟨phase, hat⟩, hR⟩, -⟩, hda⟩ := hs
      · exact absurd (hda.symm.trans hcl.1) nofun
      · have hb := Option.some.inj (hda.symm.trans hat.1)
        rw [hb, readJournal_bytes] at hr
        exact ⟨phase, (Except.ok.inj hr).symm, hat, hR⟩
    · have hc : ∀ s, (∃ phase, journal = ⟨journalSchema, u.buildId, phase⟩ ∧
          u.At tools phase s ∧ R s) → u.Consistent tools s :=
        fun s ⟨phase, _, hat, _⟩ => hat.consistent
      refine sat_bind (sat_ensure hc) fun _ => ?_
      refine sat_bind (sat_ensure fun s hs => hc s hs.1) fun _ faults s hs => ?_
      obtain ⟨⟨⟨phase, rfl, hat⟩, -⟩, -⟩ := hs
      refine
        ((sat_recoverPhase hd hp R phase).post fun _ s hs => ⟨hs.1, hs.2.imp_right ?_⟩) faults s
        hat
      exact fun ⟨hn, s₀, hR, hk⟩ => ⟨hn, s₀, hR, .inr hk⟩

/-- A recovery that succeeds leaves a whole pair. -/
theorem sat_recovery (hd : Distinguishes tools u) (hp : HonestProbe tools u) :
    Sat (u.Consistent tools) (u.Consistent tools) (recoverInterruptedUpdate tools)
      fun _ s => Clean s ∧ (u.Old s ∨ u.New s) :=
  ((sat_recoverInterruptedUpdate hd hp fun _ => True).pre fun _ hs => ⟨hs, trivial⟩).post
    fun _ _ hs => ⟨hs.1, hs.2.imp_right And.left⟩

/-! The replacement goes through the phases in order. -/

variable (tools u) in
/-- The journal, the pair and further files while the pair is replaced. -/
def Stage (phase : JournalPhase) (cli daemon : Bytes) (others : List (FileName × Bytes))
    (s : Disk) : Prop :=
  s .journal = some ((⟨journalSchema, u.buildId, phase⟩ : UpdateJournal).bytes tools) ∧
    s .cli = some cli ∧ s .daemon = some daemon ∧ ∀ f ∈ others, s f.1 = some f.2

section Stages

variable {cli daemon : Bytes} {others : List (FileName × Bytes)}

theorem Stage.keeps (hfi : file ∉ [.journal, .cli, .daemon] ++ others.map Prod.fst) :
    Keeps (u.Stage tools phase cli daemon others) file := by
  intro s v ⟨hj, hc, hd, ho⟩
  have hn : ∀ f ∈ [.journal, .cli, .daemon] ++ others.map Prod.fst,
      Function.update s file v f = s f :=
    fun f hf => update_of_ne (ne_of_mem_of_not_mem hf hfi) v s
  refine ⟨(hn _ (by simp)).trans hj, (hn _ (by simp)).trans hc,
    (hn _ (by simp)).trans hd, fun f hf => (hn _ ?_).trans (ho f hf)⟩
  exact mem_append_right _ (mem_map_of_mem hf)

theorem Stage.writeJournal {I : Disk → Prop} {next : JournalPhase}
    (hc : ∀ s, u.Stage tools phase cli daemon others s → I s)
    (hn : ∀ s, u.Stage tools next cli daemon others s → I s)
    (ho : ∀ f ∈ others.map Prod.fst, f ≠ .journal ∧ f ≠ .journalPartial) :
    Sat I (u.Stage tools phase cli daemon others) (writeJournal tools u.buildId next)
      fun _ => u.Stage tools next cli daemon others := by
  have hp : .journalPartial ∉ [.journal, .cli, .daemon] ++ others.map Prod.fst := by
    intro h
    rcases mem_append.mp h with h | h
    · simp at h
    · exact (ho _ h).2 rfl
  refine sat_writeJournal hc hn (Stage.keeps hp) (Stage.keeps hp)
    fun s hs => ⟨update_self .., hs.2.1, hs.2.2.1, fun f hf => ?_⟩
  rw [update_of_ne (ho _ (mem_map_of_mem hf)).1]
  exact hs.2.2.2 f hf

/-- Before notaryctl is replaced. -/
theorem Stage.unrecorded (hp : phase = .replacingNotaryd ∨ phase = .notarydReplaced)
    (hda : daemon = u.oldDaemon ∨ daemon = u.newDaemon)
    (hb : (FileName.daemonBackup, u.oldDaemon) ∈ others)
    (h : u.Stage tools phase u.oldCli daemon others s) : u.Unrecorded tools s := by
  obtain ⟨hj, hc, hd, ho⟩ := h
  have hon : s .daemon = some u.oldDaemon ∨ s .daemon = some u.newDaemon := by simpa [hd] using hda
  rcases hp with rfl | rfl <;> exact ⟨_, by decide, hj, hc, hon, .inl (ho _ hb)⟩

variable (u) in
def cliBackups : List (FileName × Bytes) := [(.cliBackup, u.oldCli), (.daemonBackup, u.oldDaemon)]

/-- While and after notaryctl is replaced. -/
theorem Stage.holds (hcl : cli = u.oldCli ∨ cli = u.newCli) (ho : u.cliBackups ⊆ others)
    (h : u.Stage tools phase cli u.newDaemon others s) : u.Holds s .notaryctlReplaced := by
  obtain ⟨-, hc, hda, hothers⟩ := h
  have hon : s .cli = some u.oldCli ∨ s .cli = some u.newCli := by simpa [hc] using hcl
  exact .inl ⟨hothers (.cliBackup, u.oldCli) (ho (by simp [cliBackups])),
    hothers (.daemonBackup, u.oldDaemon) (ho (by simp [cliBackups])), hon, .inr hda⟩

end Stages

/-- From a replaced notaryd to a replaced notaryctl. -/
theorem sat_replaceCli :
    Sat (u.Unrecorded tools)
      (u.Stage tools .notarydReplaced u.oldCli u.newDaemon
        [(.daemonBackup, u.oldDaemon), (.cliCandidate, u.newCli)])
      (do
        hardLinkBackup .cli .cliBackup
        writeJournal tools u.buildId .replacingNotaryctl
        replaceFile .cliCandidate .cli
        sync)
      fun _ => u.Stage tools .replacingNotaryctl u.newCli u.newDaemon u.cliBackups := by
  have hst : ∀ {others} s, (FileName.daemonBackup, u.oldDaemon) ∈ others →
      u.Stage tools .notarydReplaced u.oldCli u.newDaemon others s → u.Unrecorded tools s :=
    fun s h => Stage.unrecorded (.inr rfl) (.inr rfl) h
  have hl : ∀ {cli others}, cli = u.oldCli ∨ cli = u.newCli → u.cliBackups ⊆ others →
      ∀ s, u.Stage tools .replacingNotaryctl cli u.newDaemon others s → u.Unrecorded tools s :=
    fun hc ho s hs => ⟨_, by decide, hs.1, hs.holds hc ho⟩
  let saved : List (FileName × Bytes) :=
    [(.cliBackup, u.oldCli), (.daemonBackup, u.oldDaemon), (.cliCandidate, u.newCli)]
  have hsa : u.cliBackups ⊆ saved := by simp [cliBackups, saved]
  refine sat_bind (S := fun _ => u.Stage tools .notarydReplaced u.oldCli u.newDaemon saved)
    ((sat_hardLinkBackup (fun s => hst s (by simp)) (fun s hs => hs.2.1)
      (Stage.keeps (by simp))).post fun _ s hs => ⟨hs.1.1, hs.1.2.1, hs.1.2.2.1,
        forall_mem_cons.mpr ⟨hs.2, hs.1.2.2.2⟩⟩) fun _ => ?_
  refine sat_bind (Stage.writeJournal (fun s => hst s (by simp [saved]))
    (hl (.inl rfl) hsa) (by simp [saved])) fun _ => ?_
  refine sat_bind (sat_replaceFile (hl (.inl rfl) hsa) (fun s data hs hda => ?_)
    (hl (.inr rfl) (List.Subset.refl _))) fun _ => sat_sync (hl (.inr rfl) (List.Subset.refl _))
  have hn : s .cliCandidate = some u.newCli := hs.2.2.2 (.cliCandidate, u.newCli) (by simp [saved])
  obtain rfl := Option.some.inj (hn.symm.trans hda)
  refine ⟨hs.1, rfl, hs.2.2.1, fun f hf => ?_⟩
  have hf' := hs.2.2.2 f (hsa hf)
  rcases mem_pair.mp hf with rfl | rfl <;> exact hf'

/-- The replacement up to its last journal. -/
def replaceFiles (tools : Tools) (buildId : String) : Action Unit := do
  hardLinkBackup .daemon .daemonBackup
  writeJournal tools buildId .replacingNotaryd
  replaceFile .daemonCandidate .daemon
  sync
  writeJournal tools buildId .notarydReplaced
  hardLinkBackup .cli .cliBackup
  writeJournal tools buildId .replacingNotaryctl
  replaceFile .cliCandidate .cli
  sync

def recordReplaced (tools : Tools) (buildId : String) : Action Unit := do
  writeJournal tools buildId .notaryctlReplaced
  ensureCandidateBuild tools .cli buildId
  ensureCandidateBuild tools .daemon buildId

theorem replaceInstalledPair_eq (tools : Tools) (buildId : String) :
    replaceInstalledPair tools buildId =
      replaceFiles tools buildId >>= fun _ => recordReplaced tools buildId := by
  simp only [replaceInstalledPair, replaceFiles, recordReplaced, Prog.bind_assoc]

theorem sat_replaceFiles : Sat (u.Unrecorded tools)
      (u.Stage tools .prepared u.oldCli u.oldDaemon
        [(.cliCandidate, u.newCli), (.daemonCandidate, u.newDaemon)])
      (replaceFiles tools u.buildId)
      fun _ => u.Stage tools .replacingNotaryctl u.newCli u.newDaemon u.cliBackups := by
  let staged : List (FileName × Bytes) :=
    [(.daemonBackup, u.oldDaemon), (.cliCandidate, u.newCli), (.daemonCandidate, u.newDaemon)]
  let replaced : List (FileName × Bytes) :=
    [(.daemonBackup, u.oldDaemon), (.cliCandidate, u.newCli)]
  have hp : ∀ {others} s, u.Stage tools .prepared u.oldCli u.oldDaemon others s →
      u.Unrecorded tools s :=
    fun s hs => ⟨.prepared, by decide, hs.1, hs.2.1, hs.2.2.1⟩
  have hst : ∀ s, u.Stage tools .replacingNotaryd u.oldCli u.oldDaemon staged s →
      u.Unrecorded tools s := fun s => Stage.unrecorded (.inl rfl) (.inl rfl) (by simp [staged])
  have hr : ∀ s, u.Stage tools .replacingNotaryd u.oldCli u.newDaemon replaced s →
      u.Unrecorded tools s := fun s => Stage.unrecorded (.inl rfl) (.inr rfl) (by simp [replaced])
  refine sat_bind (S := fun _ => u.Stage tools .prepared u.oldCli u.oldDaemon staged)
    ((sat_hardLinkBackup hp (fun s hs => hs.2.2.1) (Stage.keeps (by simp))).post
      fun _ s hs => ⟨hs.1.1, hs.1.2.1, hs.1.2.2.1,
        forall_mem_cons.mpr ⟨hs.2, hs.1.2.2.2⟩⟩) fun _ => ?_
  refine sat_bind (Stage.writeJournal hp hst (by simp [staged])) fun _ => ?_
  refine sat_bind (S := fun _ => u.Stage tools .replacingNotaryd u.oldCli u.newDaemon replaced)
    (sat_replaceFile hst (fun s data hs hd => ?_) hr) fun _ => ?_
  · have hn : s .daemonCandidate = some u.newDaemon :=
      hs.2.2.2 (.daemonCandidate, u.newDaemon) (by simp [staged])
    obtain rfl := Option.some.inj (hn.symm.trans hd)
    refine ⟨hs.1, hs.2.1, rfl, fun f hf => ?_⟩
    have hf' := hs.2.2.2 f (by rcases mem_pair.mp hf with rfl | rfl <;> simp [staged])
    rcases mem_pair.mp hf with rfl | rfl <;> exact hf'
  refine sat_bind (sat_sync hr) fun _ => ?_
  refine sat_bind (Stage.writeJournal hr
    (fun s => Stage.unrecorded (.inr rfl) (.inr rfl) (by simp [replaced]))
    (by simp [replaced])) fun _ => sat_replaceCli

theorem sat_replaceInstalledPair : Sat (fun s => ∃ phase, u.At tools phase s)
      (u.Stage tools .prepared u.oldCli u.oldDaemon
        [(.cliCandidate, u.newCli), (.daemonCandidate, u.newDaemon)])
      (replaceInstalledPair tools u.buildId)
      fun _ => u.Stage tools .notaryctlReplaced u.newCli u.newDaemon u.cliBackups := by
  have hnew := List.Subset.refl u.cliBackups
  have hlast : ∀ s, u.Stage tools .notaryctlReplaced u.newCli u.newDaemon u.cliBackups s →
      ∃ phase, u.At tools phase s := fun s hs => ⟨_, hs.1, hs.holds (.inr rfl) hnew⟩
  rw [replaceInstalledPair_eq]
  refine sat_bind (sat_replaceFiles.weaken fun _ hs => hs.imp fun _ h => h.2) fun _ => ?_
  refine sat_bind (Stage.writeJournal (fun s hs => ⟨_, hs.1, hs.holds (.inr rfl) hnew⟩) hlast
    (by simp [cliBackups])) fun _ => ?_
  refine sat_bind ((sat_ensureCandidateBuild hlast).post fun _ _ hs => hs.1) fun _ => ?_
  exact (sat_ensureCandidateBuild hlast).post fun _ _ hs => hs.1

theorem sat_settleUpdate (hdi : Distinguishes tools u)
    (hp : HonestProbe tools u) (replaced : Except String Unit) : Sat (u.Consistent tools)
      (fun s => match replaced with
        | .ok _ => u.Stage tools .notaryctlReplaced u.newCli u.newDaemon u.cliBackups s
        | .error _ => u.Consistent tools s)
      (settleUpdate tools replaced) fun _ s => Clean s ∧ u.New s := by
  cases replaced with
  | ok =>
    refine sat_finishNew.pre fun s hs => ?_
    obtain ⟨hj, hcl, hda, ho⟩ := hs
    have hc := ho (.cliBackup, u.oldCli) (by simp [cliBackups])
    have hd := ho (.daemonBackup, u.oldDaemon) (by simp [cliBackups])
    exact ⟨⟨hj, .inl ⟨hc, hd, .inr hcl, .inr hda⟩⟩, hcl, hda⟩
  | error =>
    refine sat_bind (sat_attempt (sat_recovery hdi hp)) fun recovered => ?_
    cases recovered with
    | ok => exact sat_fail fun _ hs => .inl hs
    | error => exact sat_fail fun _ hs => hs

/-- The beginning of the transaction, up to its first journal. -/
def beginUpdate (tools : Tools) (buildId : String) : Action Unit := do
  let clean ← allAbsent [.cliBackup, .daemonBackup, .journal]
  Prog.ensure (clean = true) "a previous update has not been recovered"
  writeJournal tools buildId .prepared

theorem applyUpdateTransaction_eq (tools : Tools) (buildId : String) :
    applyUpdateTransaction tools buildId = beginUpdate tools buildId >>= fun _ =>
      (replaceInstalledPair tools buildId).attempt >>= settleUpdate tools := by
  simp only [applyUpdateTransaction, beginUpdate, Prog.bind_assoc]

theorem sat_beginUpdate {I : Disk → Prop} (hr : ∀ s, u.Ready s → I s)
    (hs : ∀ {others} s, u.Stage tools .prepared u.oldCli u.oldDaemon others s → I s) :
    Sat I u.Ready (beginUpdate tools u.buildId)
      fun _ => u.Stage tools .prepared u.oldCli u.oldDaemon
        [(.cliCandidate, u.newCli), (.daemonCandidate, u.newDaemon)] := by
  refine sat_bind (sat_allAbsent hr) fun _ => ?_
  refine sat_bind (sat_ensure fun s hs => hr s hs.1) fun _ => ?_
  refine (sat_writeJournal hr hs
    (fun s v hs => ⟨hs.old, hs.clean, hs.cliCandidate, hs.daemonCandidate⟩)
    (Stage.keeps (by simp)) fun s hs => ⟨update_self .., hs.old.1, hs.old.2, ?_⟩).pre
      fun _ hs => hs.1.1
  rintro _ (_ | ⟨_, _ | ⟨_, hf⟩⟩)
  · exact hs.cliCandidate
  · exact hs.daemonCandidate
  · cases hf

theorem sat_applyUpdateTransaction (hd : Distinguishes tools u)
    (hp : HonestProbe tools u) :
    Sat (u.Consistent tools) u.Ready (applyUpdateTransaction tools u.buildId)
      fun _ s => Clean s ∧ u.New s := by
  rw [applyUpdateTransaction_eq]
  refine sat_bind (sat_beginUpdate (fun s hs => .inl ⟨hs.clean, .inl hs.old⟩)
    fun s hs => .inr ⟨.prepared, hs.1, hs.2.1, hs.2.2.1⟩) fun _ => ?_
  exact sat_bind ((sat_attempt sat_replaceInstalledPair).weaken fun _ => .inr) fun replaced =>
    (sat_settleUpdate hd hp replaced).pre fun s hs => by
      cases replaced with
      | ok => exact hs
      | error => exact .inr hs

variable (tools u) in
/-- The disks that one update and any number of recoveries leave, however their steps fail or
their processes are killed. -/
inductive History : Disk → Prop
  | ready {s : Disk} (h : u.Ready s) : History s
  | applied {s : Disk} (h : u.Ready s) (faults : List Fault) :
    History ((applyUpdateTransaction tools u.buildId).after faults s)
  | recovered {s : Disk} (h : History s) (faults : List Fault) :
    History ((recoverInterruptedUpdate tools).after faults s)

theorem History.consistent (hd : Distinguishes tools u)
    (hp : HonestProbe tools u) (h : u.History tools s) : u.Consistent tools s := by
  induction h with
  | ready h => exact .inl ⟨h.clean, .inl h.old⟩
  | applied h =>
    exact (sat_applyUpdateTransaction hd hp).after h fun _ _ hs => .inl ⟨hs.1, .inr hs.2⟩
  | recovered _ _ ih =>
    exact (sat_recovery hd hp).after ih fun _ _ hs => .inl hs

/-- After an update that was killed or failed anywhere, and any number of recoveries that were
too, a recovery that succeeds leaves the old pair or the new pair and nothing of the transaction;
an update that succeeds leaves the new pair. -/
theorem update_leaves_whole_pair (tools : Tools) (u : Update)
    (hdigest : Distinguishes tools u) (hprobe : HonestProbe tools u) :
    (∀ s faults s' rest, u.History tools s →
      recoverInterruptedUpdate tools faults s = (.done (), s', rest) →
        (u.Old s' ∨ u.New s') ∧ Clean s') ∧
    ∀ s faults s' rest, u.Ready s →
      applyUpdateTransaction tools u.buildId faults s = (.done (), s', rest) → u.New s' := by
  refine ⟨fun s faults s' rest hs hrun => ?_, fun s faults s' rest hs hrun => ?_⟩
  · exact ((sat_recovery hdigest hprobe).done
      (hs.consistent hdigest hprobe) hrun).symm
  · exact ((sat_applyUpdateTransaction hdigest hprobe).done hs hrun).2

def sampleTools : Tools where
  crates := sampleCrates
  Digest := String
  decDigest := inferInstance
  fileSha256
    | [1, 1] => "9dcf97a184f32623d11a73124ceb99a5709b083721e878a16d78f596718ba7b2"
    | [1, 2] => "a12871fee210fb8619291eaea194581cbd2531e4b23759d225f6806923f63222"
    | [2, 1] => "25dfd29c09617dcc9852281c030e5b3037a338a4712a42a21c907f259c6412a0"
    | [2, 2] => "50cff72c8e550546d661ec235431888fb2f9f7bada40c17020d47f6ccc117aae"
    | _ => ""
  reports program _ := program.head? = some 2

def sample : Update := ⟨[1, 1], [1, 2], [2, 1], [2, 2], "b2"⟩

def sampleDisk : Disk
  | .cli => some [1, 1]
  | .daemon => some [1, 2]
  | .cliCandidate => some [2, 1]
  | .daemonCandidate => some [2, 2]
  | _ => none

theorem sampleDisk_ready : sample.Ready sampleDisk := ⟨⟨rfl, rfl⟩, ⟨rfl, rfl, rfl⟩, rfl, rfl⟩

/-- The process dies once notaryd is replaced. -/
def sampleKilled : Disk :=
  (applyUpdateTransaction sampleTools sample.buildId).after
    (List.replicate 24 .pass ++ [.kill 0]) sampleDisk

/-- The killed update left a mixed pair; recovery brings the old pair back, and an update that
nothing disturbs installs the new one. -/
theorem update_leaves_whole_pair_sample :
    (sampleKilled .cli = some [1, 1] ∧ sampleKilled .daemon = some [2, 2]) ∧
    (recoverInterruptedUpdate sampleTools [] sampleKilled).1 = .done () ∧
    ((sample.Old ((recoverInterruptedUpdate sampleTools).after [] sampleKilled) ∨
        sample.New ((recoverInterruptedUpdate sampleTools).after [] sampleKilled)) ∧
      Clean ((recoverInterruptedUpdate sampleTools).after [] sampleKilled)) ∧
    (applyUpdateTransaction sampleTools sample.buildId [] sampleDisk).1 = .done () ∧
    sample.New ((applyUpdateTransaction sampleTools sample.buildId).after [] sampleDisk) := by
  have hready := sampleDisk_ready
  have hwhole := update_leaves_whole_pair sampleTools sample ⟨by decide, by decide⟩
    ⟨by decide, by decide⟩
  have hrecovered : (recoverInterruptedUpdate sampleTools [] sampleKilled).1 = .done () := by
    decide
  have happlied : (applyUpdateTransaction sampleTools sample.buildId [] sampleDisk).1 =
      .done () := by decide
  refine ⟨by decide, hrecovered, ?_, happlied, ?_⟩
  · exact hwhole.1 _ _ _ _ (.applied hready _) (Prod.ext hrecovered rfl)
  · exact hwhole.2 _ _ _ _ hready (Prod.ext happlied rfl)

end Update

end Notary.Updater
