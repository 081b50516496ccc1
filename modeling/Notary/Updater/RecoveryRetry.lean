import Notary.Updater.InstallSafety

/-! When a recovery that nothing disturbs succeeds: the rollback copies that the journal calls for
have to be there. -/

namespace Notary.Updater
open Function Option
open Utf8 (Bytes)
open Crash Crash.Prog

variable {tools : Tools} {s : Disk} {file backup target pending : FileName} {data : Bytes}

/-! Runs in which no step fails. -/

theorem inspect_run (h : s file = some data) : inspect file [] s = (.done data, s, []) := by
  simp [inspect, look, step, contentsOf, h]

theorem inspect_missing (h : s file = none) :
    inspect file [] s = (.failed "no such file", s, []) := by
  simp [inspect, look, step, contentsOf, h]

theorem alreadyRestored_run (tools : Tools) (target : FileName) (h : s backup = some data) :
    ∃ restored, alreadyRestored tools backup target [] s = (.done restored, s, []) := by
  have hf : isFile target [] s = (.done (s target).isSome, s, []) := rfl
  cases ht : s target with
  | none =>
    refine ⟨false, ?_⟩
    rw [alreadyRestored, bind_of_done hf, ht]
    rfl
  | some =>
    rw [alreadyRestored, bind_of_done hf, ht]
    simp only [isSome_some, if_true, filesMatch]
    rw [bind_of_done (inspect_run h), bind_of_done (inspect_run ht)]
    split_ifs
    · exact ⟨false, rfl⟩
    · rw [bind_of_done (inspect_run h), bind_of_done (inspect_run ht)]
      exact ⟨_, rfl⟩

/-- Only the target and the pending copy change. -/
theorem restoreBackup_run (tools : Tools) (target : FileName) (h : s backup = some data)
    (hn : backup ≠ pending) :
    ∃ s', restoreBackup tools backup target pending [] s = (.done (), s', []) ∧
      ∀ f, f ≠ target → f ≠ pending → s' f = s f := by
  obtain ⟨_, hre⟩ := alreadyRestored_run tools target h
  rw [restoreBackup, bind_of_done (inspect_run h), bind_of_done hre]
  split_ifs
  · exact ⟨s, rfl, fun _ _ _ => rfl⟩
  · have hrm : removeIfExists pending [] s = (.done (), Function.update s pending none, []) := rfl
    have hc : copyContents backup pending [] (Function.update s pending none) =
        (.done (), Function.update s pending (some data), []) := by
      simp [copyContents, writeContents, step, contentsOf, update_of_ne hn, h]
    have hp : Function.update s pending (some data) pending = some data := update_self ..
    have hs (t : Disk) : sync [] t = (.done (), t, []) := rfl
    rw [bind_of_done hrm, bind_of_done hc, bind_of_done (inspect_run hp), bind_of_done (hs _)]
    have hr : replaceFile pending target [] (Function.update s pending (some data)) =
        (.done (), Function.update (Function.update (Function.update s pending (some data)) target
          (some data)) pending none, []) := by
      simp [replaceFile, change, step]
    refine ⟨_, hr, fun f ht hf => ?_⟩
    rw [update_of_ne hf, update_of_ne ht, update_of_ne hf]

theorem restoreBackup_missing (h : s backup = none) :
    restoreBackup tools backup target pending [] s = (.failed "no such file", s, []) := by
  rw [restoreBackup, bind_of_failed (inspect_missing h)]

theorem finishTransaction_run (s : Disk) : (finishTransaction [] s).1 = .done () := rfl

theorem restoreDaemon_done_iff (tools : Tools) (s : Disk) :
    ((do restoreBackup tools .daemonBackup .daemon .daemonRestore; finishTransaction) [] s).1 =
      .done () ↔ (s .daemonBackup).isSome = true := by
  cases h : s .daemonBackup with
  | none =>
    rw [bind_of_failed (restoreBackup_missing h)]
    exact iff_of_false nofun nofun
  | some =>
    obtain ⟨s', hr, -⟩ := restoreBackup_run tools .daemon h
      (by decide : FileName.daemonBackup ≠ .daemonRestore)
    rw [bind_of_done hr]
    exact iff_of_true (finishTransaction_run s') rfl

theorem restorePair_done_iff : ((do restorePair tools; finishTransaction) [] s).1 = .done () ↔
      (s .cliBackup).isSome = true ∧ (s .daemonBackup).isSome = true := by
  cases h : s .cliBackup with
  | none =>
    have hf : restorePair tools [] s = (.failed "no such file", s, []) := by
      rw [restorePair, bind_of_failed (restoreBackup_missing h)]
    rw [bind_of_failed hf]
    exact iff_of_false nofun fun hn => nomatch hn.1
  | some =>
    obtain ⟨s', hr, hk⟩ := restoreBackup_run tools .cli h
      (by decide : FileName.cliBackup ≠ .cliRestore)
    have hd : s' .daemonBackup = s .daemonBackup := hk _ (by decide) (by decide)
    have hp : restorePair tools [] s =
        restoreBackup tools .daemonBackup .daemon .daemonRestore [] s' := bind_of_done hr
    have hi := restoreDaemon_done_iff tools s'
    change (Prog.bind _ _ _ _).1 = _ ↔ _ at hi ⊢
    rw [Prog.bind] at hi ⊢
    rw [hp]
    exact hi.trans (by rw [hd]; exact ⟨fun hs => ⟨rfl, hs⟩, fun hs => hs.2⟩)

theorem ensureCandidateBuild_run (tools : Tools) (file : FileName) (buildId : String) (s : Disk) :
    ∃ r : Except String Unit, (ensureCandidateBuild tools file buildId).attempt [] s =
      (.done r, s, []) ∧ r.toBool = (s file).any (tools.reports · buildId) := by
  unfold attempt ensureCandidateBuild
  cases h : s file with
  | none =>
    rw [bind_of_failed (inspect_missing h)]
    exact ⟨_, rfl, rfl⟩
  | some program =>
    rw [bind_of_done (inspect_run h)]
    cases hr : tools.reports program buildId with
    | true => exact ⟨.ok (), by simp [ensure, Prog.pure], by simp [hr]; rfl⟩
    | false => exact ⟨.error _, by simp [ensure, fail]; rfl, by simp [hr]; rfl⟩

theorem bothReport_run (tools : Tools) (buildId : String) (s : Disk) :
    bothReport tools buildId [] s = (.done (pairReports tools buildId s), s, []) := by
  obtain ⟨cli, hc, hr⟩ := ensureCandidateBuild_run tools .cli buildId s
  obtain ⟨_, hd, hr'⟩ := ensureCandidateBuild_run tools .daemon buildId s
  rw [bothReport, bind_of_done hc, pairReports, ← hr, ← hr']
  cases cli with
  | error => rfl
  | ok =>
    dsimp only
    rw [bind_of_done hd]
    rfl

/-- Every rollback copy that the phase of the journal calls for is there. -/
def CopiesKept (tools : Tools) (s : Disk) (journal : UpdateJournal) : Prop :=
  match journal.phase with
  | .prepared => True
  | .replacingNotaryd | .notarydReplaced => (s .daemonBackup).isSome = true
  | .replacingNotaryctl => (s .cliBackup).isSome = true ∧ (s .daemonBackup).isSome = true
  | .notaryctlReplaced => pairReports tools journal.buildId s = true ∨
      (s .cliBackup).isSome = true ∧ (s .daemonBackup).isSome = true

theorem recoverPhase_done_iff (journal : UpdateJournal) :
    (recoverPhase tools journal [] s).1 = .done () ↔ CopiesKept tools s journal := by
  unfold recoverPhase CopiesKept
  cases journal.phase with
  | prepared => exact iff_of_true (finishTransaction_run s) trivial
  | replacingNotaryd | notarydReplaced => exact restoreDaemon_done_iff tools s
  | replacingNotaryctl => exact restorePair_done_iff
  | notaryctlReplaced =>
    dsimp only
    rw [bind_of_done (bothReport_run tools journal.buildId s)]
    split_ifs with hr
    · exact iff_of_true (finishTransaction_run s) (.inl hr)
    · rw [restorePair_done_iff]
      exact (or_iff_right hr).symm

namespace Update

/-- After an update and any number of recoveries that were killed or failed anywhere, a recovery
that nothing disturbs succeeds exactly if the journal is gone or the rollback copies that its phase
calls for are there. -/
theorem recovery_repeats_iff (tools : Tools) (u : Update) (s : Disk)
    (hdigest : Distinguishes tools u) (hprobe : HonestProbe tools u)
    (hid : validIdentifier u.buildId = true) (h : u.History tools s) :
    (recoverInterruptedUpdate tools [] s).1 = .done () ↔
      ∀ data journal, s .journal = some data → readJournal tools data = .ok journal →
        CopiesKept tools s journal := by
  have habsent : pathIsAbsent .journal [] s = (.done (s .journal).isNone, s, []) := rfl
  rw [recoverInterruptedUpdate, bind_of_done habsent]
  obtain ⟨⟨hjournal, hcli, hdaemon⟩, -⟩ | ⟨phase, hjournal, -⟩ := h.consistent hdigest hprobe
  · have hclean : allAbsent [.cliBackup, .daemonBackup] [] s = (.done true, s, []) := by
      simp [allAbsent, pathIsAbsent, look, step, hcli, hdaemon, Bind.bind, Prog.bind, pure,
        Prog.pure]
    rw [hjournal]
    refine iff_of_true ?_ (by simp)
    simp only [isNone_none, if_true]
    rw [bind_of_done hclean]
    rfl
  · have hread := readJournal_bytes tools ⟨journalSchema, u.buildId, phase⟩
    rw [hjournal]
    simp only [isNone_some, Bool.false_eq_true, if_false, Option.some.injEq]
    rw [bind_of_done (inspect_run hjournal), hread]
    have hvalue (journal : UpdateJournal) :
        (Prog.ofExcept (.ok journal) : Action UpdateJournal) [] s = (.done journal, s, []) := rfl
    rw [bind_of_done (hvalue _), bind_of_done (ensure_of rfl _ _ _),
      bind_of_done (ensure_of hid _ _ _)]
    refine (recoverPhase_done_iff ⟨journalSchema, u.buildId, phase⟩).trans ⟨?_, fun hkept => ?_⟩
    · rintro hkept _ _ rfl hjournal'
      cases hread.symm.trans hjournal'
      exact hkept
    · exact hkept _ _ rfl hread

theorem recovery_repeats_iff_sample :
    (recoverInterruptedUpdate sampleTools [] sampleKilled).1 = .done () ∧
    ∀ data journal, sampleKilled .journal = some data →
      readJournal sampleTools data = .ok journal → CopiesKept sampleTools sampleKilled journal := by
  have hrecovered : (recoverInterruptedUpdate sampleTools [] sampleKilled).1 = .done () := by
    decide
  exact ⟨hrecovered, (recovery_repeats_iff sampleTools sample sampleKilled
    ⟨by decide, by decide⟩ ⟨by decide, by decide⟩ (by decide)
    (.applied sampleDisk_ready _)).mp hrecovered⟩

/-- The recovery of the killed update dies once it has removed the rollback copy of notaryd. -/
def sampleStranded : Disk :=
  (recoverInterruptedUpdate sampleTools).after (List.replicate 14 .pass ++ [.kill 1]) sampleKilled

/-- The old pair is back and the journal is left, and no further recovery succeeds. -/
theorem recovery_stranded :
    sample.History sampleTools sampleStranded ∧ sample.Old sampleStranded ∧
      sampleTools.reports sample.newCli sample.buildId = true ∧
      sampleTools.reports sample.newDaemon sample.buildId = true ∧
      (recoverInterruptedUpdate sampleTools [] sampleStranded).1 = .failed "no such file" := by
  exact ⟨.recovered (.applied sampleDisk_ready _) _, ⟨rfl, rfl⟩, by decide, by decide, by decide⟩

end Update

end Notary.Updater
