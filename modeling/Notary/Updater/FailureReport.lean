import Notary.Updater.InstallSafety

/-! What the error of a failed update says about the installed pair. -/

namespace Notary.Updater
open Crash Crash.Prog

variable {tools : Tools} {faults rest : List Fault} {s s' : Disk} {file source backup : FileName}
  {buildId e : String} {phase : JournalPhase}

theorem removeIfExists_failed (h : removeIfExists file faults s = (.failed e, s', rest)) :
    e = interrupted := by
  rcases faults with _ | ⟨_ | _ | _, _⟩ <;> cases h
  rfl

theorem finishTransaction_failed (h : finishTransaction faults s = (.failed e, s', rest)) :
    e = interrupted := by
  obtain h | ⟨_, _, _, -, h⟩ := bind_failed h
  · exact removeIfExists_failed h
  obtain h | ⟨_, _, _, -, h⟩ := bind_failed h
  · exact removeIfExists_failed h
  obtain h | ⟨_, _, faults, -, h⟩ := bind_failed h
  · exact removeIfExists_failed h
  rcases faults with _ | ⟨_ | _ | _, _⟩ <;> cases h
  rfl

/-! How many steps the parts of the transaction take. -/

theorem takes_look {α : Type} (f : Disk → Except String α) : Takes 1 (look f) := takes_step _

theorem takes_change (f : Disk → Except String Disk) : Takes 1 (change f) := takes_step _

theorem takes_writeContents (file : FileName) (contents : Disk → Except String Utf8.Bytes) :
    Takes 1 (writeContents file contents) := takes_step _

theorem takes_attempt_change (f : Disk → Except String Disk) : Takes 1 (change f).attempt :=
  takes_attempt_step _

theorem look_done {α : Type} {f : Disk → Except String α} {a : α}
    (h : look f faults s = (.done a, s', rest)) : rest = faults.drop 1 ∧ f s = .ok a ∧ s' = s := by
  refine ⟨takes_step _ _ _ _ _ _ h, ?_⟩
  rcases faults with _ | ⟨_ | _ | _, _⟩
  case cons.error => cases h
  case cons.kill => cases h
  all_goals
    rcases hf : f s with _ | _
    · simp [look, step, hf] at h
    · simp only [look, step, hf] at h
      cases h
      exact ⟨rfl, rfl⟩

theorem takes_writePending (contents : Utf8.Bytes) :
    Takes (1 + (1 + 1)) (writePending .journalPartial contents) :=
  (takes_look _).bind fun _ => (takes_writeContents _ _).bind fun _ => takes_look _

theorem takes_writePrivateFileAtomically (contents : Utf8.Bytes) :
    Takes 5 (writePrivateFileAtomically .journal .journalPartial contents) := by
  intro faults s _ s' rest h
  obtain ⟨written, _, _, hwritten, h⟩ := bind_done h
  obtain ⟨_, _, _, hremoved, h⟩ := bind_done h
  cases written with
  | error => cases h
  | ok =>
    cases h
    obtain ⟨_, _, _, hpending, hrenamed⟩ := bind_done (attempt_ok hwritten)
    rw [takes_attempt_change _ _ _ _ _ _ hremoved, takes_change _ _ _ _ _ _ hrenamed,
      takes_writePending _ _ _ _ _ _ hpending, List.drop_drop, List.drop_drop]

theorem takes_writeJournal (tools : Tools) (buildId : String) (phase : JournalPhase) :
    Takes (5 + 1) (writeJournal tools buildId phase) :=
  (takes_writePrivateFileAtomically _).bind fun _ => takes_look _

/-- The steps of making a rollback copy. One that cannot be linked is written instead. -/
def linkSteps (faults : List Fault) : ℕ :=
  match faults[1]? with
  | some (Fault.error _) => 7
  | _ => 3

theorem takes_copyBackup (source backup : FileName) (e : String) :
    Takes (1 + (1 + (1 + 1))) (copyBackup source backup (.error e)) :=
  (takes_look _).bind fun _ => (takes_change _).bind fun _ =>
    (takes_writeContents _ _).bind fun _ => takes_look _

theorem ensure_done {c : Prop} [Decidable c] {e : String}
    (h : (ensure c e : Action Unit) faults s = (.done (), s', rest)) :
    c ∧ s' = s ∧ rest = faults := by
  unfold ensure at h
  split_ifs at h with hc
  · cases h
    exact ⟨hc, rfl, rfl⟩
  · cases h

/-- A link is made exactly if there is something to link and its step does not fail. -/
theorem hardLink_done (h : hardLink source backup faults s = (.done (), s', rest)) :
    ∀ written, faults.head? ≠ some (.error written) := by
  rintro written hf
  simp only [hardLink, change, step, hf] at h
  split at h <;> cases h

theorem hardLink_failed (h : hardLink source backup faults s = (.failed e, s', rest))
    (hb : s backup = none) :
    (∃ written, faults.head? = some (.error written)) ∨ s' = s ∧ s source = none := by
  cases hsource : s source with
  | none =>
    simp only [hardLink, change, step, hsource] at h
    cases h
    exact .inr ⟨rfl, rfl⟩
  | some =>
    simp only [hardLink, change, step, hsource, hb] at h
    rcases faults with _ | ⟨_ | written | _, _⟩
    case cons.error => exact .inl ⟨written, rfl⟩
    all_goals cases h

theorem hardLinkBackup_done (h : hardLinkBackup source backup faults s = (.done (), s', rest)) :
    rest = faults.drop (linkSteps faults) := by
  obtain ⟨absent, _, _, habsent, hrun⟩ := bind_done h
  obtain ⟨rfl, hnone, rfl⟩ := look_done habsent
  obtain ⟨_, _, _, hensured, hrun⟩ := bind_done hrun
  obtain ⟨rfl, rfl, rfl⟩ := ensure_done hensured
  obtain ⟨linked, s₁, rest₁, hlinked, hrun⟩ := bind_done hrun
  obtain ⟨_, _, rest₂, hcopied, hrun⟩ := bind_done hrun
  obtain ⟨rfl, -, -⟩ := look_done hrun
  have hrest₁ : rest₁ = faults.drop 2 := by
    rw [takes_attempt_change _ _ _ _ _ _ hlinked, List.drop_drop]
  unfold linkSteps
  rw [← List.head?_drop]
  cases linked with
  | ok =>
    cases hcopied
    rw [hrest₁, List.drop_drop]
    have hok := hardLink_done (attempt_ok hlinked)
    split
    · exact absurd ‹_› (hok _)
    · rfl
  | error e =>
    rw [takes_copyBackup _ _ _ _ _ _ _ _ hcopied, hrest₁, List.drop_drop, List.drop_drop]
    obtain ⟨_, hf⟩ | ⟨rfl, hmissing⟩ := hardLink_failed (attempt_error hlinked)
      (Option.isNone_iff_eq_none.mp (Except.ok.inj hnone))
    · rw [hf]
    · -- There was nothing to link, so there is nothing to copy either.
      obtain ⟨_, _, _, hfound, -⟩ := bind_done hcopied
      obtain ⟨-, hfound, -⟩ := look_done hfound
      simp [contentsOf, hmissing] at hfound

/-! What fails when no fault is injected. -/

theorem look_failed {α : Type} {f : Disk → Except String α}
    (hpass : (faults.take 1).all (· = .pass))
    (h : look f faults s = (.failed e, s', rest)) : s' = s ∧ f s = .error e := by
  rcases faults with _ | ⟨_ | _ | _, _⟩
  case cons.error => simp at hpass
  case cons.kill => simp at hpass
  all_goals
    rcases hf : f s with _ | _
    · simp only [look, step, hf] at h
      cases h
      exact ⟨rfl, rfl⟩
    · simp only [look, step, hf] at h
      cases h

theorem replaceFile_failed (hpass : (faults.take 1).all (· = .pass))
    (h : replaceFile source file faults s = (.failed e, s', rest)) : s source = none := by
  cases hsource : s source with
  | none => rfl
  | some =>
    simp only [replaceFile, change, step, hsource] at h
    rcases faults with _ | ⟨_ | _ | _, _⟩
    case cons.error => simp at hpass
    all_goals cases h

/-- The faults of some of the steps that go through. -/
theorem all_pass_drop {k n : ℕ} (hpass : ((faults.drop k).take n).all (· = .pass)) (i j : ℕ)
    (hij : i + j ≤ n) : ((faults.drop (k + i)).take j).all (· = .pass) := by
  rw [List.all_eq_true] at hpass ⊢
  intro fault hf
  rw [← List.drop_drop, List.take_drop] at hf
  exact hpass fault (List.take_subset_take_left _ hij (List.mem_of_mem_drop hf))

/-- A journal that fails with nothing wrong from its rename on leaves the journal before it. -/
theorem writeJournal_failed (hpass : ((faults.drop 3).take 3).all (· = .pass))
    (h : writeJournal tools buildId phase faults s = (.failed e, s', rest)) :
    s' .journal = s .journal := by
  obtain hfailed | ⟨_, _, rest₁, hdone, h⟩ := bind_failed h
  · obtain h | ⟨written, s₁, rest₁, hwritten, h⟩ := bind_failed hfailed
    · exact absurd h attempt_ne_failed
    obtain h | ⟨_, _, _, hremoved, h⟩ := bind_failed h
    · exact absurd h attempt_ne_failed
    cases written with
    | ok => cases h
    | error =>
      cases h
      let Before (t : Disk) : Prop := t .journal = s .journal
      have hkeeps : Keeps Before .journalPartial := fun _ _ hs => hs
      refine (sat_attempt_removeIfExists hkeeps).done ?_ hremoved
      obtain h | ⟨_, _, _, hdone, h⟩ := bind_failed (attempt_error hwritten)
      · exact (sat_writePending hkeeps).failed rfl h
      · obtain ⟨_, -, rfl⟩ := (sat_writePending hkeeps).done rfl hdone
        rw [takes_writePending _ _ _ _ _ _ hdone] at h
        have hnone := replaceFile_failed (all_pass_drop hpass 0 1 (by decide)) h
        simp at hnone
  · rw [takes_writePrivateFileAtomically _ _ _ _ _ _ hdone] at h
    exact nomatch (look_failed (all_pass_drop hpass 2 1 (by decide)) h).2

theorem ensureCandidateBuild_failed (hpass : (faults.take 1).all (· = .pass))
    (h : ensureCandidateBuild tools file buildId faults s = (.failed e, s', rest)) :
    s' = s ∧ (s file).any (tools.reports · buildId) = false := by
  obtain h | ⟨program, _, _, hfound, hfailed⟩ := bind_failed h
  · obtain ⟨rfl, hmissing⟩ := look_failed hpass h
    refine ⟨rfl, ?_⟩
    cases hs : s' file with
    | none => rfl
    | some => simp [contentsOf, hs] at hmissing
  · obtain ⟨-, hcontents, rfl⟩ := look_done hfound
    unfold ensure at hfailed
    split_ifs at hfailed with hreports
    · cases hfailed
    · cases hfailed
      refine ⟨rfl, ?_⟩
      cases hs : s' file with
      | none => rfl
      | some =>
        simp only [contentsOf, hs, Except.ok.injEq] at hcontents
        simpa [hcontents] using hreports

theorem ensureCandidateBuild_done
    (h : ensureCandidateBuild tools file buildId faults s = (.done (), s', rest)) :
    rest = faults.drop 1 ∧ s' = s := by
  obtain ⟨_, _, _, hfound, hensured⟩ := bind_done h
  obtain ⟨rfl, -, rfl⟩ := look_done hfound
  obtain ⟨-, rfl, rfl⟩ := ensure_done hensured
  exact ⟨rfl, rfl⟩

namespace Update

def restoredMessage : String := "the update failed and the previous pair was restored"

/-- The steps of `replaceFiles`. -/
def filesSteps (faults : List Fault) : ℕ :=
  let cliLink := linkSteps faults + 14
  cliLink + linkSteps (faults.drop cliLink) + 8

/-- Nothing fails from the rename of the last journal on: neither this rename, nor what follows it
in the replacement. The transaction takes nine steps before the replacement, and the journal three
before its rename. -/
def sparesLastJournal (faults : List Fault) : Bool :=
  ((faults.drop (9 + filesSteps (faults.drop 9) + 3)).take 5).all (· = .pass)

theorem allAbsent_done (files : List FileName)
    (h : allAbsent files faults s = (.done true, s', rest)) :
    rest = faults.drop files.length := by
  induction files generalizing faults with
  | nil =>
    cases h
    rfl
  | cons file files ih =>
    obtain ⟨absent, _, _, habsent, hrest⟩ := bind_done h
    obtain ⟨rfl, -, rfl⟩ := look_done habsent
    split_ifs at hrest
    · rw [ih hrest, List.drop_drop, List.length_cons, Nat.add_comm]
    · cases hrest

theorem takes_beginUpdate (tools : Tools) (buildId : String) :
    Takes 9 (beginUpdate tools buildId) := by
  intro faults s _ s' rest h
  obtain ⟨clean, _, _, hclean, h⟩ := bind_done h
  obtain ⟨_, _, _, hensured, hwritten⟩ := bind_done h
  obtain ⟨rfl, rfl, rfl⟩ := ensure_done hensured
  rw [takes_writeJournal _ _ _ _ _ _ _ _ hwritten, allAbsent_done _ hclean, List.drop_drop]
  rfl

theorem replaceFiles_done (h : replaceFiles tools buildId faults s = (.done (), s', rest)) :
    rest = faults.drop (filesSteps faults) := by
  obtain ⟨_, _, _, hdaemon, h⟩ := bind_done h
  obtain ⟨_, _, _, hreplacing, h⟩ := bind_done h
  obtain ⟨_, _, _, hreplace, h⟩ := bind_done h
  obtain ⟨_, _, _, hsync, h⟩ := bind_done h
  obtain ⟨_, _, _, hreplaced, h⟩ := bind_done h
  obtain ⟨_, _, _, hcli, h⟩ := bind_done h
  have hrest : Takes (5 + 1 + (1 + 1)) (do
      writeJournal tools buildId .replacingNotaryctl
      replaceFile .cliCandidate .cli
      sync) :=
    (takes_writeJournal _ _ _).bind fun _ => (takes_change _).bind fun _ => takes_look _
  rw [hrest _ _ _ _ _ h, hardLinkBackup_done hcli, takes_writeJournal _ _ _ _ _ _ _ _ hreplaced,
    takes_look _ _ _ _ _ _ hsync, takes_change _ _ _ _ _ _ hreplace,
    takes_writeJournal _ _ _ _ _ _ _ _ hreplacing, hardLinkBackup_done hdaemon]
  simp only [List.drop_drop, filesSteps]

variable {u : Update}

/-- When nothing fails from the rename of the last journal on, recovery does not find the new pair
recorded. -/
theorem not_kept (hpass : ((faults.drop (filesSteps faults + 3)).take 5).all (· = .pass))
    (hs : u.Stage tools .prepared u.oldCli u.oldDaemon
      [(.cliCandidate, u.newCli), (.daemonCandidate, u.newDaemon)] s)
    (h : replaceInstalledPair tools u.buildId faults s = (.failed e, s', rest)) :
    ¬ u.Kept tools s' := by
  have hjournal {phase : JournalPhase} (hne : phase ≠ .notaryctlReplaced) (t : Disk)
      (ht : t .journal = some ((⟨journalSchema, u.buildId, phase⟩ : UpdateJournal).bytes tools)) :
      ¬ u.Kept tools t := by
    rintro ⟨⟨hlast, -⟩, -⟩
    have hread := congrArg (readJournal tools) (Option.some.inj (ht.symm.trans hlast))
    rw [readJournal_bytes, readJournal_bytes] at hread
    cases hread
    exact hne rfl
  rw [replaceInstalledPair_eq] at h
  obtain h | ⟨_, s₁, _, hdone, h⟩ := bind_failed h
  · obtain ⟨phase, hne, hat⟩ := sat_replaceFiles.failed hs h
    exact hjournal hne s' hat.1
  have hstage := sat_replaceFiles.done hs hdone
  have hrest := replaceFiles_done hdone
  obtain h | ⟨_, _, _, hwritten, h⟩ := bind_failed h
  · refine hjournal (by decide : JournalPhase.replacingNotaryctl ≠ .notaryctlReplaced) s' ?_
    rw [writeJournal_failed ?_ h]
    · exact hstage.1
    · rw [hrest, List.drop_drop]
      exact all_pass_drop hpass 0 3 (by decide)
  rw [takes_writeJournal _ _ _ _ _ _ _ _ hwritten, hrest, List.drop_drop] at h
  obtain h | ⟨_, _, _, hprobed, hfailed⟩ := bind_failed h
  · obtain ⟨rfl, hsilent⟩ := ensureCandidateBuild_failed (all_pass_drop hpass 3 1 (by decide)) h
    rintro ⟨-, hreports⟩
    simp [pairReports, hsilent] at hreports
  · obtain ⟨rfl, rfl⟩ := ensureCandidateBuild_done hprobed
    rw [List.drop_drop] at hfailed
    obtain ⟨rfl, hsilent⟩ :=
      ensureCandidateBuild_failed (all_pass_drop hpass 4 1 (by decide)) hfailed
    rintro ⟨-, hreports⟩
    simp [pairReports, hsilent] at hreports

/-- An update that says the previous pair was restored has left the old pair, in every run in which
nothing fails from the rename of the last journal on. -/
theorem restored_report_truthful (tools : Tools) (u : Update) (hdigest : Distinguishes tools u)
    (hprobe : HonestProbe tools u) (s : Disk) (hready : u.Ready s) (faults : List Fault)
    (hspared : sparesLastJournal faults = true) (s' : Disk) (rest : List Fault)
    (hrun : applyUpdateTransaction tools u.buildId faults s =
      (.failed restoredMessage, s', rest)) : u.Old s' := by
  rw [applyUpdateTransaction_eq] at hrun
  have hbegin : Sat u.Old u.Ready (beginUpdate tools u.buildId) _ :=
    sat_beginUpdate (fun _ hs => hs.old) fun _ hs => ⟨hs.2.1, hs.2.2.1⟩
  obtain hfailed | ⟨_, s₁, rest₁, hdone, hrun⟩ := bind_failed hrun
  · exact hbegin.failed hready hfailed
  have hstage := hbegin.done hready hdone
  have hrest := takes_beginUpdate tools u.buildId _ _ _ _ _ hdone
  rcases hreplace : replaceInstalledPair tools u.buildId rest₁ s₁ with ⟨_ | _ | _, s₂, rest₂⟩
  · -- The pair was replaced, so the error is one of removing what is left.
    rw [bind_of_done (by rw [attempt, hreplace])] at hrun
    exact absurd (finishTransaction_failed hrun) (by decide)
  · rw [bind_of_done (by rw [attempt, hreplace])] at hrun
    obtain ⟨phase, hat⟩ := sat_replaceInstalledPair.failed hstage hreplace
    have hrecover := (sat_recoverInterruptedUpdate hdigest hprobe (· = s₂))
    rcases hx : recoverInterruptedUpdate tools rest₂ s₂ with ⟨_ | _ | _, _, _⟩
    · rw [settleUpdate, bind_of_done (by rw [attempt, hx])] at hrun
      cases hrun
      obtain ⟨-, hold | ⟨-, _, rfl, hclean | hkept⟩⟩ := hrecover.done ⟨.inr ⟨phase, hat⟩, rfl⟩ hx
      · exact hold
      · exact absurd (hat.1.symm.trans hclean.1) nofun
      · refine absurd hkept (not_kept ?_ hstage hreplace)
        rw [hrest, List.drop_drop, ← Nat.add_assoc]
        exact hspared
    · rw [settleUpdate, bind_of_done (by rw [attempt, hx])] at hrun
      have hmessage : "the update failed and recovery also failed" = restoredMessage :=
        Outcome.failed.inj (congrArg Prod.fst hrun)
      exact absurd hmessage (by decide)
    · change Prog.bind _ _ _ _ = _ at hrun
      rw [Prog.bind, attempt, hx] at hrun
      cases hrun
  · change Prog.bind _ _ _ _ = _ at hrun
    rw [Prog.bind, attempt, hreplace] at hrun
    cases hrun

/-- The sync of the directory fails after the last journal was put in place: recovery keeps the
new pair, and the error says that the previous one was restored. -/
theorem restored_report_wrong : sample.Ready sampleDisk ∧ HonestProbe sampleTools sample ∧
    (applyUpdateTransaction sampleTools sample.buildId (List.replicate 42 .pass ++ [.error 0])
      sampleDisk).1 = .failed restoredMessage ∧
    sample.New ((applyUpdateTransaction sampleTools sample.buildId).after
      (List.replicate 42 .pass ++ [.error 0]) sampleDisk) :=
  ⟨sampleDisk_ready, ⟨by decide, by decide⟩, by decide, by decide, by decide⟩

/-- The sync after notaryd was replaced fails, and the old pair is back. -/
theorem restored_report_truthful_sample :
    sparesLastJournal (List.replicate 25 .pass ++ [.error 0]) = true ∧
    (applyUpdateTransaction sampleTools sample.buildId (List.replicate 25 .pass ++ [.error 0])
      sampleDisk).1 = .failed restoredMessage ∧
    sample.Old ((applyUpdateTransaction sampleTools sample.buildId).after
      (List.replicate 25 .pass ++ [.error 0]) sampleDisk) := by
  have hspared : sparesLastJournal (List.replicate 25 .pass ++ [.error 0]) = true := by decide
  have hfailed : (applyUpdateTransaction sampleTools sample.buildId
      (List.replicate 25 .pass ++ [.error 0]) sampleDisk).1 = .failed restoredMessage := by decide
  exact ⟨hspared, hfailed, restored_report_truthful sampleTools sample ⟨by decide, by decide⟩
    ⟨by decide, by decide⟩ sampleDisk sampleDisk_ready _ hspared _ _ (Prod.ext hfailed rfl)⟩

end Update

end Notary.Updater
