import Notary.Core.PublicSafety

/-! Forcing a publication overrides the findings about entropy and nothing else. -/

namespace Notary.Core
open Utf8 Json

def highEntropyCode : String := "high_entropy_value"

/-- How a scan that may override findings goes, compared with one that may not. Without a finding
both go the same way; a finding ends the one and is noted by the other. -/
structure Overrides {α : Type} (m : Scan α) : Prop where
  same : ∀ applied a scan, m ⟨false, applied⟩ = .ok (a, scan) →
    scan = ⟨false, applied⟩ ∧ m ⟨true, applied⟩ = .ok (a, ⟨true, applied⟩)
  fatal : ∀ applied e, m ⟨false, applied⟩ = .error e → e.code ≠ highEntropyCode →
    m ⟨true, applied⟩ = .error e
  noted : ∀ applied e a scan, m ⟨false, applied⟩ = .error e → e.code = highEntropyCode →
    m ⟨true, applied⟩ = .ok (a, scan) → scan.highEntropyOverrideApplied = true
  never : ∀ applied e, m ⟨true, applied⟩ = .error e → e.code ≠ highEntropyCode
  kept : ∀ applied a scan, m ⟨true, applied⟩ = .ok (a, scan) →
    scan.allowHighEntropy = true ∧ (applied = true → scan.highEntropyOverrideApplied = true)

namespace Overrides

variable {α β : Type}

theorem pure (a : α) : Overrides (Pure.pure a : Scan α) where
  same := by rintro applied _ _ ⟨⟩; exact ⟨rfl, rfl⟩
  fatal := by rintro applied e ⟨⟩
  noted := by rintro applied e _ _ ⟨⟩
  never := by rintro applied _ ⟨⟩
  kept := by rintro _ _ _ ⟨⟩; exact ⟨rfl, id⟩

theorem throw (h : code ≠ highEntropyCode) (location : PublicPackageLocation) :
    Overrides (MonadExcept.throw ⟨code, location⟩ : Scan α) where
  same := by rintro applied _ _ ⟨⟩
  fatal := by rintro applied _ ⟨⟩ -; rfl
  noted := by rintro applied _ _ _ ⟨⟩ hc; exact absurd hc h
  never := by rintro applied _ ⟨⟩; exact h
  kept := by rintro _ _ _ ⟨⟩

theorem bind_error {f : α → Scan β} (h : m scan = .error e) : (m >>= f) scan = .error e := by
  simp [Bind.bind, StateT.bind, h, Except.bind]

theorem bind_ok {f : α → Scan β} (h : m scan = .ok (a, scan')) : (m >>= f) scan = f a scan' := by
  simp [Bind.bind, StateT.bind, h, Except.bind]

theorem bind {f : α → Scan β} (hm : Overrides m) (hf : ∀ a, Overrides (f a)) :
    Overrides (m >>= f) where
  same := by
    intro applied b scan h
    cases hp : m ⟨false, applied⟩ with
    | error => cases (bind_error hp).symm.trans h
    | ok r =>
      obtain ⟨a, scan'⟩ := r
      obtain ⟨rfl, hfo⟩ := hm.same applied a scan' hp
      rw [bind_ok hp] at h
      rw [bind_ok hfo]
      exact (hf a).same applied b scan h
  fatal := by
    intro applied e h hc
    cases hp : m ⟨false, applied⟩ with
    | error =>
      cases (bind_error hp).symm.trans h
      exact bind_error (hm.fatal applied e hp hc)
    | ok r =>
      obtain ⟨a, scan'⟩ := r
      obtain ⟨rfl, hfo⟩ := hm.same applied a scan' hp
      rw [bind_ok hp] at h
      rw [bind_ok hfo]
      exact (hf a).fatal applied e h hc
  noted := by
    intro applied e b scan h hc hs
    cases hp : m ⟨false, applied⟩ with
    | error e' =>
      cases (bind_error hp).symm.trans h
      cases hfo : m ⟨true, applied⟩ with
      | error => cases (bind_error hfo).symm.trans hs
      | ok r =>
        -- The finding is noted by the first scan, and the second one keeps the note.
        obtain ⟨a, allow, applied'⟩ := r
        have hn : applied' = true := hm.noted applied e a _ hp hc hfo
        have ha : allow = true := (hm.kept applied a _ hfo).1
        subst hn ha
        rw [bind_ok hfo] at hs
        exact ((hf a).kept true b scan hs).2 rfl
    | ok r =>
      obtain ⟨a, scan'⟩ := r
      obtain ⟨rfl, hfo⟩ := hm.same applied a scan' hp
      rw [bind_ok hp] at h
      rw [bind_ok hfo] at hs
      exact (hf a).noted applied e b scan h hc hs
  never := by
    intro applied e h
    cases hfo : m ⟨true, applied⟩ with
    | error =>
      cases (bind_error hfo).symm.trans h
      exact hm.never applied e hfo
    | ok r =>
      obtain ⟨a, allow, applied'⟩ := r
      have ha : allow = true := (hm.kept applied a _ hfo).1
      subst ha
      rw [bind_ok hfo] at h
      exact (hf a).never applied' e h
  kept := by
    intro applied b scan h
    cases hfo : m ⟨true, applied⟩ with
    | error => cases (bind_error hfo).symm.trans h
    | ok r =>
      obtain ⟨a, _, applied'⟩ := r
      obtain ⟨ha, hn⟩ := hm.kept applied a _ hfo
      simp only at ha hn
      subst ha
      rw [bind_ok hfo] at h
      obtain ⟨ha', hn'⟩ := (hf a).kept applied' b scan h
      exact ⟨ha', fun hap => hn' (hn hap)⟩

/-- The one place that makes findings to override. -/
theorem rejectHighEntropy (location : PublicPackageLocation) :
    Overrides (Core.rejectHighEntropy location) where
  same := by rintro applied _ _ ⟨⟩
  fatal := by rintro applied _ ⟨⟩ hc; exact absurd rfl hc
  noted := by rintro applied _ _ _ ⟨⟩ - ⟨⟩; rfl
  never := by rintro applied _ ⟨⟩
  kept := by rintro _ _ _ ⟨⟩; exact ⟨rfl, fun _ => rfl⟩

theorem scanEntropyTokens (test : Bytes → Bool) (b : Bytes) (key : Option String) (exempt : Bool)
    (location : PublicPackageLocation) :
    Overrides (Core.scanEntropyTokens test b key exempt location) := by
  unfold Core.scanEntropyTokens
  split_ifs
  · exact pure ()
  · exact rejectHighEntropy location
  · exact pure ()

theorem scanPublicBytes (b : Bytes) (location : PublicPackageLocation) :
    Overrides (Core.scanPublicBytes b location) := by
  unfold Core.scanPublicBytes
  split_ifs
  · exact throw (by decide) location
  · exact pure ()

theorem orReject {ε : Type} (x : Except ε α) (h : code ≠ highEntropyCode)
    (location : PublicPackageLocation) : Overrides (Core.orReject x code location) := by
  cases x with
  | ok a => exact pure a
  | error => exact throw h location

theorem splitHttp (b : Bytes) (location : PublicPackageLocation) :
    Overrides (Core.splitHttp b location) := by
  unfold Core.splitHttp
  split
  · exact throw (by decide) location
  · exact pure _

theorem scanRequestTarget (head : Bytes) : Overrides (Core.scanRequestTarget head) := by
  unfold Core.scanRequestTarget
  split
  · exact throw (by decide) _
  · split
    · exact pure ()
    · split_ifs
      · exact throw (by decide) _
      · exact pure ()

section

variable {F : Type} [Floats F] (test : Bytes → Bool) (location : PublicPackageLocation)
  (context : Option PublicPackageSafetyContext)
  {scanInner : Value F → Option String → List JsonPathSegment → Nested → Scan Nested}

theorem scanJsonString
    (hi : ∀ v key path nested, Overrides (scanInner v key path nested)) (exemptionsAllowed : Bool)
    (value : String) (key : Option String)
    (path : List JsonPathSegment) (nested : Nested) :
    Overrides (Core.scanJsonString test location context scanInner exemptionsAllowed value key
      path nested) := by
  unfold Core.scanJsonString
  refine bind (scanPublicBytes _ _) fun _ => bind (scanEntropyTokens _ _ _ _ _) fun _ => ?_
  dsimp only
  split_ifs
  · split
    · exact hi _ _ _ _
    · exact pure _
  · exact pure _

mutual

theorem scanJsonTree
    (hi : ∀ v key path nested, Overrides (scanInner v key path nested)) (exemptionsAllowed : Bool)
    (value : Value F) (key : Option String)
    (path : List JsonPathSegment) (nested : Nested) :
    Overrides (Core.scanJsonTree test location context scanInner exemptionsAllowed value key path
      nested) := by
  rw [Core.scanJsonTree.eq_def]
  dsimp only
  split_ifs
  · exact throw (by decide) location
  · match value with
    | .object members => exact scanJsonMembers hi _ _ members _ _
    | .array values => exact scanJsonElements hi _ _ _ values _ _
    | .string value => exact scanJsonString test location context hi _ _ _ _ _
    | .null => exact pure _
    | .bool _ => exact pure _
    | .number _ => exact pure _

theorem scanJsonMembers
    (hi : ∀ v key path nested, Overrides (scanInner v key path nested)) (exemptionsAllowed : Bool)
    (childKey : String → Option String)
    (members : List (String × Value F)) (path : List JsonPathSegment) (nested : Nested) :
    Overrides (Core.scanJsonMembers test location context scanInner exemptionsAllowed childKey
      members path nested) := by
  match members with
  | [] => exact pure _
  | (name, value) :: members =>
    exact bind (scanJsonTree hi _ value _ _ _) fun _ => scanJsonMembers hi _ _ members _ _

theorem scanJsonElements
    (hi : ∀ v key path nested, Overrides (scanInner v key path nested)) (exemptionsAllowed : Bool)
    (key : Option String) (index : ℕ)
    (values : List (Value F)) (path : List JsonPathSegment) (nested : Nested) :
    Overrides (Core.scanJsonElements test location context scanInner exemptionsAllowed key index
      values path nested) := by
  match values with
  | [] => exact pure _
  | value :: values =>
    exact bind (scanJsonTree hi _ value _ _ _) fun _ => scanJsonElements hi _ _ _ values _ _

end

theorem scanJsonValue (fuel : ℕ) (exemptionsAllowed : Bool) (value : Value F)
    (key : Option String) (path : List JsonPathSegment) (nested : Nested) :
    Overrides (Core.scanJsonValue test location context fuel exemptionsAllowed value key path
      nested) := by
  induction fuel generalizing exemptionsAllowed value key path nested with
  | zero => exact scanJsonTree test location context (fun _ _ _ _ => pure _) _ _ _ _ _
  | succ _ ih => exact scanJsonTree test location context (fun _ _ _ _ => ih ..) _ _ _ _ _

end

section

variable (c : Crates) (test : Bytes → Bool) (context : Option PublicPackageSafetyContext)
  (location : PublicPackageLocation)

theorem scanJsonWithContext (b : Bytes) :
    Overrides (Core.scanJsonWithContext c test context location b) := by
  unfold Core.scanJsonWithContext
  split
  · exact throw (by decide) location
  · exact bind (scanJsonValue ..) fun _ => pure ()

theorem scanSseLines (lines : List (List Char)) (sawJson : Bool) :
    Overrides (Core.scanSseLines c test context location lines sawJson) := by
  induction lines generalizing sawJson with
  | nil => exact pure sawJson
  | cons _ _ ih =>
    rw [Core.scanSseLines]
    dsimp only
    split_ifs
    · exact ih sawJson
    · exact bind (scanEntropyTokens ..) fun _ => ih sawJson
    · split
      · exact pure false
      · split_ifs
        · exact ih sawJson
        · exact pure false
        · exact bind (scanJsonWithContext ..) fun _ => ih true

theorem scanSseJson (b : Bytes) : Overrides (Core.scanSseJson c test context location b) := by
  unfold Core.scanSseJson
  split
  · exact pure false
  · exact scanSseLines ..

theorem scanBody (b : Bytes) : Overrides (Core.scanBody c test context location b) := by
  have ho : ∀ structured : Bool, Overrides (if structured then Pure.pure ()
      else Core.scanEntropyTokens test b none false location) := by
    intro _
    split_ifs
    · exact pure ()
    · exact scanEntropyTokens ..
  unfold Core.scanBody
  split_ifs
  · exact pure ()
  · exact scanJsonWithContext ..
  · exact bind (scanPublicBytes ..) fun _ => bind (scanSseJson ..) ho
  · exact bind (scanPublicBytes ..) fun _ => bind (pure false) ho

theorem scanTracePackage (b : Bytes) : Overrides (Core.scanTracePackage c test context b) := by
  unfold Core.scanTracePackage
  refine bind (orReject _ (by decide) _) fun archive => ?_
  refine bind (orReject _ (by decide) _) fun request => ?_
  refine bind (orReject _ (by decide) _) fun response => ?_
  refine bind (orReject _ (by decide) _) fun _ => ?_
  refine bind (orReject _ (by decide) _) fun _ => ?_
  refine bind (splitHttp ..) fun requestParts => ?_
  refine bind (splitHttp ..) fun responseParts => ?_
  refine bind (scanRequestTarget _) fun _ => ?_
  refine bind (scanPublicBytes ..) fun _ => bind (scanPublicBytes ..) fun _ => ?_
  refine bind (scanBody ..) fun _ => bind (scanBody ..) fun _ => ?_
  refine bind (scanJsonWithContext ..) fun _ => ?_
  refine bind (orReject _ (by decide) _) fun _ => bind (scanJsonWithContext ..) fun _ => ?_
  refine bind (orReject _ (by decide) _) fun _ => bind (scanPublicBytes ..) fun _ => ?_
  refine bind (orReject _ (by decide) _) fun _ => bind (scanJsonWithContext ..) fun _ => ?_
  exact scanPublicBytes ..

end

end Overrides

section

variable {c : Crates} {test : Bytes → Bool} {context : Option PublicPackageSafetyContext}
  {b : Bytes} {allow : Bool}

theorem validate_ok (h : scanTracePackage c test context b ⟨allow, false⟩ = .ok (u, scan)) :
    validatePublicTracePackageInner c test context b allow =
      .ok ⟨publicPackageSafetyVersion, scan.highEntropyOverrideApplied⟩ := by
  simp [validatePublicTracePackageInner, StateT.run, h, Bind.bind, Except.bind, pure, Except.pure]

theorem validate_error (h : scanTracePackage c test context b ⟨allow, false⟩ = .error e) :
    validatePublicTracePackageInner c test context b allow = .error e := by
  simp [validatePublicTracePackageInner, StateT.run, h, Bind.bind, Except.bind]

end

/-- Forcing changes the outcome only where the plain validation finds high entropy: it accepts
what that accepts, fails with every other error of it, and notes exactly the overridden
findings. -/
theorem force_overrides_only_entropy (c : Crates) (test : Bytes → Bool)
    (context : Option PublicPackageSafetyContext) (b : Bytes) :
    (∀ r, validatePublicTracePackageInner c test context b false = .ok r →
      validatePublicTracePackageInner c test context b true = .ok r ∧
        r.highEntropyOverrideApplied = false) ∧
    (∀ e, validatePublicTracePackageInner c test context b false = .error e →
      e.code ≠ highEntropyCode →
      validatePublicTracePackageInner c test context b true = .error e) ∧
    (∀ e, validatePublicTracePackageInner c test context b true = .error e →
      e.code ≠ highEntropyCode) ∧
    ∀ r, validatePublicTracePackageInner c test context b true = .ok r →
      (r.highEntropyOverrideApplied = true ↔
        ∃ e, validatePublicTracePackageInner c test context b false = .error e ∧
          e.code = highEntropyCode) := by
  have hscan := Overrides.scanTracePackage c test context b
  cases hplain : scanTracePackage c test context b ⟨false, false⟩ with
  | ok r =>
    obtain ⟨u, scan⟩ := r
    obtain ⟨rfl, hforced⟩ := hscan.same false u scan hplain
    rw [validate_ok hplain, validate_ok hforced]
    simp
  | error e =>
    rw [validate_error hplain]
    cases hforced : scanTracePackage c test context b ⟨true, false⟩ with
    | ok r =>
      obtain ⟨u, scan⟩ := r
      -- A forced run can only go on after a finding that it overrides.
      have hcode : e.code = highEntropyCode := by
        by_contra hne
        cases hforced.symm.trans (hscan.fatal false e hplain hne)
      have hnote := hscan.noted false e u scan hplain hcode hforced
      rw [validate_ok hforced]
      simp [hcode, hnote]
    | error e' =>
      have hnever := hscan.never false e' hforced
      rw [validate_error hforced]
      refine ⟨by simp, ?_, ?_, by simp⟩
      · rintro _ ⟨⟩ hne
        cases hforced.symm.trans (hscan.fatal false e hplain hne)
        rfl
      · rintro _ ⟨⟩
        exact hnever

end Notary.Core
