import Notary.Core.ArchiveRoundTrip
import Notary.Core.PublicSafety

/-! The names of query parameters in a request target. The scan compares them as they are spelled,
so a name that is spelled with escapes is not recognised. -/

namespace Notary.Core
open Utf8 List

def hexDigitValue (b : UInt8) : UInt8 :=
  if Ascii.isDigit b then b - 0x30 else Ascii.toLowercase b - 0x57

/-- Standard percent-decoding: an escape stands for its byte, every other byte for itself. -/
def percentDecode : Bytes → Bytes
  | b :: high :: low :: rest =>
    if b = 0x25 ∧ Ascii.isHexDigit high ∧ Ascii.isHexDigit low then
      (16 * hexDigitValue high + hexDigitValue low) :: percentDecode rest
    else b :: percentDecode (high :: low :: rest)
  | b => b

theorem percentDecode_of_not_mem (h : 0x25 ∉ b) : percentDecode b = b := by
  fun_induction percentDecode b with
  | case1 b high low rest he ih => exact absurd (he.1 ▸ mem_cons_self) h
  | case2 b high low rest he ih => rw [ih fun hm => h (mem_cons_of_mem b hm)]
  | case3 => rfl

def decodedName (name : List Char) : String :=
  String.ofList (decodeLossy (percentDecode (encode name)))

theorem decodedName_of_not_mem (h : '%' ∉ name) :
    decodedName name = String.ofList name := by
  have hn : (0x25 : UInt8) ∉ encode name := not_mem_encode (by decide) fun c hc he =>
    h ((Char.ext (UInt32.toNat.inj he) : c = '%') ▸ hc)
  rw [decodedName, percentDecode_of_not_mem hn, decodeLossy_encode]

/-- The target in the first line of a request's head. -/
def requestTarget (head : Bytes) : Option (List Char) :=
  ((head.splitOnP (· = 0x0A)).head?.bind decode).bind fun line =>
    (Text.splitAsciiWhitespace line)[1]?

/-- The names of its query parameters. -/
def queryNames (head : Bytes) : List (List Char) :=
  match (requestTarget head).bind (Search.splitOnce ['?']) with
  | some (_, query) => (query.splitOnP (· = '&')).map queryKey
  | none => []

def namesCredential (name : String) : Bool := isCredentialKey name || isSignedQueryKey name

/-- The scan rejects the names that are spelled out. -/
theorem scanRequestTarget_ok {head : Bytes} {scan : ScanState} {r : Unit × ScanState}
    (h : scanRequestTarget head scan = .ok r) :
    ∀ name ∈ queryNames head, namesCredential (String.ofList name) = false := by
  unfold scanRequestTarget at h
  rw [← requestTarget] at h
  rw [queryNames]
  cases ht : requestTarget head with
  | none => rw [ht] at h; cases h
  | some target =>
    rw [ht] at h
    rw [Option.bind_some]
    cases hq : Search.splitOnce ['?'] target with
    | none => exact forall_mem_nil _
    | some =>
      simp only [hq] at h
      split_ifs at h with ha
      · cases h
      · simp only [mem_map]
        rintro _ ⟨pair, hp, rfl⟩
        exact Bool.not_eq_true _ ▸ fun hc => ha (any_eq_true.mpr ⟨pair, hp, hc⟩)

theorem Scan.bind_ok {α β : Type} {x : Scan α} {f : α → Scan β} {s : ScanState}
    {r : β × ScanState} :
    (x >>= f) s = .ok r ↔ ∃ a s', x s = .ok (a, s') ∧ f a s' = .ok r :=
  Result.bind_ok.trans Prod.exists

theorem orReject_ok {ε α : Type} {x : Except ε α} {s s' : ScanState} {a : α}
    {code : String} {location : PublicPackageLocation}
    (h : orReject x code location s = .ok (a, s')) : x = .ok a := by
  cases x with
  | error => cases h
  | ok => cases h; rfl

/-- The head of an accepted package's request has passed the scan of its target. -/
theorem validatePublicTracePackageInner_target {c : Crates} {test : Bytes → Bool}
    {context : Option PublicPackageSafetyContext} {b : Bytes} {allow : Bool}
    {r : PublicPackageSafetyResult}
    (h : validatePublicTracePackageInner c test context b allow = .ok r) :
    ∃ archive request boundary scan r, readTracePackageArchive c b = .ok archive ∧
      archive.file "request.disclosed.http" = .ok request ∧
      Search.position headerBoundary request = some boundary ∧
      scanRequestTarget (request.take (boundary + 4)) scan = .ok r := by
  unfold validatePublicTracePackageInner at h
  cases hs : scanTracePackage c test context b ⟨allow, false⟩ with
  | error => simp [StateT.run, hs, Bind.bind, Except.bind] at h
  | ok =>
    simp only [scanTracePackage, Scan.bind_ok] at hs
    obtain ⟨archive, _, ha, request, _, hr, _, _, -, _, _, -, _, _, -, ⟨head, _⟩, _, hp, _, _, -, _,
      s, ht, -⟩ := hs
    unfold splitHttp at hp
    cases hb : Search.position headerBoundary request with
    | none =>
      rw [hb] at hp
      cases hp
    | some boundary =>
      simp only [hb, splitAt_eq] at hp
      cases hp
      exact ⟨archive, request, boundary, _, _, orReject_ok ha, orReject_ok hr, hb, ht⟩

/-- An accepted target has no parameter whose decoded name is that of a credential exactly if no
name with an escape decodes to one. -/
theorem accepted_target_hides_no_name_iff (head : Bytes) (scan : ScanState) (r : Unit × ScanState)
    (haccepted : scanRequestTarget head scan = .ok r) :
    (∀ name ∈ queryNames head, namesCredential (decodedName name) = false) ↔
      ∀ name ∈ queryNames head, '%' ∈ name → namesCredential (decodedName name) = false := by
  refine ⟨fun h name hname _ => h name hname, fun h name hname => ?_⟩
  by_cases hescape : '%' ∈ name
  · exact h name hname hescape
  · rw [decodedName_of_not_mem hescape]
    exact scanRequestTarget_ok haccepted name hname

/-- A package whose request has an escape in a query name and in the name of a member. -/
def escapedEntries : TracePackageArchiveEntries where
  evidenceTlsn := [1]
  manifestJson := bytes "\x7b\"format\":\"notary/trace-evidence/v1\"\x7d"
  requestDisclosedHttp := bytes "POST /v1?api%5Fkey=x HTTP/1.1\r\n\r\n" ++
    bytes "\x7b\"sk\\u002dant-0123456789abcdefghij\":1\x7d"
  responseDisclosedHttp := bytes "HTTP/1.1 200 OK\r\n\r\n"
  traceOtlpJson := bytes "\x7b\x7d"

theorem escapedEntries_accepted :
    (buildTracePackageArchiveFromEntries sampleCrates escapedEntries).toOption.any (fun archive =>
      (validatePublicTracePackage sampleCrates (fun _ => false) archive).toBool) = true := by
  decide +kernel

/-- The validator accepts a package whose query names a key as `api%5Fkey`. -/
theorem escaped_name_accepted :
    ((buildTracePackageArchiveFromEntries sampleCrates escapedEntries).toOption.any fun archive =>
      (validatePublicTracePackage sampleCrates (fun _ => false) archive).toBool) = true ∧
    queryNames escapedEntries.requestDisclosedHttp = [chars "api%5Fkey"] ∧
    isCredentialKey (decodedName (chars "api%5Fkey")) = true :=
  ⟨escapedEntries_accepted, by decide +kernel, by decide +kernel⟩

theorem accepted_target_hides_no_name_iff_sample : ∃ r,
    scanRequestTarget (bytes "GET /v1?api%2Dversion=2 HTTP/1.1\r\n\r\n") ⟨false, false⟩ = .ok r ∧
    ∀ name ∈ queryNames (bytes "GET /v1?api%2Dversion=2 HTTP/1.1\r\n\r\n"),
      namesCredential (decodedName name) = false := by
  have h : scanRequestTarget (bytes "GET /v1?api%2Dversion=2 HTTP/1.1\r\n\r\n") ⟨false, false⟩ =
      .ok ((), ⟨false, false⟩) := by decide +kernel
  exact ⟨_, h, (accepted_target_hides_no_name_iff _ _ _ h).mpr (by decide +kernel)⟩

end Notary.Core
