import Notary.Core.Archive
import Notary.Lib.Netstring
import Notary.Lib.Result

/-! Building and reading an archive are inverse to each other, up to the size limits. -/

namespace Notary.Core
open Sink Utf8 Json Result List

/-- A name that is a path of one component. -/
def PlainName (name : String) : Prop :=
  name.toList.all (fun c => c.isAlphanum || c = '.' || c = '-') ∧
    name.toList.head?.all Char.isAlphanum
  deriving Decidable

/-- How an archive shows a file that was written to it. -/
def zipEntry (f : ZipFile) : ZipEntry where
  name := f.name
  enclosedName := some f.name
  encrypted := false
  isFile := true
  compression := f.options.compressionMethod
  lastModified := some f.options.lastModifiedTime
  unixMode := some (0o100000 + f.options.unixPermissions % 512)
  size := f.data.length
  contents := some f.data

/-- The assumptions on the ZIP library. Its writer asks for the end of a buffer only once it has
written all of it, leaves no gap, rewrites only a bounded part of what it wrote, and starts with the
signature of a local file; and its reader shows the files that were written. -/
structure ZipLibrary.Faithful (zip : ZipLibrary) : Prop where
  ended : ∀ files b, (zip.program files).run Buffer.empty = some b →
    (zip.program files).EndsAt b.data.length Buffer.empty
  bounded : ∀ files ops b, (zip.program files).run Buffer.empty = some b →
    (zip.program files).ops b.data.length 0 = some ops →
    CanonicalComparisonWriter.BoundedPlay Buffer.empty ops b.data
  signature : ∀ files b, files ≠ [] → (zip.program files).run Buffer.empty = some b →
    [0x50, 0x4B, 0x03, 0x04] <+: b.data
  reads : ∀ files b, (∀ f ∈ files, PlainName f.name ∧ f.options = deterministicOptions) →
    (files.map ZipFile.name).Nodup → (zip.program files).run Buffer.empty = some b →
    zip.entries b.data = some (files.map fun f => some (zipEntry f))

variable {f : String × Bytes} {files : Files} {size : ℕ} {manifestBytes archive : Bytes}
  {e : TracePackageArchiveEntries} {scan scan' : EntryScan}

section

variable {c : Crates}

theorem fromSliceRaw_toVec (hd : v.depth < nestingLimit) (hf : v.reread = v) :
    fromSliceRaw c (toVec v) = some v := by
  have hp := document_print .compact v (forall_mem_nil _)
  rw [append_nil, if_pos hd, hf] at hp
  rw [fromSliceRaw, toVec, decode_encode, Option.bind_some, hp]

theorem ArchiveFile.ofJson_toJson (f : ArchiveFile) :
    ArchiveFile.ofJson c (f.toJson c) = some f := by
  rfl

section

variable (m : TracePackageArchiveManifest)
include m

theorem TracePackageArchiveManifest.ofJson_toJson :
    TracePackageArchiveManifest.ofJson c (m.toJson c) = some m := by
  have hfi := mapM_decode (ArchiveFile.ofJson_toJson (c := c)) m.files
  have hf : structFields ["format", "package_format", "package_sha256", "files"] true
      (m.toJson c) = some [.string m.format, .string m.packageFormat, .string m.packageSha256,
        .array (m.files.map (ArchiveFile.toJson c))] := rfl
  simp [TracePackageArchiveManifest.ofJson, hf, Value.asStr, Value.asArray, hfi]

theorem TracePackageArchiveManifest.toJson_depth : (m.toJson c).depth < nestingLimit := by
  have hf : Value.depths (m.files.map (ArchiveFile.toJson c)) ≤ 1 := by
    refine Value.depths_le fun v hv => ?_
    obtain ⟨_, -, rfl⟩ := mem_map.mp hv
    simp [ArchiveFile.toJson, Value.depth, Value.memberDepths]
  simp only [toJson, Value.depth, Value.memberDepths, nestingLimit]
  omega

theorem TracePackageArchiveManifest.toJson_reread : (m.toJson c).reread = m.toJson c := by
  have hf := Value.rereadAll_of_fixed (m.files.map (ArchiveFile.toJson c)) (by
    intro _ hv
    obtain ⟨_, -, rfl⟩ := mem_map.mp hv
    simp [ArchiveFile.toJson, Value.reread, Value.rereadMembers, Number.reread])
  simp [toJson, Value.reread, Value.rereadMembers, hf]

/-- The manifest is read back from its entry. -/
theorem readArchiveManifest_toVec (entries : Files)
    (h : entries.lookup archiveManifestPath = some (toVec (m.toJson c))) :
    readArchiveManifest c entries = .ok m := by
  simp [readArchiveManifest, h, fromSliceRaw_toVec m.toJson_depth m.toJson_reread,
    TracePackageArchiveManifest.ofJson_toJson]

end

def declaredFile (c : Crates) (f : String × Bytes) : ArchiveFile :=
  ⟨f.1, UInt64.ofNat f.2.length, sha256Hex c f.2⟩

def totalSize (files : Files) : ℕ := (files.map (·.2.length)).sum

@[simp]
theorem totalSize_cons (f : String × Bytes) (files : Files) :
    totalSize (f :: files) = f.2.length + totalSize files := by
  simp [totalSize]

theorem length_le_totalSize (h : f ∈ files) : f.2.length ≤ totalSize files :=
  le_sum_of_mem (mem_map_of_mem h)

theorem checkedAdd_eq (h : a + b < 2 ^ 64) : checkedAdd a b = some (a + b) :=
  if_pos h

theorem fileManifest_ok (declared : List ArchiveFile)
    (hfi : ∀ f ∈ rest, files.lookup f.1 = some f.2) (hs : size ≤ maxArchiveUncompressedBytes) :
    fileManifest c files size (rest.map Prod.fst) = .ok declared ↔
      size + totalSize rest ≤ maxArchiveUncompressedBytes ∧
        declared = rest.map (declaredFile c) := by
  induction rest generalizing size declared with
  | nil => simp [fileManifest, totalSize, hs, eq_comm]
  | cons f _ ih =>
    have hr := fun g hg => hfi g (mem_cons_of_mem f hg)
    simp only [map_cons, fileManifest, hfi f mem_cons_self, totalSize_cons]
    by_cases hf : size + f.2.length ≤ maxArchiveUncompressedBytes
    · rw [checkedAdd_eq (lt_of_le_of_lt hf (by decide))]
      simp only [if_neg (Nat.not_lt.mpr hf), bind_ok, ih _ hr hf, Except.ok.injEq]
      constructor
      · rintro ⟨_, ⟨_, rfl⟩, rfl⟩
        exact ⟨by omega, rfl⟩
      · rintro ⟨_, rfl⟩
        exact ⟨_, ⟨by omega, rfl⟩, rfl⟩
    · refine iff_of_false ?_ fun h => hf (by omega)
      rw [checkedAdd]
      split_ifs
      · simp [Nat.lt_of_not_le hf]
      · simp

theorem packageSize_eq (h : size + totalSize files < 2 ^ 64) :
    packageSize size files = .ok (size + totalSize files) := by
  induction files generalizing size with
  | nil => simp [packageSize, totalSize]
  | cons _ _ ih =>
    rw [totalSize_cons] at h ⊢
    rw [packageSize, checkedAdd_eq (by omega), ← Nat.add_assoc]
    exact ih (by omega)

theorem archiveCapacity_ok {packageSize manifestSize : ℕ} :
    (∃ capacity, archiveCapacity packageSize manifestSize = .ok capacity) ↔
      packageSize ≤ maxArchiveUncompressedBytes ∧ manifestSize ≤ maxArchiveManifestBytes := by
  by_cases hf : packageSize ≤ maxArchiveUncompressedBytes ∧ manifestSize ≤ maxArchiveManifestBytes
  · refine iff_of_true ⟨packageSize + manifestSize + maxZipContainerBytes, ?_⟩ hf
    obtain ⟨hp, hm⟩ := hf
    rw [archiveCapacity, if_neg (by omega)]
    simp only [maxArchiveUncompressedBytes, maxArchiveManifestBytes] at hp hm
    rw [checkedAdd_eq (by omega), Option.bind_some,
      checkedAdd_eq (by simp only [maxZipContainerBytes]; omega)]
    refine if_neg ?_
    simp only [maxArchiveWireBytes, maxArchiveUncompressedBytes, maxArchiveManifestBytes]
    omega
  · refine iff_of_false ?_ hf
    rw [archiveCapacity, if_pos (by omega)]
    simp

def zipFile (f : String × Bytes) : ZipFile := ⟨f.1, deterministicOptions, f.2⟩

def archived (manifestBytes : Bytes) (e : TracePackageArchiveEntries) : Files :=
  (archiveManifestPath, manifestBytes) :: e.intoFiles

theorem archiveFiles_intoFiles (manifestBytes : Bytes) (e : TracePackageArchiveEntries) :
    archiveFiles manifestBytes e.intoFiles = some ((archived manifestBytes e).map zipFile) := rfl

theorem archiveFiles_archived (manifestBytes other : Bytes) (e : TracePackageArchiveEntries) :
    archiveFiles manifestBytes (archived other e) =
      some ((archived manifestBytes e).map zipFile) := rfl

def manifestOf (c : Crates) (e : TracePackageArchiveEntries) : TracePackageArchiveManifest :=
  archiveManifestOf c (e.intoFiles.map (declaredFile c))

def manifestBytesOf (c : Crates) (e : TracePackageArchiveEntries) : Bytes :=
  toVec ((manifestOf c e).toJson c)

/-- How the library writes the entries and their manifest. -/
def program (c : Crates) (e : TracePackageArchiveEntries) : Program :=
  c.zip.program ((archived (manifestBytesOf c e) e).map zipFile)

/-- The library writes the entries and their manifest as the given bytes. -/
def Rendered (c : Crates) (e : TracePackageArchiveEntries) (archive : Bytes) : Prop :=
  ∃ b, (program c e).run Buffer.empty = some b ∧ b.data = archive

/-- The comparison finds the given bytes when the library writes the entries again. -/
def Compared (c : Crates) (e : TracePackageArchiveEntries) (archive : Bytes) : Prop :=
  ∃ w, (program c e).run (CanonicalComparisonWriter.new archive) = some w ∧
    w.matchesExpected = true

theorem writeTracePackageArchive_ok {δ : Type} [Destination δ] (d : δ)
    (h : archiveFiles (manifestBytesOf c e) files =
      some ((archived (manifestBytesOf c e) e).map zipFile)) (d' : δ) :
    writeTracePackageArchive c (manifestBytesOf c e) files d = .ok d' ↔
      (program c e).run d = some d' := by
  simp only [writeTracePackageArchive, h]
  rw [show c.zip.program ((archived (manifestBytesOf c e) e).map zipFile) = program c e from rfl]
  cases (program c e).run d with
  | none | some => simp

theorem render_ok (hs : totalSize e.intoFiles ≤ maxArchiveUncompressedBytes)
    (hm : (manifestBytesOf c e).length ≤ maxArchiveManifestBytes) :
    renderTracePackageArchive c (manifestOf c e) e.intoFiles = .ok archive ↔
      Rendered c e archive ∧ archive.length ≤ maxArchiveWireBytes := by
  have ht : packageSize 0 e.intoFiles = .ok (totalSize e.intoFiles) := by
    rw [packageSize_eq (by rw [Nat.zero_add]; exact lt_of_le_of_lt hs (by decide)), Nat.zero_add]
  obtain ⟨_, hc⟩ := archiveCapacity_ok.mpr ⟨hs, hm⟩
  have hw := writeTracePackageArchive_ok Buffer.empty
    (archiveFiles_intoFiles (manifestBytesOf c e) e)
  rw [manifestBytesOf] at hc hw
  simp only [renderTracePackageArchive, ht, hc, ok_bind, bind_ok, hw, guard_ok, Nat.not_lt,
    Except.ok.injEq]
  constructor
  · rintro ⟨b, hb, hl, rfl⟩
    exact ⟨⟨b, hb, rfl⟩, hl⟩
  · rintro ⟨⟨b, hb, rfl⟩, hl⟩
    exact ⟨b, hb, hl, rfl⟩

theorem lookup_intoFiles (e : TracePackageArchiveEntries) :
    ∀ f ∈ e.intoFiles, e.intoFiles.lookup f.1 = some f.2 := by
  simp [TracePackageArchiveEntries.intoFiles, List.lookup]

/-- What the builder accepts and what it returns. -/
theorem build_ok : buildTracePackageArchiveFromEntries c e = .ok archive ↔
      totalSize e.intoFiles ≤ maxArchiveUncompressedBytes ∧
      requirePackageFormat c e.manifestJson = .ok () ∧
      (manifestBytesOf c e).length ≤ maxArchiveManifestBytes ∧
      Rendered c e archive ∧ archive.length ≤ maxArchiveWireBytes := by
  have hd : ∀ declared, fileManifest c e.intoFiles 0 packageFiles = .ok declared ↔
      totalSize e.intoFiles ≤ maxArchiveUncompressedBytes ∧
        declared = e.intoFiles.map (declaredFile c) := fun declared => by
    have h := fileManifest_ok (c := c) declared (lookup_intoFiles e) (Nat.zero_le _)
    rwa [Nat.zero_add] at h
  simp only [buildTracePackageArchiveFromEntries, bind_ok, hd, guard_ok]
  constructor
  · rintro ⟨_, ⟨hs, rfl⟩, ⟨⟩, hf, hm, hre⟩
    exact ⟨hs, hf, Nat.not_lt.mp hm, (render_ok hs (Nat.not_lt.mp hm)).mp hre⟩
  · rintro ⟨hs, hf, hm, hr⟩
    exact ⟨_, ⟨hs, rfl⟩, ⟨⟩, hf, Nat.not_lt.mpr hm, (render_ok hs hm).mpr hr⟩

theorem intoFiles_injective : Function.Injective TracePackageArchiveEntries.intoFiles := by
  intro e e' h
  cases e
  cases e'
  simpa [TracePackageArchiveEntries.intoFiles] using h

theorem compareCanonical_ok : compareCanonical c archive (manifestOf c e)
      (archived manifestBytes e) = .ok () ↔ Compared c e archive := by
  have hw := writeTracePackageArchive_ok (CanonicalComparisonWriter.new archive)
    (archiveFiles_archived (manifestBytesOf c e) manifestBytes e)
  rw [manifestBytesOf] at hw
  simp only [compareCanonical, bind_ok, hw, guard_ok, not_not, and_true, Compared]

/-- What is found depends on the length of the archive alone. -/
theorem Compared.unique (h : Compared c e archive) (h' : Compared c e archive')
    (hl : archive.length = archive'.length) : archive = archive' := by
  obtain ⟨_, hr, hm⟩ := h
  obtain ⟨_, hr', hm'⟩ := h'
  rw [CanonicalComparisonWriter.run_eq_play, Option.map_eq_some_iff] at hr hr'
  obtain ⟨ops, ho, rfl⟩ := hr
  obtain ⟨ops', ho', rfl⟩ := hr'
  have ho : (program c e).ops archive.length 0 = some ops := ho
  rw [hl] at ho
  obtain rfl : ops = ops' := Option.some.inj (ho.symm.trans ho')
  have ha := Program.absolute_ops ho
  exact (CanonicalComparisonWriter.data_of_matches ha hm).symm.trans
    (CanonicalComparisonWriter.data_of_matches ha hm')

/-! The reader. -/

theorem readEntry_ok (h : readEntry name entry scan = .ok scan') :
    ∃ data, scan'.entries = scan.entries ++ [(name, data)] := by
  simp only [readEntry, guard_ok] at h
  obtain ⟨hn, -, -, -, -, -, h⟩ := h
  cases ha : checkedAdd scan.totalSize entry.size with
  | none => simp [ha] at h
  | some =>
    simp only [ha, guard_ok] at h
    cases hd : entry.contents.map (List.take (entryLimit entry.name + 1)) with
    | none => simp [hd] at h
    | some data =>
      simp only [hd, guard_ok] at h
      cases h.2.2
      exact ⟨data, by rw [not_not.mp hn]⟩

theorem readEntries_ok (hlength : entries.length = names.length)
    (h : readEntries entries names scan = .ok scan') :
    ∃ datas, datas.length = names.length ∧ scan'.entries = scan.entries ++ names.zip datas := by
  induction names generalizing entries scan with
  | nil =>
    rw [length_nil, length_eq_zero_iff] at hlength
    subst hlength
    cases h
    exact ⟨[], rfl, by simp⟩
  | cons _ _ ih =>
    cases entries with
    | nil => cases hlength
    | cons entry =>
      cases entry with
      | none => cases h
      | some =>
        obtain ⟨_, hen, hr⟩ := bind_ok.mp h
        obtain ⟨data, hda⟩ := readEntry_ok hen
        obtain ⟨datas, hd, he⟩ := ih (Nat.succ.inj hlength) hr
        exact ⟨data :: datas, by simp [hd], by simp [he, hda]⟩

/-- The reader's limits on the sizes of the files. -/
def WithinLimits (size : ℕ) (files : Files) : Prop :=
  (∀ f ∈ files, f.2.length ≤ entryLimit f.1) ∧
    size + totalSize files ≤ maxArchiveUncompressedBytes + maxArchiveManifestBytes

theorem withinLimits_singleton : WithinLimits size [f] ↔ f.2.length ≤ entryLimit f.1 ∧
      size + f.2.length ≤ maxArchiveUncompressedBytes + maxArchiveManifestBytes := by
  simp [WithinLimits, totalSize]

theorem withinLimits_cons : WithinLimits size (f :: files) ↔
      WithinLimits size [f] ∧ WithinLimits (size + f.2.length) files := by
  rw [withinLimits_singleton]
  simp only [WithinLimits, forall_mem_cons, totalSize_cons]
  constructor
  · rintro ⟨⟨hf, hfi⟩, _⟩
    exact ⟨⟨hf, by omega⟩, hfi, by omega⟩
  · rintro ⟨⟨hf, -⟩, hfi, _⟩
    exact ⟨⟨hf, hfi⟩, by omega⟩

theorem withinLimits_archived (hfi : ∀ f ∈ e.intoFiles, f.2.length ≤ maxArchiveUncompressedBytes)
    (hm : manifestBytes.length ≤ maxArchiveManifestBytes)
    (hs : manifestBytes.length + totalSize e.intoFiles ≤
      maxArchiveUncompressedBytes + maxArchiveManifestBytes) :
    WithinLimits 0 (archived manifestBytes e) := by
  refine ⟨fun f hf => ?_, ?_⟩
  · rcases mem_cons.mp hf with rfl | hf
    · rwa [entryLimit, if_pos rfl]
    · have hn : f.1 ≠ archiveManifestPath := by
        have hme : f.1 ∈ packageFiles := mem_map_of_mem (f := Prod.fst) hf
        intro he
        rw [he] at hme
        exact absurd hme (by decide)
      rw [entryLimit, if_neg hn]
      exact hfi f hf
  · rwa [archived, totalSize_cons, Nat.zero_add]

theorem withinLimits_of_totalSize (hs : totalSize e.intoFiles ≤ maxArchiveUncompressedBytes)
    (hm : manifestBytes.length ≤ maxArchiveManifestBytes) :
    WithinLimits 0 (archived manifestBytes e) :=
  withinLimits_archived (fun _ hf => le_trans (length_le_totalSize hf) hs) hm (by omega)

theorem WithinLimits.manifest (h : WithinLimits 0 (archived manifestBytes e)) :
    manifestBytes.length ≤ maxArchiveManifestBytes := by
  have hm := h.1 _ mem_cons_self
  rwa [entryLimit, if_pos rfl] at hm

theorem readEntry_zipFile (hn : f.1 ∈ expectedNames) (hs : f.1 ∉ scan.seen) :
    readEntry f.1 (zipEntry (zipFile f)) scan = .ok scan' ↔
      WithinLimits scan.totalSize [f] ∧ ⟨scan.seen ++ [f.1], scan.entries ++ [f],
        scan.totalSize + f.2.length⟩ = scan' := by
  have hm : (0o100000 + 0o644 % 512) % 512 = 0o644 := by decide
  simp only [readEntry, zipEntry, zipFile, deterministicOptions, guard_ok, hn, hs, hm,
    ne_eq, not_true_eq_false, not_false_eq_true, or_self, true_and, Option.map_some,
    Bool.false_eq_true, Nat.not_lt]
  rw [withinLimits_singleton, and_assoc]
  refine and_congr_right fun hl => ?_
  have ht : f.2.take (entryLimit f.1 + 1) = f.2 := take_of_length_le (by omega)
  by_cases ha : scan.totalSize + f.2.length < usizeBound
  · simp only [checkedAdd_eq ha, guard_ok, ht, not_true_eq_false, if_false, Nat.not_lt,
      Except.ok.injEq]
  · rw [checkedAdd, if_neg ha]
    exact iff_of_false (by simp) fun h => ha (lt_of_le_of_lt h.1 (by decide))

theorem readEntries_zipFiles (files : Files) (scan scan' : EntryScan)
    (hn : ∀ f ∈ files, f.1 ∈ expectedNames)
    (hno : (scan.seen ++ files.map Prod.fst).Nodup) (hsi : WithinLimits scan.totalSize []) :
    readEntries (files.map fun f => some (zipEntry (zipFile f))) (files.map Prod.fst) scan =
        .ok scan' ↔
      WithinLimits scan.totalSize files ∧ ⟨scan.seen ++ files.map Prod.fst, scan.entries ++ files,
        scan.totalSize + totalSize files⟩ = scan' := by
  induction files generalizing scan with
  | nil => simp [readEntries, totalSize, hsi]
  | cons f _ ih =>
    have hf : f.1 ∉ scan.seen := fun hme =>
      (nodup_append.mp hno).2.2 _ hme _ mem_cons_self rfl
    have hr := fun g hg => hn g (mem_cons_of_mem f hg)
    rw [map_cons, map_cons, readEntries, withinLimits_cons]
    constructor
    · intro h
      obtain ⟨_, he, hs⟩ := bind_ok.mp h
      obtain ⟨hl, rfl⟩ := (readEntry_zipFile (hn f mem_cons_self) hf).mp he
      obtain ⟨hm, rfl⟩ := (ih _ hr (by simpa using hno) (by
        simpa [WithinLimits, totalSize] using hl.2)).mp hs
      exact ⟨⟨hl, hm⟩, by simp [Nat.add_assoc]⟩
    · rintro ⟨⟨hl, hm⟩, rfl⟩
      refine bind_ok.mpr ⟨_, (readEntry_zipFile (hn f mem_cons_self) hf).mpr ⟨hl, rfl⟩, ?_⟩
      exact (ih _ hr (by simpa using hno) (by
        simpa [WithinLimits, totalSize] using hl.2)).mpr
        ⟨hm, by simp [Nat.add_assoc]⟩

theorem exists_archived (hlength : entries.length = packageFiles.length + 1)
    (h : readEntries entries expectedNames ⟨[], [], 0⟩ = .ok scan) :
    ∃ manifestBytes e, scan.entries = archived manifestBytes e := by
  obtain ⟨datas, hd, hf⟩ := readEntries_ok hlength h
  match datas, hd with
  | [manifestBytes, evidence, manifest, request, response, trace], _ =>
    exact ⟨manifestBytes, ⟨evidence, manifest, request, response, trace⟩, hf⟩

theorem checkDeclaredFiles_ok {entries rest : Files}
    (he : ∀ f ∈ rest, entries.lookup f.1 = some f.2) (hlength : declared.length = rest.length) :
    checkDeclaredFiles c entries declared (rest.map Prod.fst) = .ok () ↔
      declared = rest.map (declaredFile c) := by
  induction rest generalizing declared with
  | nil =>
    rw [length_nil, length_eq_zero_iff] at hlength
    simp [hlength, checkDeclaredFiles]
  | cons f _ ih =>
    cases declared with
    | nil => cases hlength
    | cons d =>
      have hr := fun g hg => he g (mem_cons_of_mem f hg)
      simp only [map_cons, checkDeclaredFiles, he f mem_cons_self, guard_ok,
        ih hr (Nat.succ.inj hlength), List.cons.injEq, ne_eq, not_not, not_or]
      cases d
      simp [declaredFile, and_assoc]

theorem lookup_archived (manifestBytes : Bytes) (e : TracePackageArchiveEntries) :
    ∀ f ∈ e.intoFiles, (archived manifestBytes e).lookup f.1 = some f.2 := by
  simp [archived, TracePackageArchiveEntries.intoFiles, List.lookup, archiveManifestPath]

theorem filter_archived (manifestBytes : Bytes) (e : TracePackageArchiveEntries) :
    (archived manifestBytes e).filter (·.1 ≠ archiveManifestPath) = e.intoFiles := by
  simp [archived, TracePackageArchiveEntries.intoFiles, archiveManifestPath]

/-- The reader accepts one manifest only. -/
theorem checkArchiveManifest_ok {m : TracePackageArchiveManifest} :
    checkArchiveManifest c m (archived manifestBytes e) = .ok () ↔
      m = manifestOf c e ∧ requirePackageFormat c e.manifestJson = .ok () := by
  have hl : (archived manifestBytes e).lookup "manifest.json" = some e.manifestJson := rfl
  simp only [checkArchiveManifest, guard_ok, bind_ok, hl, ne_eq, not_or, not_not]
  constructor
  · rintro ⟨⟨hf, hp⟩, hlength, ⟨⟩, hd, hdigest, hm⟩
    have hfi := (checkDeclaredFiles_ok (lookup_archived manifestBytes e) hlength).mp hd
    refine ⟨?_, hm⟩
    cases m
    simp only at hf hp hdigest hfi
    rw [manifestOf, archiveManifestOf, hf, hp, hdigest, hfi]
  · rintro ⟨rfl, hm⟩
    refine ⟨⟨rfl, rfl⟩, rfl, ⟨⟩, ?_, rfl, hm⟩
    exact (checkDeclaredFiles_ok (lookup_archived manifestBytes e) rfl).mpr rfl

end

theorem plainName_of_expected : ∀ name ∈ expectedNames, PlainName name := by decide

theorem nodup_expectedNames : expectedNames.Nodup := by decide

theorem readEntries_archived (c : Crates) (e : TracePackageArchiveEntries) (scan : EntryScan) :
    readEntries ((archived (manifestBytesOf c e) e).map fun f => some (zipEntry (zipFile f)))
        expectedNames ⟨[], [], 0⟩ = .ok scan ↔
      WithinLimits 0 (archived (manifestBytesOf c e) e) ∧
        ⟨expectedNames, archived (manifestBytesOf c e) e,
          totalSize (archived (manifestBytesOf c e) e)⟩ = scan := by
  have h := readEntries_zipFiles (archived (manifestBytesOf c e) e) ⟨[], [], 0⟩ scan
    (fun f hf => mem_map_of_mem (f := Prod.fst) hf) nodup_expectedNames
    (by simp [WithinLimits, totalSize])
  rwa [Nat.zero_add] at h

section

variable {c : Crates} (hzip : c.zip.Faithful) {e : TracePackageArchiveEntries} {archive : Bytes}
include hzip

theorem Rendered.compared (h : Rendered c e archive) (hs : archive.length < 2 ^ 64) :
    Compared c e archive := by
  obtain ⟨b, hb, rfl⟩ := h
  obtain ⟨ops, ho, rfl⟩ := Program.ops_of_run hb (hzip.ended _ b hb) hs
  refine ⟨(CanonicalComparisonWriter.new (Buffer.empty.play ops).data).play ops, ?_, ?_⟩
  · rw [CanonicalComparisonWriter.run_eq_play]
    exact congrArg (Option.map _) ho
  · exact CanonicalComparisonWriter.matches_of_play (Program.absolute_ops ho)
      (hzip.bounded _ _ _ hb ho) hs rfl

/-- An archive that passes the comparison is the one that the library writes if it is as long. -/
theorem Compared.rendered {rendered : Bytes} (h : Compared c e archive)
    (hr : Rendered c e rendered) (hl : rendered.length = archive.length)
    (hs : archive.length < 2 ^ 64) : Rendered c e archive := by
  obtain rfl := (hr.compared hzip (hl ▸ hs)).unique h hl
  exact hr

theorem Rendered.entries (h : Rendered c e archive) : c.zip.entries archive =
      some ((archived (manifestBytesOf c e) e).map fun f => some (zipEntry (zipFile f))) := by
  obtain ⟨b, hb, rfl⟩ := h
  rw [hzip.reads _ b ?_ ?_ hb, map_map]
  · rfl
  · intro f hf
    obtain ⟨g, hg, rfl⟩ := mem_map.mp hf
    have hn : g.1 ∈ expectedNames := mem_map_of_mem (f := Prod.fst) hg
    exact ⟨plainName_of_expected _ hn, rfl⟩
  · rw [map_map]
    exact nodup_expectedNames

theorem Rendered.signature (h : Rendered c e archive) : [0x50, 0x4B, 0x03, 0x04] <+: archive := by
  obtain ⟨b, hb, rfl⟩ := h
  exact hzip.signature _ b (by simp [archived]) hb

/-- What the reader has found out about an archive that it accepts. -/
theorem read_ok (h : readTracePackageArchive c archive = .ok v) :
    ∃ e, ⟨manifestOf c e, e.intoFiles⟩ = v ∧ requirePackageFormat c e.manifestJson = .ok () ∧
      Compared c e archive ∧ archive.length ≤ maxArchiveWireBytes ∧
      (Rendered c e archive → WithinLimits 0 (archived (manifestBytesOf c e) e)) := by
  simp only [readTracePackageArchive, guard_ok, not_not, Nat.not_lt] at h
  obtain ⟨hw, -, hre⟩ := h
  cases he : c.zip.entries archive with
  | none => simp [readValidatedArchive, he] at hre
  | some =>
    simp only [readValidatedArchive, he, guard_ok, bind_ok, ne_eq, not_not] at hre
    obtain ⟨hlength, scan, hs, -, _, hm, ⟨⟩, hch, ⟨⟩, hc, hv⟩ := hre
    obtain ⟨_, e, hfn⟩ := exists_archived hlength hs
    rw [hfn] at hm hch hc hv
    obtain ⟨rfl, hfo⟩ := checkArchiveManifest_ok.mp hch
    rw [filter_archived] at hv
    refine ⟨e, Except.ok.inj hv, hfo, compareCanonical_ok.mp hc, hw, fun hr => ?_⟩
    cases he.symm.trans (hr.entries hzip)
    exact ((readEntries_archived c e scan).mp hs).1

theorem read_of_rendered (hl : WithinLimits 0 (archived (manifestBytesOf c e) e))
    (hfo : requirePackageFormat c e.manifestJson = .ok ()) (hr : Rendered c e archive)
    (hw : archive.length ≤ maxArchiveWireBytes) :
    readTracePackageArchive c archive = .ok ⟨manifestOf c e, e.intoFiles⟩ := by
  have hsh := lt_of_le_of_lt hw (by decide : maxArchiveWireBytes < 2 ^ 64)
  have hma := readArchiveManifest_toVec (c := c) (manifestOf c e)
    (archived (manifestBytesOf c e) e) rfl
  simp only [readTracePackageArchive, guard_ok, not_not, Nat.not_lt]
  refine ⟨hw, hr.signature hzip, ?_⟩
  simp only [readValidatedArchive, hr.entries hzip, guard_ok, bind_ok]
  refine ⟨not_not.mpr rfl, _, (readEntries_archived c e _).mpr ⟨hl, rfl⟩, by simp, _, hma, ⟨⟩, ?_,
    ⟨⟩, ?_, by rw [filter_archived]⟩
  · exact checkArchiveManifest_ok.mpr ⟨rfl, hfo⟩
  · exact compareCanonical_ok.mpr (hr.compared hzip hsh)

/-- An archive that the builder makes is read back: the reader finds the entries under their
names, in their order, and the archive manifest declares their sizes and hashes. -/
theorem read_of_build (h : buildTracePackageArchiveFromEntries c e = .ok archive) :
    ∃ v, readTracePackageArchive c archive = .ok v ∧ v.files = e.intoFiles ∧
      v.files.map Prod.fst = packageFiles ∧
      v.manifest.files.map (fun f => (f.path, f.sizeBytes.toNat, f.sha256)) =
        v.files.map fun f => (f.1, f.2.length, sha256Hex c f.2) := by
  obtain ⟨hsize, hformat, hmanifest, hrendered, hwire⟩ := build_ok.mp h
  have hlimits : WithinLimits 0 (archived (manifestBytesOf c e) e) :=
    withinLimits_of_totalSize hsize hmanifest
  refine ⟨_, read_of_rendered hzip hlimits hformat hrendered hwire, rfl, rfl, ?_⟩
  rw [manifestOf, archiveManifestOf, map_map]
  refine map_congr_left fun f hf => ?_
  have hlength : f.2.length < 2 ^ 64 :=
    lt_of_le_of_lt (le_trans (length_le_totalSize hf) hsize) (by decide)
  simpa [declaredFile] using hlength

/-- An archive that the reader accepts is built again from the entries found in it exactly when
these are within the builder's limit on their total size and the archive is as long as the one that
the library writes for them. Archives of one length are determined by their entries. -/
theorem build_of_read :
    (∀ archive v, readTracePackageArchive c archive = .ok v →
      ∃ e, v.files = e.intoFiles ∧
        (buildTracePackageArchiveFromEntries c e = .ok archive ↔
          totalSize v.files ≤ maxArchiveUncompressedBytes ∧
            ∃ rendered, Rendered c e rendered ∧ rendered.length = archive.length)) ∧
    ∀ archive archive' v v', readTracePackageArchive c archive = .ok v →
      readTracePackageArchive c archive' = .ok v' → v.files = v'.files →
      archive.length = archive'.length → archive = archive' := by
  refine ⟨fun archive v hread => ?_, fun archive archive' v v' hread hread' hfiles hlength => ?_⟩
  · obtain ⟨e, rfl, hformat, hcompared, hwire, hlimits⟩ := read_ok hzip hread
    refine ⟨e, rfl, fun h => ?_, fun ⟨hsize, rendered, hrendered, hlength⟩ => ?_⟩
    · obtain ⟨hsize, -, -, hrendered, -⟩ := build_ok.mp h
      exact ⟨hsize, archive, hrendered, rfl⟩
    · have hshort := lt_of_le_of_lt hwire (by decide : maxArchiveWireBytes < 2 ^ 64)
      have hwritten := hcompared.rendered hzip hrendered hlength hshort
      exact build_ok.mpr ⟨hsize, hformat, (hlimits hwritten).manifest, hwritten, hwire⟩
  · obtain ⟨_, rfl, -, hcompared, -⟩ := read_ok hzip hread
    obtain ⟨_, rfl, -, hcompared', -⟩ := read_ok hzip hread'
    cases intoFiles_injective hfiles
    exact hcompared.unique hcompared' hlength

end

/-! The assumptions hold of a library that stores names and contents one after the other. -/

namespace NetstringZip

def signature : Bytes := [0x50, 0x4B, 0x03, 0x04]

def render (files : List ZipFile) : Bytes :=
  signature ++ (files.flatMap fun f => [bytes f.name, f.data]).flatMap Netstring.encode ++ [59]

def pairs : List Bytes → Option (List (Option ZipEntry))
  | name :: data :: rest => do
    let entry := (text? name).map fun name => zipEntry ⟨name, deterministicOptions, data⟩
    some (entry :: (← pairs rest))
  | [] => some []
  | _ => none

/-- The archive is written, and a destination whose end is behind it is filled up with zeros. -/
def fill (target : SeekFrom) (archive : Bytes) : Program :=
  .write archive <| .seek target fun
    | none => .fail
    | some stop =>
      if stop = archive.length then .done
      else .seek (.start archive.length) fun _ =>
        .write (List.replicate (stop - archive.length) 0) .done

def library : ZipLibrary where
  program files := fill (.fromEnd 0) (render files)
  -- Zeros behind the archive are skipped.
  entries b :=
    match (b.drop 4).reverse.dropWhile (· = 0) with
    | 59 :: rest => (Netstring.decodeAll b.length rest.reverse).bind pairs
    | _ => none

theorem pairs_flatMap {files : List ZipFile} (h : ∀ f ∈ files, f.options = deterministicOptions) :
    pairs (files.flatMap fun f => [bytes f.name, f.data]) =
      some (files.map fun f => some (zipEntry f)) := by
  induction files with
  | nil => rfl
  | cons f _ ih =>
    have hr := ih fun g hg => h g (mem_cons_of_mem f hg)
    have hf : (⟨f.name, deterministicOptions, f.data⟩ : ZipFile) = f := by rw [← h f mem_cons_self]
    simp [pairs, hr, text?_bytes, hf]

section

variable {archive : Bytes} {b : Buffer} {target : SeekFrom}

theorem write_empty (buffer : Bytes) : Buffer.empty.write buffer = ⟨buffer, buffer.length⟩ := by
  simp [Buffer.write, Buffer.empty, overwrite]

theorem resolve_end {length : ℕ} (h : length < 2 ^ 64) (position : ℕ) :
    (SeekFrom.fromEnd 0).resolve position length = some length := by
  unfold SeekFrom.resolve
  simpa using h

theorem eq_of_resolve_end {position length stop : ℕ}
    (h : (SeekFrom.fromEnd 0).resolve position length = some stop) : stop = length := by
  have hl {x : ℤ} (hx : x = length)
      (h : (if 0 ≤ x ∧ x < 2 ^ 64 then some x.toNat else none) = some stop) : stop = length := by
    split_ifs at h
    have hn := Option.some.inj h
    omega
  exact hl (add_zero _) h

theorem run_fill (h : target.resolve archive.length archive.length = some archive.length) :
    (fill target archive).run Buffer.empty = some ⟨archive, archive.length⟩ := by
  simp only [fill, Program.run, Destination.write, write_empty, Destination.seek, Buffer.seek, h,
    Option.map_some, Destination.position, if_true]

theorem eq_of_run (hend : ∀ stop, target.resolve archive.length archive.length = some stop →
      stop = archive.length) (h : (fill target archive).run Buffer.empty = some b) :
    target.resolve archive.length archive.length = some archive.length ∧
      b = ⟨archive, archive.length⟩ := by
  cases hr : target.resolve archive.length archive.length with
  | none =>
    simp only [fill, Program.run, Destination.write, write_empty, Destination.seek, Buffer.seek, hr,
      Option.map_none] at h
    cases h
  | some stop =>
    obtain rfl := hend stop hr
    exact ⟨rfl, Option.some.inj (h.symm.trans (run_fill hr))⟩

theorem differing_append (done later : Bytes) : differing done (done ++ later) = ∅ := by
  refine Finset.eq_empty_of_forall_notMem fun i hi => ?_
  obtain ⟨hlength, hn⟩ := mem_differing.mp hi
  exact hn (getElem?_append_left hlength).symm

theorem eq_of_append_write {before after : List Op} {target : SeekFrom} {written buffer : Bytes}
    (h : [Op.write written, .seek target] = before ++ .write buffer :: after) :
    before = [] ∧ written = buffer := by
  rcases before with _ | ⟨_, _ | ⟨_, _⟩⟩ <;> simp at h
  exact ⟨rfl, h.1⟩

section

variable (hend : ∀ stop, target.resolve archive.length archive.length = some stop →
  stop = archive.length) (h : (fill target archive).run Buffer.empty = some b)
include hend h

theorem fill_endsAt : (fill target archive).EndsAt b.data.length Buffer.empty := by
  obtain ⟨hr, rfl⟩ := eq_of_run hend h
  simp only [fill, Program.EndsAt, write_empty, Buffer.seek, hr, Option.map_some, if_true, or_true,
    and_self]

theorem fill_bounded {ops : List Op} (ho : (fill target archive).ops b.data.length 0 = some ops) :
    CanonicalComparisonWriter.BoundedPlay Buffer.empty ops b.data := by
  obtain ⟨hr, rfl⟩ := eq_of_run hend h
  have hlt := SeekFrom.resolve_lt hr
  have hm : min (0 + archive.length) (2 ^ 64 - 1) = archive.length := by omega
  simp only [fill, Program.ops, hm, hr, if_true, Option.map_some, Option.some.injEq] at ho
  subst ho
  constructor
  · intro _ _ _ he
    obtain ⟨rfl, -⟩ := eq_of_append_write he
    exact le_rfl
  · intro _ done later _ he
    obtain ⟨rfl, hw⟩ := eq_of_append_write he
    have hd : (Buffer.empty.play [.write done]).data = done := congrArg _ (write_empty done)
    rw [nil_append, hd, hw, differing_append]
    exact Nat.zero_le _

end

end

theorem eq_of_program {files : List ZipFile} {b : Buffer}
    (h : (library.program files).run Buffer.empty = some b) : b.data = render files :=
  congrArg _ (eq_of_run (fun _ => eq_of_resolve_end) h).2

theorem reads {files : List ZipFile} (h : ∀ f ∈ files, f.options = deterministicOptions) :
    library.entries (render files) = some (files.map fun f => some (zipEntry f)) := by
  have hfu := Netstring.length_le_flatMap_encode (files.flatMap fun f => [bytes f.name, f.data])
  have hd : ((render files).drop 4).reverse.dropWhile (· = 0) = 59 ::
      ((files.flatMap fun f => [bytes f.name, f.data]).flatMap Netstring.encode).reverse := by
    simp [render, signature]
  have hl : ((files.flatMap fun f => [bytes f.name, f.data]).flatMap Netstring.encode).length ≤
      (render files).length := by
    simp only [render, length_append]
    omega
  simp only [library, hd, reverse_reverse]
  rw [Netstring.decodeAll_encode _ _ (le_trans hfu hl), Option.bind_some, pairs_flatMap h]

-- Otherwise the unifier would run the program.
attribute [irreducible] fill

theorem faithful : library.Faithful where
  ended := by
    intro _ _ hb
    exact fill_endsAt (fun _ => eq_of_resolve_end) hb
  bounded := by
    intro _ _ _ hb ho
    exact fill_bounded (fun _ => eq_of_resolve_end) hb ho
  signature := by
    intro _ _ _ hb
    rw [eq_of_program hb]
    exact (prefix_append _ _).trans (prefix_append _ _)
  reads := by
    intro files _ hfi _ hb
    rw [eq_of_program hb]
    exact reads fun f hf => (hfi f hf).2

theorem length_render_le (h : ∀ f ∈ files, (bytes f.1).length ≤ 23 ∧ f.2.length < 10 ^ 20) :
    (render (files.map zipFile)).length ≤ 5 + totalSize files + 65 * files.length := by
  induction files with
  | nil => exact Nat.le_refl 5
  | cons f _ ih =>
    obtain ⟨hn, hd⟩ := h f mem_cons_self
    have hr := ih fun g hg => h g (mem_cons_of_mem f hg)
    have he := Netstring.length_encode_le (lt_of_le_of_lt hn (by decide))
    have hc := Netstring.length_encode_le hd
    simp only [render, length_append, map_cons, flatMap_cons,
      flatMap_append, flatMap_nil, length_nil, zipFile, totalSize_cons,
      length_cons] at hr ⊢
    omega

end NetstringZip

instance : Floats Unit where
  read _ := some ()
  write _ := ⟨false, ['0'], some ['0'], none⟩
  wellFormed _ := ⟨by simp [Literal.Digits], by simp, by simp [Literal.Digits], by simp⟩
  isFloat _ := .inl rfl
  readable _ := rfl

/-- Libraries for the examples; the digest is the beginning of the bytes. -/
def sampleCrates : Crates where
  Float := Unit
  floats := inferInstance
  sha256 b := (b.take 32) ++ List.replicate (32 - (b.take 32).length) 0
  sha256_length b := by simp
  zip := NetstringZip.library

def sampleEntries : TracePackageArchiveEntries where
  evidenceTlsn := [1, 2, 3]
  manifestJson := bytes "\x7b\"format\": \"notary/trace-evidence/v1\"\x7d"
  requestDisclosedHttp := bytes "POST / HTTP/1.1\r\n\r\n"
  responseDisclosedHttp := bytes "HTTP/1.1 200 OK\r\n\r\n"
  traceOtlpJson := bytes "\x7b\x7d"

theorem sampleEntries_build : ∃ archive,
    buildTracePackageArchiveFromEntries sampleCrates sampleEntries = .ok archive :=
  Result.exists_of_toBool (by decide +kernel)

theorem read_of_build_sample : ∃ archive v,
    buildTracePackageArchiveFromEntries sampleCrates sampleEntries = .ok archive ∧
      readTracePackageArchive sampleCrates archive = .ok v ∧
      v.files = sampleEntries.intoFiles := by
  obtain ⟨archive, hbuild⟩ := sampleEntries_build
  obtain ⟨v, hread, hfiles, -⟩ := read_of_build NetstringZip.faithful hbuild
  exact ⟨archive, v, hbuild, hread, hfiles⟩

theorem build_of_read_sample : ∃ archive v e,
    readTracePackageArchive sampleCrates archive = .ok v ∧ v.files = e.intoFiles ∧
      totalSize v.files ≤ maxArchiveUncompressedBytes ∧
      buildTracePackageArchiveFromEntries sampleCrates e = .ok archive := by
  obtain ⟨archive, hbuild⟩ := sampleEntries_build
  obtain ⟨hsize, hformat, hmanifest, hrendered, hwire⟩ := build_ok.mp hbuild
  have hread := read_of_rendered NetstringZip.faithful
    (withinLimits_of_totalSize hsize hmanifest) hformat hrendered hwire
  obtain ⟨e, hfiles, hrebuild⟩ := (build_of_read NetstringZip.faithful).1 archive _ hread
  cases intoFiles_injective hfiles
  exact ⟨archive, _, _, hread, rfl, hsize, hrebuild.mpr ⟨hsize, archive, hrendered, rfl⟩⟩

/-- The bytes of the sample, with others behind them. -/
def paddedArchive (padding : Bytes) : Bytes :=
  NetstringZip.render ((archived (manifestBytesOf sampleCrates sampleEntries) sampleEntries).map
    zipFile) ++ padding

theorem read_paddedArchive (h : padding = [] ∨ padding = [0]) :
    ∃ v, readTracePackageArchive sampleCrates (paddedArchive padding) = .ok v ∧
      v.files = sampleEntries.intoFiles := by
  have hr : ∀ padding ∈ [[], [0]],
      (readTracePackageArchive sampleCrates (paddedArchive padding)).toOption.map (·.files) =
        some sampleEntries.intoFiles := by decide +kernel
  have hp := hr padding (by simpa using h)
  cases hv : readTracePackageArchive sampleCrates (paddedArchive padding) with
  | error => simp [hv, Except.toOption] at hp
  | ok v => exact ⟨v, rfl, by simpa [hv, Except.toOption] using hp⟩

/-- A package with the given evidence and otherwise as small as can be. -/
def sparseEntries (evidence : Bytes) : TracePackageArchiveEntries where
  evidenceTlsn := evidence
  manifestJson := bytes "\x7b\"format\": \"notary/trace-evidence/v1\"\x7d"
  requestDisclosedHttp := []
  responseDisclosedHttp := []
  traceOtlpJson := []

theorem sparse_manifestJson (evidence : Bytes) :
    (sparseEntries evidence).manifestJson.length = 38 := by
  have h : (bytes "\x7b\"format\": \"notary/trace-evidence/v1\"\x7d").length = 38 := by decide
  exact h

section

variable {evidence : Bytes} (hlength : evidence.length = maxArchiveUncompressedBytes)
  (hdigest : sampleCrates.sha256 evidence = List.replicate 32 0)
include hlength

theorem sparse_totalSize :
    totalSize (sparseEntries evidence).intoFiles = maxArchiveUncompressedBytes + 38 := by
  simp only [TracePackageArchiveEntries.intoFiles, totalSize_cons, sparse_manifestJson]
  simp [sparseEntries, totalSize, hlength]

theorem sparse_build (archive : Bytes) :
    buildTracePackageArchiveFromEntries sampleCrates (sparseEntries evidence) ≠ .ok archive := by
  intro h
  have hs := (build_ok.mp h).1
  rw [sparse_totalSize hlength] at hs
  omega

include hdigest

theorem sparse_manifestBytes :
    (manifestBytesOf sampleCrates (sparseEntries evidence)).length ≤ 1024 := by
  have hd : declaredFile sampleCrates ("evidence.tlsn", evidence) =
      ⟨"evidence.tlsn", 134217728, Hex.encode (List.replicate 32 0)⟩ := by
    rw [declaredFile, sha256Hex, hdigest, hlength]
    rfl
  simp only [manifestBytesOf, manifestOf, TracePackageArchiveEntries.intoFiles, sparseEntries,
    map_cons, map_nil, hd]
  decide +kernel

theorem sparse_withinLimits : WithinLimits 0 (archived
    (manifestBytesOf sampleCrates (sparseEntries evidence)) (sparseEntries evidence)) := by
  have hm := sparse_manifestBytes hlength hdigest
  have hj := sparse_manifestJson evidence
  have hf : ∀ f ∈ (sparseEntries evidence).intoFiles, f.2.length ≤ maxArchiveUncompressedBytes := by
    simp only [TracePackageArchiveEntries.intoFiles, forall_mem_cons, hj]
    simp [sparseEntries, hlength, maxArchiveUncompressedBytes]
  refine withinLimits_archived hf (le_trans hm (by decide)) ?_
  rw [sparse_totalSize hlength]
  simp only [maxArchiveManifestBytes]
  omega

theorem sparse_length : (NetstringZip.render ((archived
    (manifestBytesOf sampleCrates (sparseEntries evidence)) (sparseEntries evidence)).map
      zipFile)).length ≤ maxArchiveWireBytes := by
  have hl := sparse_withinLimits hlength hdigest
  have hn : ∀ name ∈ expectedNames, (bytes name).length ≤ 23 := by decide
  refine le_trans (NetstringZip.length_render_le fun f hf => ⟨?_, ?_⟩) ?_
  · exact hn _ (mem_map_of_mem (f := Prod.fst) hf)
  · refine lt_of_le_of_lt (hl.1 f hf) ?_
    rw [entryLimit]
    split_ifs
    · decide
    · decide
  · have hs := hl.2
    have hc : (archived (manifestBytesOf sampleCrates (sparseEntries evidence))
      (sparseEntries evidence)).length = 6 := rfl
    rw [hc, maxArchiveWireBytes, maxZipContainerBytes]
    omega

end

/-- The reader accepts an archive that the builder would not make, and two archives with the same
entries. -/
theorem read_oversized : sampleCrates.zip.Faithful ∧
    (∃ archive v e, readTracePackageArchive sampleCrates archive = .ok v ∧
      v.files = e.intoFiles ∧ ∀ b, buildTracePackageArchiveFromEntries sampleCrates e ≠ .ok b) ∧
    ∃ archive archive' v v', readTracePackageArchive sampleCrates archive = .ok v ∧
      readTracePackageArchive sampleCrates archive' = .ok v' ∧ v.files = v'.files ∧
      archive ≠ archive' := by
  have hlength : (List.replicate maxArchiveUncompressedBytes (0 : UInt8)).length =
      maxArchiveUncompressedBytes := length_replicate
  have hdigest : sampleCrates.sha256 (List.replicate maxArchiveUncompressedBytes 0) =
      List.replicate 32 0 := by
    have htake : (List.replicate maxArchiveUncompressedBytes (0 : UInt8)).take 32 =
        List.replicate 32 0 := by
      rw [take_replicate, Nat.min_eq_left (by decide)]
    simp only [sampleCrates, htake]
    rfl
  generalize List.replicate maxArchiveUncompressedBytes (0 : UInt8) = evidence at hlength hdigest
  have hformat : requirePackageFormat sampleCrates (sparseEntries evidence).manifestJson =
      .ok () := by
    have h : requirePackageFormat sampleCrates (sparseEntries []).manifestJson = .ok () := by
      decide +kernel
    exact h
  have hrendered : Rendered sampleCrates (sparseEntries evidence) _ :=
    ⟨_, NetstringZip.run_fill (NetstringZip.resolve_end
      (lt_of_le_of_lt (sparse_length hlength hdigest) (by decide)) _), rfl⟩
  have hread := read_of_rendered NetstringZip.faithful (sparse_withinLimits hlength hdigest)
    hformat hrendered (sparse_length hlength hdigest)
  refine ⟨NetstringZip.faithful, ⟨_, _, _, hread, rfl, sparse_build hlength⟩,
    paddedArchive [], paddedArchive [0], ?_⟩
  obtain ⟨v, hv, hfiles⟩ := read_paddedArchive (.inl rfl)
  obtain ⟨v', hv', hfiles'⟩ := read_paddedArchive (.inr rfl)
  exact ⟨v, v', hv, hv', hfiles.trans hfiles'.symm,
    fun h => by simpa [paddedArchive] using congrArg List.length h⟩

end Notary.Core
