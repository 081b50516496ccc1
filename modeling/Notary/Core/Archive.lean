import Notary.Core.CanonicalComparison
import Notary.Core.Commitments
import Notary.Lib.Hex
import Notary.Lib.JsonRoundTrip

/-! The transport archive of a trace package: how it is built and how it is read. -/

namespace Notary.Core
open Sink Utf8 Json

inductive CompressionMethod
  | stored
  | other (code : ℕ)
  deriving DecidableEq

structure ZipDateTime where
  datepart : ℕ
  timepart : ℕ
  deriving DecidableEq

/-- `DateTime::default()`, the first day of 1980. -/
def ZipDateTime.default : ZipDateTime := ⟨33, 0⟩

structure SimpleFileOptions where
  compressionMethod : CompressionMethod
  lastModifiedTime : ZipDateTime
  unixPermissions : ℕ
  deriving DecidableEq

structure ZipFile where
  name : String
  options : SimpleFileOptions
  data : Bytes
  deriving DecidableEq

/-- An entry as the ZIP reader shows it. Reading its data may fail. -/
structure ZipEntry where
  name : String
  enclosedName : Option String
  encrypted : Bool
  isFile : Bool
  compression : CompressionMethod
  lastModified : Option ZipDateTime
  unixMode : Option ℕ
  size : ℕ
  contents : Option Bytes
  deriving DecidableEq

/-- The ZIP library: the program of its writer, which may depend on what the destination answers,
and the entries that its reader finds. Both may fail, and so may the access to one entry. -/
structure ZipLibrary where
  program : List ZipFile → Program
  entries : Bytes → Option (List (Option ZipEntry))

/-- The libraries that the package code calls. -/
structure Crates where
  Float : Type
  floats : Floats Float
  sha256 : Bytes → Bytes
  sha256_length : ∀ b, (sha256 b).length = 32
  zip : ZipLibrary

instance (c : Crates) : Floats c.Float := c.floats

abbrev Crates.Json (c : Crates) := Value c.Float

def sha256Hex (c : Crates) (b : Bytes) : String := Hex.encode (c.sha256 b)

/-- `serde_json::to_vec`. -/
def toVec {c : Crates} (v : c.Json) : Bytes := Utf8.encode (v.print .compact 0)

/-- The text of a document before its members become a map. -/
def fromSliceRaw (c : Crates) (b : Bytes) : Option c.Json :=
  (decode b).bind document

def tracePackageFormat : String := "notary/trace-package/v1"

def traceEvidenceFormat : String := "notary/trace-evidence/v1"

def archiveManifestPath : String := "archive-manifest.json"

def packageFiles : List String :=
  ["evidence.tlsn", "manifest.json", "request.disclosed.http", "response.disclosed.http",
    "trace.otlp.json"]

def maxArchiveUncompressedBytes : ℕ := 128 * 1024 * 1024

def maxArchiveManifestBytes : ℕ := 64 * 1024

def maxZipContainerBytes : ℕ := 16 * 1024

def maxArchiveWireBytes : ℕ :=
  maxArchiveUncompressedBytes + maxArchiveManifestBytes + maxZipContainerBytes

structure ArchiveFile where
  path : String
  sizeBytes : UInt64
  sha256 : String
  deriving DecidableEq

structure TracePackageArchiveManifest where
  format : String
  packageFormat : String
  packageSha256 : String
  files : List ArchiveFile
  deriving DecidableEq

abbrev Files := List (String × Bytes)

structure ValidatedTracePackageArchive where
  manifest : TracePackageArchiveManifest
  files : Files
  deriving DecidableEq

def ValidatedTracePackageArchive.file (archive : ValidatedTracePackageArchive) (name : String) :
    Except String Bytes :=
  match archive.files.lookup name with
  | some data => .ok data
  | none => .error ("trace package entry is not part of the current contract: " ++ name)

structure TracePackageArchiveEntries where
  evidenceTlsn : Bytes
  manifestJson : Bytes
  requestDisclosedHttp : Bytes
  responseDisclosedHttp : Bytes
  traceOtlpJson : Bytes
  deriving DecidableEq

def TracePackageArchiveEntries.intoFiles (e : TracePackageArchiveEntries) : Files :=
  [("evidence.tlsn", e.evidenceTlsn), ("manifest.json", e.manifestJson),
    ("request.disclosed.http", e.requestDisclosedHttp),
    ("response.disclosed.http", e.responseDisclosedHttp), ("trace.otlp.json", e.traceOtlpJson)]

section

variable (c : Crates)

def ArchiveFile.toJson (f : ArchiveFile) : c.Json :=
  .object [("path", .string f.path), ("size_bytes", .number (.unsigned f.sizeBytes)),
    ("sha256", .string f.sha256)]

def TracePackageArchiveManifest.toJson (m : TracePackageArchiveManifest) : c.Json :=
  .object [("format", .string m.format), ("package_format", .string m.packageFormat),
    ("package_sha256", .string m.packageSha256),
    ("files", .array (m.files.map (ArchiveFile.toJson c)))]

def ArchiveFile.ofJson (v : c.Json) : Option ArchiveFile := do
  match ← structFields ["path", "size_bytes", "sha256"] true v with
  | [path, sizeBytes, sha256] => some ⟨← path.asStr, ← sizeBytes.asU64, ← sha256.asStr⟩
  | _ => none

def TracePackageArchiveManifest.ofJson (v : c.Json) : Option TracePackageArchiveManifest := do
  match ← structFields ["format", "package_format", "package_sha256", "files"] true v with
  | [format, packageFormat, packageSha256, files] =>
    some ⟨← format.asStr, ← packageFormat.asStr, ← packageSha256.asStr,
      ← (← files.asArray).mapM (ArchiveFile.ofJson c)⟩
  | _ => none

def packageDigest (files : List ArchiveFile) : String :=
  sha256Hex c (toVec (c := c) (.object [("format", .string traceEvidenceFormat),
    ("files", .array (files.map (ArchiveFile.toJson c)))]))

def requirePackageFormat (b : Bytes) : Except String Unit :=
  match (fromSlice b : Option c.Json) with
  | none => .error "parsing verified package manifest"
  | some value =>
    if (value.get "format").bind Value.asStr = some traceEvidenceFormat then .ok ()
    else .error "unsupported verified trace package format"

def fileManifest (files : Files) : ℕ → List String → Except String (List ArchiveFile)
  | _, [] => .ok []
  | totalSize, name :: names =>
    match files.lookup name with
    | none => .error "typed package entries contain every required file"
    | some data =>
      match checkedAdd totalSize data.length with
      | none => .error "trace package size overflow"
      | some totalSize =>
        if maxArchiveUncompressedBytes < totalSize then
          .error "trace package exceeds the 128 MiB sharing limit"
        else do
          let rest ← fileManifest files totalSize names
          .ok (⟨name, UInt64.ofNat data.length, sha256Hex c data⟩ :: rest)

def archiveCapacity (packageSize manifestSize : ℕ) : Except String ℕ :=
  if maxArchiveUncompressedBytes < packageSize ∨ maxArchiveManifestBytes < manifestSize then
    .error "trace package archive exceeds the on-wire size limit"
  else
    match (checkedAdd packageSize manifestSize).bind (checkedAdd · maxZipContainerBytes) with
    | none => .error "trace package size overflow"
    | some capacity =>
      if maxArchiveWireBytes < capacity then
        .error "trace package archive exceeds the on-wire size limit"
      else .ok capacity

def deterministicOptions : SimpleFileOptions := ⟨.stored, .default, 0o644⟩

def archiveFiles (manifestBytes : Bytes) (files : Files) : Option (List ZipFile) := do
  let rest ← packageFiles.mapM fun name =>
    (files.lookup name).map fun data => (⟨name, deterministicOptions, data⟩ : ZipFile)
  some (⟨archiveManifestPath, deterministicOptions, manifestBytes⟩ :: rest)

def writeTracePackageArchive {δ : Type} [Destination δ] (manifestBytes : Bytes) (files : Files)
    (destination : δ) : Except String δ :=
  match archiveFiles manifestBytes files with
  | none => .error "required package file was loaded"
  | some files =>
    match (c.zip.program files).run destination with
    | none => .error "completing trace package archive"
    | some destination => .ok destination

def packageSize : ℕ → Files → Except String ℕ
  | size, [] => .ok size
  | size, (_, data) :: files =>
    match checkedAdd size data.length with
    | none => .error "trace package size overflow"
    | some size => packageSize size files

def renderTracePackageArchive (manifest : TracePackageArchiveManifest) (files : Files) :
    Except String Bytes := do
  let manifestBytes := toVec (manifest.toJson c)
  let size ← packageSize 0 files
  let _ ← archiveCapacity size manifestBytes.length
  let archive ← writeTracePackageArchive c manifestBytes files Buffer.empty
  if maxArchiveWireBytes < archive.data.length then
    .error "trace package archive exceeds the on-wire size limit"
  else .ok archive.data

def archiveManifestOf (files : List ArchiveFile) : TracePackageArchiveManifest :=
  ⟨tracePackageFormat, traceEvidenceFormat, packageDigest c files, files⟩

def buildTracePackageArchiveFromEntries (entries : TracePackageArchiveEntries) :
    Except String Bytes := do
  let files := entries.intoFiles
  let fileManifest ← fileManifest c files 0 packageFiles
  requirePackageFormat c entries.manifestJson
  let archiveManifest := archiveManifestOf c fileManifest
  if maxArchiveManifestBytes < (toVec (archiveManifest.toJson c)).length then
    .error "archive manifest is unexpectedly large"
  else renderTracePackageArchive c archiveManifest files

/-- The names that the entries must have, in their order. -/
def expectedNames : List String := archiveManifestPath :: packageFiles

structure EntryScan where
  seen : List String
  entries : Files
  totalSize : ℕ
  deriving DecidableEq

def entryLimit (name : String) : ℕ :=
  if name = archiveManifestPath then maxArchiveManifestBytes else maxArchiveUncompressedBytes

def readEntry (expectedName : String) (entry : ZipEntry) (scan : EntryScan) :
    Except String EntryScan :=
  if entry.name ≠ expectedName then .error "archive entry ordering is not canonical"
  else if entry.enclosedName ≠ some entry.name ∨ entry.name ∉ expectedNames then
    .error ("archive contains an invalid or undeclared path: " ++ entry.name)
  else if entry.name ∈ scan.seen then
    .error ("archive contains a duplicate entry: " ++ entry.name)
  else if entry.encrypted ∨ ¬entry.isFile then
    .error ("archive entry must be an unencrypted regular file: " ++ entry.name)
  else if entry.compression ≠ .stored ∨ entry.lastModified ≠ some .default ∨
      entry.unixMode.map (· % 512) ≠ some 0o644 then
    .error ("archive entry metadata is not canonical: " ++ entry.name)
  else if entryLimit entry.name < entry.size then
    .error ("archive entry exceeds its size limit: " ++ entry.name)
  else
    match checkedAdd scan.totalSize entry.size with
    | none => .error "archive size overflow"
    | some totalSize =>
      if maxArchiveUncompressedBytes + maxArchiveManifestBytes < totalSize then
        .error "archive exceeds the total uncompressed size limit"
      else
        match entry.contents.map (List.take (entryLimit entry.name + 1)) with
        | none => .error ("reading archive entry " ++ entry.name)
        | some data =>
          if data.length ≠ entry.size then
            .error ("archive entry size did not match its ZIP metadata: " ++ entry.name)
          else .ok ⟨scan.seen ++ [entry.name], scan.entries ++ [(entry.name, data)], totalSize⟩

def readEntries : List (Option ZipEntry) → List String → EntryScan → Except String EntryScan
  | some entry :: entries, name :: names, scan =>
    (readEntry name entry scan).bind fun scan => readEntries entries names scan
  | none :: _, _, _ => .error "reading ZIP entry"
  | _, _, scan => .ok scan

/-- The loop that compares the declared files with the entries. -/
def checkDeclaredFiles (entries : Files) : List ArchiveFile → List String → Except String Unit
  | declared :: files, expectedName :: names =>
    if declared.path ≠ expectedName then
      .error "archive manifest file ordering or path is invalid"
    else
      match entries.lookup expectedName with
      | none => .error "validated archive contains every package file"
      | some data =>
        if declared.sizeBytes ≠ UInt64.ofNat data.length ∨ declared.sha256 ≠ sha256Hex c data then
          .error ("archive file hash or size mismatch: " ++ expectedName)
        else checkDeclaredFiles entries files names
  | _, _ => .ok ()

/-- The manifest entry of an archive, once its entries are known. -/
def readArchiveManifest (entries : Files) : Except String TracePackageArchiveManifest :=
  match (entries.lookup archiveManifestPath).bind (fromSliceRaw c) with
  | none => .error "parsing archive manifest"
  | some value =>
    match TracePackageArchiveManifest.ofJson c value with
    | none => .error "parsing archive manifest"
    | some manifest => .ok manifest

def checkArchiveManifest (manifest : TracePackageArchiveManifest) (entries : Files) :
    Except String Unit :=
  if manifest.format ≠ tracePackageFormat ∨ manifest.packageFormat ≠ traceEvidenceFormat then
    .error "unsupported trace package archive format"
  else if manifest.files.length ≠ packageFiles.length then
    .error "archive manifest does not declare the exact package file set"
  else do
    checkDeclaredFiles c entries manifest.files packageFiles
    if manifest.packageSha256 ≠ packageDigest c manifest.files then
      .error "archive package hash mismatch"
    else
      match entries.lookup "manifest.json" with
      | none => .error "validated archive contains package manifest"
      | some data => requirePackageFormat c data

/-- The archive is written again and compared with the bytes that were read. -/
def compareCanonical (archive : Bytes) (manifest : TracePackageArchiveManifest)
    (entries : Files) : Except String Unit := do
  let comparison ← writeTracePackageArchive c (toVec (manifest.toJson c)) entries
    (CanonicalComparisonWriter.new archive)
  if ¬comparison.matchesExpected then .error "archive ZIP container is not canonical"
  else .ok ()

def readValidatedArchive (archive : Bytes) : Except String ValidatedTracePackageArchive :=
  match c.zip.entries archive with
  | none => .error "parsing trace package archive"
  | some zipEntries =>
    if zipEntries.length ≠ packageFiles.length + 1 then
      .error "archive must contain exactly 6 entries"
    else do
      let scan ← readEntries zipEntries expectedNames ⟨[], [], 0⟩
      if ¬(scan.seen ⊆ expectedNames ∧ expectedNames ⊆ scan.seen) then
        .error "archive does not contain the exact required entry set"
      else
        let manifest ← readArchiveManifest c scan.entries
        checkArchiveManifest c manifest scan.entries
        compareCanonical c archive manifest scan.entries
        .ok ⟨manifest, scan.entries.filter (·.1 ≠ archiveManifestPath)⟩

def readTracePackageArchive (archive : Bytes) : Except String ValidatedTracePackageArchive :=
  if maxArchiveWireBytes < archive.length then
    .error "trace package archive exceeds the on-wire size limit"
  else if ¬[0x50, 0x4B, 0x03, 0x04] <+: archive then
    .error "trace package archive does not start at the canonical ZIP offset"
  else readValidatedArchive c archive

end

end Notary.Core
