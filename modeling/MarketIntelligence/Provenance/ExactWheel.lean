import MarketIntelligence.Python.Base64
import MarketIntelligence.Python.Files

/-!
# Installed from the exact wheel

The check that an imported file belongs to a distribution that was installed from a
supplied wheel. Its evidence is the provenance that the installer has recorded and the
RECORD of the installed distribution; the archive itself is hashed, but never opened.
-/

namespace MarketIntelligence.Provenance

open Python

/-- An exit of an acceptance script. -/
inductive Exit
  /-- `SystemExit(message)`. -/
  | systemExit (message : Str)
  /-- `importlib.metadata.PackageNotFoundError`. -/
  | packageNotFound (name : Str)
  deriving DecidableEq

/-- A file of an installed distribution, with the hash field of its RECORD line. -/
structure PackagePath where
  path : Str
  hash : Option Str

/-- An installed distribution. -/
structure Distribution where
  /-- `read_text("direct_url.json")`. -/
  directUrl : Except BuiltinError (Option Str)
  files : Except BuiltinError (Option (List PackagePath))
  /-- `locate_file(file)`. -/
  locateFile : Str → Str

/-- What a script finds on the machine, and what it computes with. -/
structure Machine (F : Type) where
  py : Interpreter F
  /-- `importlib.metadata.distribution(name)`. -/
  distribution : Str → Option Distribution
  /-- `path.read_bytes()`. -/
  readBytes : Str → Except BuiltinError (List UInt8)
  /-- `path.resolve()`. -/
  resolve : Str → Except BuiltinError Str
  /-- The scheme and the path of `urlsplit(url)`. -/
  urlsplit : Str → Except BuiltinError (Str × Str)
  unquote : Str → Str
  /-- The SHA-256 digest. -/
  sha256 : List UInt8 → List UInt8

/-- The arguments of the check. -/
structure Request where
  distributionName : Str
  wheel : Str
  importPath : Str
  ownedRelativePath : Str

/-- The report of the check. -/
structure Verified (F : Type) where
  distribution : Str
  wheel : Str
  wheelSha256 : Str
  installedArchiveSha256 : Data F
  importPath : Str
  recordPath : Str
  recordHash : Str
  installedFileSha256 : Str

/-- A computation of the check. -/
abbrev Checked (α : Type) : Type := Except (Raised Exit) α

/-- `raise SystemExit(message)`. -/
def systemExit {α : Type} (message : Str) : Checked α := .error (.own (.systemExit message))

/-- `digest.hex()`. -/
def hexText (digest : List UInt8) : Str := digest.flatMap fun b => Data.hex2 b.toNat

/-! ### Provenance -/

variable {F : Type}

/-- The path that a distribution was installed from. -/
def installedFrom (m : Machine F) (directUrl : List (Str × Data F)) :
    Except BuiltinError (Option Str) :=
  match getD directUrl (lit "url") (.str []) with
  | .str url => do
      let (scheme, path) ← m.urlsplit url
      if scheme = lit "file" then return some (← m.resolve (m.unquote path)) else return none
  | .list _ | .dict _ => .error .typeError
  | value => if value.truthy m.py then .error .attributeError else .ok none

/-- The archive digest that the installer has recorded, with the legacy field as fallback. -/
def installedArchiveSha256 (directUrl : List (Str × Data F)) : Data F :=
  match get directUrl (lit "archive_info") with
  | .dict info =>
      let installed := match get info (lit "hashes") with
        | .dict hashes => get hashes (lit "sha256")
        | _ => .none
      if installed.isNone then
        match get info (lit "hash") with
        | .str legacy =>
            if lit "sha256=" <+: legacy then .str (legacy.drop (lit "sha256=").length) else .none
        | _ => .none
      else installed
  | _ => .none

/-- The gates on the provenance: the digest of the wheel and the recorded one. -/
def checkArchive (m : Machine F) (r : Request) (directUrl : List (Str × Data F)) :
    Checked (Str × Data F) := do
  let source ← ofBuiltin (installedFrom m directUrl)
  let wheel ← ofBuiltin (m.resolve r.wheel)
  if source ≠ some wheel then
    systemExit (r.distributionName ++ lit " was not installed from the supplied exact wheel: " ++
      source.getD (lit "None"))
  else
    let wheelSha256 := hexText (m.sha256 (← ofBuiltin (m.readBytes r.wheel)))
    let archiveSha256 := installedArchiveSha256 directUrl
    if !archiveSha256.eqStr wheelSha256 then
      systemExit (r.distributionName ++
        lit " direct-url archive digest does not match the supplied exact wheel")
    else return (wheelSha256, archiveSha256)

/-! ### The RECORD -/

/-- `{str(item): item for item in (distribution.files or ())}.get(path)`. -/
def ownedFile (files : Option (List PackagePath)) (path : Str) : Option PackagePath :=
  (files.getD []).reverse.find? fun file => file.path = path

/-- The mode of a RECORD hash. -/
def hashMode (spec : Str) : Str := spec.takeWhile fun c : Chr => c ≠ ('=' : Chr)

/-- The value of a RECORD hash. -/
def hashValue (spec : Str) : Str := (spec.dropWhile fun c : Chr => c ≠ ('=' : Chr)).drop 1

/-- `str(record_hash)`. -/
def hashText (spec : Str) : Str :=
  lit "<FileHash mode: " ++ (hashMode spec ++ (lit " value: " ++ (hashValue spec ++ lit ">")))

/-- The gates on the imported file: its path, the hash of its RECORD line and its digest. -/
def checkRecord (m : Machine F) (r : Request) (d : Distribution) :
    Checked (Str × Str × List UInt8) := do
  match ownedFile (← ofBuiltin d.files) r.ownedRelativePath with
  | some ⟨path, some spec⟩ =>
      let expectedImport ← ofBuiltin (m.resolve (d.locateFile path))
      let resolvedImport ← ofBuiltin (m.resolve r.importPath)
      if resolvedImport ≠ expectedImport then
        systemExit (r.distributionName ++
          lit " import/resource is not its exact RECORD-owned file: " ++ resolvedImport ++
          lit " != " ++ expectedImport)
      else if hashMode spec ≠ lit "sha256" then
        systemExit (r.distributionName ++ lit " RECORD uses unsupported hash mode for " ++
          r.ownedRelativePath ++ lit ": " ++ hashMode spec)
      else
        let digest := m.sha256 (← ofBuiltin (m.readBytes resolvedImport))
        if unpadded64 digest ≠ hashValue spec then
          systemExit (r.distributionName ++
            lit " installed bytes do not match the RECORD hash for " ++ r.ownedRelativePath)
        else return (resolvedImport, spec, digest)
  | _ => systemExit (r.distributionName ++ lit " RECORD does not own " ++ r.ownedRelativePath ++
      lit " with a hash")

/-! ### The check -/

/-- The two scripts that carry the check. -/
inductive Copy
  | p1c2LivePublicSource
  | p1d1PreparedBrief

/-- The exit of a script for a distribution that is not installed. -/
def Copy.notFound : Copy → Str → Exit
  | p1c2LivePublicSource, name => .packageNotFound name
  | p1d1PreparedBrief, name =>
      .systemExit (name ++ lit " is not installed from the supplied exact wheel")

/-- `_installed_from_exact_wheel`. -/
def installedFromExactWheel [PyFloat F] (copy : Copy) (m : Machine F) (r : Request) :
    Checked (Verified F) :=
  match m.distribution r.distributionName with
  | none => .error (.own (copy.notFound r.distributionName))
  | some d => do
      match ← ofBuiltin d.directUrl with
      | none => systemExit (r.distributionName ++
          lit " lacks exact local-wheel installation provenance")
      | some raw =>
          match ← ofBuiltin (jsonLoads m.py.limits raw) with
          | .dict directUrl =>
              let (wheelSha256, archiveSha256) ← checkArchive m r directUrl
              let (resolvedImport, spec, digest) ← checkRecord m r d
              return {
                distribution := r.distributionName
                wheel := ← ofBuiltin (m.resolve r.wheel)
                wheelSha256 := wheelSha256
                installedArchiveSha256 := archiveSha256
                importPath := resolvedImport
                recordPath := r.ownedRelativePath
                recordHash := hashText spec
                installedFileSha256 := hexText digest }
          | _ => .error (.builtin .attributeError)

/-! ### What it establishes -/

/-- The pieces of evidence, as the check finds them. -/
structure Evidence (F : Type) where
  distribution : Distribution
  raw : Str
  directUrl : List (Str × Data F)
  /-- The resolved path of the wheel. -/
  wheel : Str
  archive : List UInt8
  files : Option (List PackagePath)
  /-- The path and the hash of the RECORD line. -/
  path : Str
  spec : Str
  /-- The resolved path of the import. -/
  importPath : Str
  bytes : List UInt8

/-- The evidence is that of the machine, and its pieces agree. -/
structure Accepted [PyFloat F] (m : Machine F) (r : Request) (e : Evidence F) : Prop where
  distribution : m.distribution r.distributionName = some e.distribution
  raw : e.distribution.directUrl = .ok (some e.raw)
  directUrl : jsonLoads m.py.limits e.raw = .ok (.dict e.directUrl)
  wheel : m.resolve r.wheel = .ok e.wheel
  archive : m.readBytes r.wheel = .ok e.archive
  /-- The recorded origin is the wheel, by its path and by its digest. -/
  origin : installedFrom m e.directUrl = .ok (some e.wheel)
  originDigest : installedArchiveSha256 e.directUrl = .str (hexText (m.sha256 e.archive))
  files : e.distribution.files = .ok e.files
  /-- The RECORD owns the import, by its path and by its digest. -/
  owned : ownedFile e.files r.ownedRelativePath = some ⟨e.path, some e.spec⟩
  importPath : m.resolve r.importPath = .ok e.importPath
  located : m.resolve (e.distribution.locateFile e.path) = .ok e.importPath
  bytes : m.readBytes e.importPath = .ok e.bytes
  mode : hashMode e.spec = lit "sha256"
  digest : hashValue e.spec = unpadded64 (m.sha256 e.bytes)

/-- The report on the evidence. -/
def Evidence.report (m : Machine F) (r : Request) (e : Evidence F) : Verified F where
  distribution := r.distributionName
  wheel := e.wheel
  wheelSha256 := hexText (m.sha256 e.archive)
  installedArchiveSha256 := .str (hexText (m.sha256 e.archive))
  importPath := e.importPath
  recordPath := r.ownedRelativePath
  recordHash := hashText e.spec
  installedFileSha256 := hexText (m.sha256 e.bytes)

/-- No exit is a result. -/
@[simp] theorem systemExit_ne_ok {α : Type} {message : Str} {a : α} :
    (systemExit message : Checked α) ≠ .ok a := nofun

/-- The archive gates pass exactly if the recorded origin is the wheel. -/
theorem checkArchive_eq_ok {m : Machine F} {r : Request} {directUrl : List (Str × Data F)}
    {digests : Str × Data F} :
    checkArchive m r directUrl = .ok digests ↔
      ∃ wheel archive, m.resolve r.wheel = .ok wheel ∧ m.readBytes r.wheel = .ok archive ∧
        installedFrom m directUrl = .ok (some wheel) ∧
        installedArchiveSha256 directUrl = .str (hexText (m.sha256 archive)) ∧
        digests = (hexText (m.sha256 archive), .str (hexText (m.sha256 archive))) := by
  constructor
  · intro h
    obtain ⟨source, hsource, h⟩ := bind_eq_ok.mp h
    obtain ⟨wheel, hwheel, h⟩ := bind_eq_ok.mp h
    split at h
    · exact absurd h systemExit_ne_ok
    rename_i hsame
    obtain ⟨archive, harchive, h⟩ := bind_eq_ok.mp h
    dsimp only at h
    split at h
    · exact absurd h systemExit_ne_ok
    rename_i hdigest
    have hdigest : installedArchiveSha256 directUrl = .str (hexText (m.sha256 archive)) := by
      simpa using hdigest
    rw [hdigest] at h
    have hdigests := (Except.ok.inj h).symm
    obtain rfl := not_not.mp hsame
    exact ⟨wheel, archive, ofBuiltin_eq_ok.mp hwheel, ofBuiltin_eq_ok.mp harchive,
      ofBuiltin_eq_ok.mp hsource, hdigest, hdigests⟩
  · rintro ⟨wheel, archive, hwheel, harchive, hsource, hdigest, rfl⟩
    simp [checkArchive, hwheel, harchive, hsource, hdigest, ofBuiltin]

/-- The RECORD gates pass exactly if the RECORD owns the import. -/
theorem checkRecord_eq_ok {m : Machine F} {r : Request} {d : Distribution}
    {found : Str × Str × List UInt8} :
    checkRecord m r d = .ok found ↔
      ∃ files path spec importPath bytes, d.files = .ok files ∧
        ownedFile files r.ownedRelativePath = some ⟨path, some spec⟩ ∧
        m.resolve r.importPath = .ok importPath ∧
        m.resolve (d.locateFile path) = .ok importPath ∧ m.readBytes importPath = .ok bytes ∧
        hashMode spec = lit "sha256" ∧ hashValue spec = unpadded64 (m.sha256 bytes) ∧
        found = (importPath, spec, m.sha256 bytes) := by
  constructor
  · intro h
    obtain ⟨files, hfiles, h⟩ := bind_eq_ok.mp h
    split at h
    · rename_i path spec howned
      obtain ⟨expected, hexpected, h⟩ := bind_eq_ok.mp h
      obtain ⟨importPath, himport, h⟩ := bind_eq_ok.mp h
      split at h
      · exact absurd h systemExit_ne_ok
      rename_i hsame
      split at h
      · exact absurd h systemExit_ne_ok
      rename_i hmode
      obtain ⟨bytes, hbytes, h⟩ := bind_eq_ok.mp h
      dsimp only at h
      split at h
      · exact absurd h systemExit_ne_ok
      rename_i hdigest
      have hfound := (Except.ok.inj h).symm
      obtain rfl := not_not.mp hsame
      exact ⟨files, path, spec, importPath, bytes, ofBuiltin_eq_ok.mp hfiles, howned,
        ofBuiltin_eq_ok.mp himport, ofBuiltin_eq_ok.mp hexpected, ofBuiltin_eq_ok.mp hbytes,
        not_not.mp hmode, (not_not.mp hdigest).symm, hfound⟩
    · exact absurd h systemExit_ne_ok
  · rintro ⟨files, path, spec, importPath, bytes, hfiles, howned, himport, hexpected, hbytes,
      hmode, hdigest, rfl⟩
    simp [checkRecord, hfiles, howned, himport, hexpected, hbytes, hmode, hdigest, ofBuiltin]

/-- The check returns exactly on accepted evidence, with the report on it. -/
theorem installedFromExactWheel_eq_ok [PyFloat F] {copy : Copy} {m : Machine F} {r : Request}
    {v : Verified F} :
    installedFromExactWheel copy m r = .ok v ↔ ∃ e, Accepted m r e ∧ v = e.report m r := by
  constructor
  · intro h
    unfold installedFromExactWheel at h
    split at h
    · cases h
    rename_i d hd
    obtain ⟨raw, hraw, h⟩ := bind_eq_ok.mp h
    split at h
    · exact absurd h systemExit_ne_ok
    rename_i text
    obtain ⟨value, hvalue, h⟩ := bind_eq_ok.mp h
    split at h
    · rename_i directUrl
      obtain ⟨digests, harchive, h⟩ := bind_eq_ok.mp h
      obtain ⟨found, hrecord, h⟩ := bind_eq_ok.mp h
      obtain ⟨wheel, hwheel, h⟩ := bind_eq_ok.mp h
      obtain ⟨wheel', archive, hwheel', hread, horigin, hdigest, rfl⟩ :=
        checkArchive_eq_ok.mp harchive
      obtain ⟨files, path, spec, importPath, bytes, hfiles, howned, himport, hlocated, hbytes,
        hmode, hrecorded, rfl⟩ := checkRecord_eq_ok.mp hrecord
      have hsame : wheel' = wheel :=
        Except.ok.inj (hwheel'.symm.trans (ofBuiltin_eq_ok.mp hwheel))
      subst hsame
      exact ⟨⟨d, text, directUrl, wheel', archive, files, path, spec, importPath, bytes⟩,
        ⟨hd, ofBuiltin_eq_ok.mp hraw, ofBuiltin_eq_ok.mp hvalue, hwheel', hread, horigin,
          hdigest, hfiles, howned, himport, hlocated, hbytes, hmode, hrecorded⟩,
        (Except.ok.inj h).symm⟩
    · cases h
  · rintro ⟨e, he, rfl⟩
    have harchive := checkArchive_eq_ok.mpr
      ⟨e.wheel, e.archive, he.wheel, he.archive, he.origin, he.originDigest, rfl⟩
    have hrecord := checkRecord_eq_ok.mpr ⟨e.files, e.path, e.spec, e.importPath, e.bytes,
      he.files, he.owned, he.importPath, he.located, he.bytes, he.mode, he.digest, rfl⟩
    simp [installedFromExactWheel, he.distribution, he.raw, he.directUrl, he.wheel, harchive,
      hrecord, ofBuiltin, Evidence.report]

/-! ### What it does not establish -/

/-- The imported file has the bytes of the member of the supplied wheel with the owned path. -/
def FromWheel (m : Machine F) (r : Request) (member : List UInt8 → Str → Option (List UInt8)) :
    Prop :=
  ∃ importPath bytes archive, m.resolve r.importPath = .ok importPath ∧
    m.readBytes importPath = .ok bytes ∧ m.readBytes r.wheel = .ok archive ∧
    member archive r.ownedRelativePath = some bytes

/-- The RECORD line of the owned path has the digest of that member. -/
def RecordsMember (m : Machine F) (r : Request)
    (member : List UInt8 → Str → Option (List UInt8)) : Prop :=
  ∃ d files path spec archive bytes, m.distribution r.distributionName = some d ∧
    d.files = .ok files ∧ ownedFile files r.ownedRelativePath = some ⟨path, some spec⟩ ∧
    m.readBytes r.wheel = .ok archive ∧ member archive r.ownedRelativePath = some bytes ∧
    hashValue spec = unpadded64 (m.sha256 bytes)

/-- SHA-256 tells the imported file from that member. -/
def CollisionFree (m : Machine F) (r : Request)
    (member : List UInt8 → Str → Option (List UInt8)) : Prop :=
  ∀ importPath bytes archive bytes', m.resolve r.importPath = .ok importPath →
    m.readBytes importPath = .ok bytes → m.readBytes r.wheel = .ok archive →
    member archive r.ownedRelativePath = some bytes' → m.sha256 bytes = m.sha256 bytes' →
    bytes = bytes'

/-- Where the check returns, the imported file is that of the wheel exactly if the RECORD on
the disk is, since the wheel itself is never opened. -/
theorem exactWheel_iff [PyFloat F] {copy : Copy} {m : Machine F} {r : Request} {v : Verified F}
    {member : List UInt8 → Str → Option (List UInt8)} (hfree : CollisionFree m r member)
    (h : installedFromExactWheel copy m r = .ok v) :
    FromWheel m r member ↔ RecordsMember m r member := by
  obtain ⟨e, he, -⟩ := installedFromExactWheel_eq_ok.mp h
  constructor
  · rintro ⟨importPath, bytes, archive, himport, hbytes, harchive, hmember⟩
    obtain rfl := Except.ok.inj (himport.symm.trans he.importPath)
    obtain rfl := Except.ok.inj (hbytes.symm.trans he.bytes)
    exact ⟨e.distribution, e.files, e.path, e.spec, archive, e.bytes, he.distribution, he.files,
      he.owned, harchive, hmember, he.digest⟩
  · rintro ⟨d, files, path, spec, archive, bytes, hd, hfiles, howned, harchive, hmember, hspec⟩
    obtain rfl := Option.some.inj (hd.symm.trans he.distribution)
    obtain rfl := Except.ok.inj (hfiles.symm.trans he.files)
    have hline := Option.some.inj (howned.symm.trans he.owned)
    have hsame : spec = e.spec := Option.some.inj (congrArg PackagePath.hash hline)
    -- Base64 loses nothing, so equal RECORD values are equal digests.
    have hdigest : m.sha256 e.bytes = m.sha256 bytes :=
      unpadded64_injective (by rw [← he.digest, ← hsame, hspec])
    have hbytes := hfree e.importPath e.bytes archive bytes he.importPath he.bytes harchive
      hmember hdigest
    exact ⟨e.importPath, e.bytes, archive, he.importPath, he.bytes, harchive, hbytes ▸ hmember⟩

/-! ### An installation of a small wheel -/

/-- The path of the owned file. -/
def samplePath : Str := lit "domain_packs/market_intelligence/manifest.json"

/-- A wheel with this file alone: its header and content, its directory entry, the end. -/
def sampleWheel : List UInt8 :=
  [80, 75, 3, 4, 20, 0, 0, 0, 0, 0, 0, 0, 33, 0, 67, 191, 166, 163, 2, 0, 0, 0, 2, 0, 0, 0, 46, 0,
    0, 0] ++ asciiBytes samplePath ++ asciiBytes (lit "\x7b\x7d") ++
  [80, 75, 1, 2, 20, 3, 20, 0, 0, 0, 0, 0, 0, 0, 33, 0, 67, 191, 166, 163, 2, 0, 0, 0, 2, 0, 0, 0,
    46, 0, 0, 0, 0, 0, 0, 0, 0, 0, 0, 0, 128, 1, 0, 0, 0, 0] ++ asciiBytes samplePath ++
  [80, 75, 5, 6, 0, 0, 0, 0, 1, 0, 1, 0, 92, 0, 0, 0, 78, 0, 0, 0, 0, 0]

/-- The members of this wheel. -/
def sampleMember (archive : List UInt8) (path : Str) : Option (List UInt8) :=
  if archive = sampleWheel ∧ path = samplePath then some (asciiBytes (lit "\x7b\x7d")) else none

/-- SHA-256 on the wheel, on its file and on an edited file. -/
def sampleSha256 (bytes : List UInt8) : List UInt8 :=
  let digest :=
    if bytes = sampleWheel then
      0x644541f2c72e563d50a07db829f470f45e2fc90fc47621f166f14b8918f360a6
    else if bytes = asciiBytes (lit "\x7b\x7d") then
      0x44136fa355b3678a1146ad16f7e8649e94fb4fc21fe77e8310c060f61caaff8a
    else if bytes = asciiBytes (lit "[]") then
      0x4f53cda18c2baa0c0354bb5f9a3ecbe5ed12ab4d8e11ba873c2f11161202b945
    else 0
  (List.range 32).map fun i => UInt8.ofNat (digest / 256 ^ (31 - i))

/-- What the installer has recorded about the wheel. -/
def sampleDirectUrl : Str :=
  lit "\x7b\"archive_info\": \x7b\"hashes\": \x7b\"sha256\": \"" ++
  lit "644541f2c72e563d50a07db829f470f45e2fc90fc47621f166f14b8918f360a6" ++
  lit "\"\x7d\x7d, \"url\": \"file:///w.whl\"\x7d"

/-- The machine after the installation, where the owned file has some content and its RECORD
line some hash. -/
def sampleMachine (content : String) (hash : String) : Machine Unit where
  py := asciiInterpreter
  distribution name :=
    if name = lit "ace-ext-b2b-marketing" then some {
      directUrl := .ok (some sampleDirectUrl)
      files := .ok (some [⟨samplePath, some (lit hash)⟩])
      locateFile := (lit "/site/" ++ ·) }
    else none
  readBytes path :=
    if path = lit "/w.whl" then .ok sampleWheel
    else if path = lit "/site/" ++ samplePath then .ok (asciiBytes (lit content))
    else .error .fileNotFoundError
  resolve := .ok
  urlsplit url := .ok (if url = lit "file:///w.whl" then (lit "file", lit "/w.whl") else ([], url))
  unquote := id
  sha256 := sampleSha256

/-- The request to check the owned file. -/
def sampleRequest : Request where
  distributionName := lit "ace-ext-b2b-marketing"
  wheel := lit "/w.whl"
  importPath := lit "/site/" ++ samplePath
  ownedRelativePath := samplePath

/-- The machine as the installer leaves it. -/
def cleanMachine : Machine Unit :=
  sampleMachine "\x7b\x7d" "sha256=RBNvo1WzZ4oRRq0W9-hknpT7T8If536DEMBg9hyq_4o"

/-- The machine after an edit of the file and of its RECORD line. -/
def editedMachine : Machine Unit :=
  sampleMachine "[]" "sha256=T1PNoYwrqgwDVLtfmj7L5e0Sq02OEbqHPC8RFhICuUU"

/-- Both scripts accept both machines. -/
theorem samples_accepted : ∀ copy ∈ [Copy.p1c2LivePublicSource, .p1d1PreparedBrief],
    (installedFromExactWheel copy cleanMachine sampleRequest).isOk = true ∧
    (installedFromExactWheel copy editedMachine sampleRequest).isOk = true := by
  decide +kernel

/-- The file of the sample, as the check reads it. -/
theorem sampleMachine_bytes {content hash : String} {importPath : Str} {bytes : List UInt8}
    (hpath : (sampleMachine content hash).resolve sampleRequest.importPath = .ok importPath)
    (hbytes : (sampleMachine content hash).readBytes importPath = .ok bytes) :
    bytes = asciiBytes (lit content) := by
  obtain rfl := Except.ok.inj hpath
  exact (Except.ok.inj hbytes).symm

/-- The member of the sample wheel. -/
theorem sampleMachine_member {content hash : String} {archive bytes : List UInt8}
    (harchive : (sampleMachine content hash).readBytes sampleRequest.wheel = .ok archive)
    (hmember : sampleMember archive sampleRequest.ownedRelativePath = some bytes) :
    bytes = asciiBytes (lit "\x7b\x7d") := by
  obtain rfl := Except.ok.inj harchive
  exact (Option.some.inj ((if_pos ⟨rfl, rfl⟩).symm.trans hmember)).symm

/-- The digests of the two files differ. -/
theorem sampleMachine_collisionFree (hash : String) :
    ∀ content ∈ ["\x7b\x7d", "[]"],
      CollisionFree (sampleMachine content hash) sampleRequest sampleMember := by
  intro content hcontent importPath bytes archive bytes' hpath hbytes harchive hmember hdigest
  rw [sampleMachine_bytes hpath hbytes, sampleMachine_member harchive hmember] at hdigest ⊢
  have hall : ∀ content ∈ ["\x7b\x7d", "[]"],
      sampleSha256 (asciiBytes (lit content)) = sampleSha256 (asciiBytes (lit "\x7b\x7d")) →
      asciiBytes (lit content) = asciiBytes (lit "\x7b\x7d") := by decide +kernel
  exact hall content hcontent hdigest

/-- On the machine as the installer leaves it, the check returns and is right. -/
theorem cleanMachine_fromWheel :
    ∃ v, installedFromExactWheel .p1c2LivePublicSource cleanMachine sampleRequest = .ok v ∧
      FromWheel cleanMachine sampleRequest sampleMember := by
  obtain ⟨hclean, -⟩ := samples_accepted _ (.head _)
  obtain ⟨v, hv⟩ := isOk_iff.mp hclean
  refine ⟨v, hv, (exactWheel_iff (sampleMachine_collisionFree _ _ (.head _)) hv).mpr ?_⟩
  exact ⟨_, _, samplePath, _, _, _, rfl, rfl, rfl, rfl, if_pos ⟨rfl, rfl⟩, by decide +kernel⟩

/-- After the edit, both scripts report the edited file as that of the wheel. -/
theorem editedMachine_reported :
    (∃ v, installedFromExactWheel .p1c2LivePublicSource editedMachine sampleRequest = .ok v) ∧
    (∃ v, installedFromExactWheel .p1d1PreparedBrief editedMachine sampleRequest = .ok v) ∧
    CollisionFree editedMachine sampleRequest sampleMember ∧
    ¬ FromWheel editedMachine sampleRequest sampleMember := by
  have hlive := (samples_accepted .p1c2LivePublicSource (.head _)).2
  have hbrief := (samples_accepted .p1d1PreparedBrief (.tail _ (.head _))).2
  refine ⟨isOk_iff.mp hlive, isOk_iff.mp hbrief,
    sampleMachine_collisionFree _ _ (.tail _ (.head _)), ?_⟩
  rintro ⟨importPath, bytes, archive, hpath, hbytes, harchive, hmember⟩
  have hfile := sampleMachine_bytes hpath hbytes
  have hsame := hfile.symm.trans (sampleMachine_member harchive hmember)
  exact absurd hsame (by decide)

end MarketIntelligence.Provenance
