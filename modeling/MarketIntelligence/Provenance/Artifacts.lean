import MarketIntelligence.Provenance.ExactWheel

/-!
# The artifacts of an acceptance run

`main` of `p1d1_prepared_brief_acceptance.py` may be bound to supplied wheels. Then it checks
both archives against their digests, and that the Core modules and the JSON files of the Market
Pack, as RECORD lists them, were installed from these wheels.
-/

namespace MarketIntelligence.Provenance

open Python

/-! ### The verification -/

/-- How the verification ends without a report. -/
inductive Unverified
  /-- An exit of the check of one file. -/
  | exit (e : Exit)
  /-- `parser.error(message)`. -/
  | usage (message : Str)
  /-- `ValueError(message)`. -/
  | invalid (message : Str)
  /-- `StopIteration`. -/
  | stopIteration
  deriving DecidableEq

/-- A computation of the verification. -/
abbrev Verifying (α : Type) : Type := Except (Raised Unverified) α

/-- The check of one file, as a part of the verification. -/
def ofCheck {α : Type} : Checked α → Verifying α
  | .ok a => .ok a
  | .error (.own e) => .error (.own (.exit e))
  | .error (.builtin e) => .error (.builtin e)
  | .error .foreign => .error .foreign

/-- What `main` finds on the machine besides the installed distributions. -/
structure Host (F : Type) extends Machine F where
  /-- `path.is_file()`. -/
  isFile : Str → Except BuiltinError Bool
  /-- `importlib.import_module(name).__file__`. -/
  moduleFile : Str → Verifying Str
  /-- `resources.files("domain_packs.market_intelligence")`, with the paths below it. -/
  packageFiles : Verifying (Str → Str)

/-- The arguments of `main` that the verification reads. -/
structure WheelArguments where
  coreWheel : Option Str
  coreWheelSha256 : Str
  marketWheel : Option Str
  marketWheelSha256 : Option Str

/-- `CORE_WHEEL_SHA256`, the default digest of the Core wheel. -/
def coreWheelSha256 : Str := lit "a7c5be2f8025937fb6e3b7b06ac2f7c67a806110034e610adcd4a88e1b1d1cab"

/-- The report on the Core wheel. -/
structure CoreReport (F : Type) where
  wheel : Str
  wheelSha256 : Str
  modules : List (Str × Verified F)

/-- The report on the Market wheel. -/
structure MarketReport (F : Type) where
  wheel : Str
  wheelSha256 : Str
  recordOwnedJsonCount : ℕ
  p1d1Resources : List Str
  manifest : Verified F

/-- `artifact_verification`. -/
structure ArtifactReport (F : Type) where
  core : CoreReport F
  market : MarketReport F

variable {F : Type}

/-- `_sha256`. -/
def sha256Hex (m : Machine F) (path : Str) : Except BuiltinError Str := do
  return hexText (m.sha256 (← m.readBytes path))

/-- `_verify_supplied_wheel`. -/
def verifySuppliedWheel (m : Host F) (path expected label : Str) : Verifying Unit := do
  if ← ofBuiltin (m.isFile path) then
    let actual ← ofBuiltin (sha256Hex m.toMachine path)
    if actual ≠ expected then
      .error (.own (.invalid (label ++ lit " wheel SHA-256 mismatch: " ++ actual)))
    else .ok ()
  else .error (.own (.invalid (label ++ lit " wheel is missing: " ++ path)))

/-- A loop that collects what it computes for each item. -/
def collect {α β : Type} (f : α → Verifying β) : List α → Verifying (List β)
  | [] => .ok []
  | a :: as => do
      let b ← f a
      return b :: (← collect f as)

/-- The modules of Core that are checked, with their files. -/
def coreModules : List (Str × Str) :=
  [(lit "ace", lit "ace/__init__.py"),
    (lit "ace.application", lit "ace/application/__init__.py"),
    (lit "ace.core", lit "ace/core/__init__.py"),
    (lit "ace.intelligence", lit "ace/intelligence/__init__.py")]

/-- The request for a module of Core. -/
def coreRequest (wheel importPath relativePath : Str) : Request :=
  ⟨lit "ace-core", wheel, importPath, relativePath⟩

variable [PyFloat F]

/-- The check of one module of Core. -/
def verifyModule (m : Host F) (wheel : Str) (file : Str × Str) : Verifying (Str × Verified F) := do
  let importPath ← m.moduleFile file.1
  let verified ← ofCheck (installedFromExactWheel .p1d1PreparedBrief m.toMachine
    (coreRequest wheel importPath file.2))
  return (file.1, verified)

/-- `_verify_installed_core`. -/
def verifyInstalledCore (m : Host F) (wheel : Str) : Verifying (CoreReport F) := do
  let modules ← collect (verifyModule m wheel) coreModules
  return {
    wheel := ← ofBuiltin (m.resolve wheel)
    wheelSha256 := ← ofBuiltin (sha256Hex m.toMachine wheel)
    modules := modules }

/-- The directory of the Market Pack in a distribution. -/
def packPrefix : Str := lit "domain_packs/market_intelligence/"

/-- A JSON file of the Market Pack. -/
def isPackJson (path : Str) : Bool := packPrefix <+: path && lit ".json" <:+ path

/-- An artifact of the acceptance itself. -/
def isP1d1Artifact (path : Str) : Bool :=
  lit "/releases/v0_4_0/conformance/p1d1_" <:+: lit "/" ++ path

/-- The file of the manifest. -/
def manifestPath : Str := lit "domain_packs/market_intelligence/manifest.json"

/-- The request for a file of the Market Pack. -/
def marketRequest (wheel importPath relativePath : Str) : Request :=
  ⟨lit "ace-ext-b2b-marketing", wheel, importPath, relativePath⟩

omit [PyFloat F] in
/-- The JSON files of the Market Pack in a RECORD, sorted. -/
def ownedJson (files : Option (List PackagePath)) : List Str :=
  (((files.getD []).map PackagePath.path).filter isPackJson).insertionSort (· ≤ ·)

/-- The check of one file of the Market Pack. -/
def verifyResource (m : Host F) (wheel : Str) (root : Str → Str) (path : Str) :
    Verifying (Verified F) :=
  ofCheck (installedFromExactWheel .p1d1PreparedBrief m.toMachine
    (marketRequest wheel (root (path.drop packPrefix.length)) path))

/-- The report on the checked files. -/
def marketReport (m : Host F) (wheel : Str) (verified : List (Verified F)) :
    Verifying (MarketReport F) := do
  let p1d1Resources := (verified.map Verified.recordPath).filter isP1d1Artifact
  if p1d1Resources.length ≠ 4 then
    .error (.own (.exit (.systemExit
      (lit "Market wheel does not RECORD-own all four P1D1 JSON artifacts"))))
  else
    let resolved ← ofBuiltin (m.resolve wheel)
    let digest ← ofBuiltin (sha256Hex m.toMachine wheel)
    match verified.find? fun v => v.recordPath = manifestPath with
    | some manifest => return {
        wheel := resolved
        wheelSha256 := digest
        recordOwnedJsonCount := verified.length
        p1d1Resources := p1d1Resources
        manifest := manifest }
    | none => .error (.own .stopIteration)

/-- `_verify_installed_market`. -/
def verifyInstalledMarket (m : Host F) (wheel : Str) : Verifying (MarketReport F) :=
  match m.distribution (lit "ace-ext-b2b-marketing") with
  | none => .error (.own (.exit (.packageNotFound (lit "ace-ext-b2b-marketing"))))
  | some d => do
      let owned := ownedJson (← ofBuiltin d.files)
      if owned.length ≠ 25 then
        .error (.own (.exit (.systemExit
          (lit "ace-ext-b2b-marketing must RECORD-own exactly 25 Market JSON files"))))
      else
        let root ← m.packageFiles
        let verified ← collect (verifyResource m wheel root) owned
        marketReport m wheel verified

/-- The verification in `main`: of both wheels, if one is supplied. -/
def artifactVerification (m : Host F) (a : WheelArguments) :
    Verifying (Option (ArtifactReport F)) :=
  match a.coreWheel, a.marketWheel with
  | none, none => .ok none
  | some core, some market => do
      verifySuppliedWheel m core a.coreWheelSha256 (lit "Core")
      match a.marketWheelSha256 with
      | none => .error (.own (.usage
          (lit "--market-wheel-sha256 is required with --market-wheel")))
      | some sha256 =>
          verifySuppliedWheel m market sha256 (lit "Market")
          return some {
            core := ← verifyInstalledCore m core
            market := ← verifyInstalledMarket m market }
  | _, _ => .error (.own (.usage
      (lit "--core-wheel and --market-wheel are required together for artifact-bound acceptance")))

/-! ### What the verification establishes -/

/-- A check returns as a part of the verification exactly if it returns. -/
@[simp] theorem ofCheck_eq_ok {α : Type} {x : Checked α} {a : α} :
    ofCheck x = .ok a ↔ x = .ok a := by
  cases x with
  | ok b => simp [ofCheck]
  | error e => cases e <;> simp [ofCheck]

/-- A loop returns exactly if its body returns for each item. -/
theorem collect_eq_ok {α β : Type} {f : α → Verifying β} {as : List α} {bs : List β} :
    collect f as = .ok bs ↔ List.Forall₂ (fun a b => f a = .ok b) as bs := by
  induction as generalizing bs with
  | nil =>
    rw [collect, List.forall₂_nil_left_iff, Except.ok.injEq]
    exact eq_comm
  | cons a as ih =>
    simp only [collect, bind_eq_ok, ih, List.forall₂_cons_left_iff, pure_eq_ok, Except.ok.injEq]
    constructor
    · rintro ⟨b, hb, rest, hrest, rfl⟩
      exact ⟨b, rest, hb, hrest, rfl⟩
    · rintro ⟨b, rest, hb, hrest, rfl⟩
      exact ⟨b, hb, rest, hrest, rfl⟩

omit [PyFloat F] in
/-- The digest of a file that can be read. -/
@[simp] theorem sha256Hex_eq_ok {m : Machine F} {path digest : Str} :
    sha256Hex m path = .ok digest ↔
      ∃ bytes, m.readBytes path = .ok bytes ∧ hexText (m.sha256 bytes) = digest := by
  simp only [sha256Hex, bind_eq_ok, pure_eq_ok, Except.ok.injEq]

/-- A supplied wheel is a file with the expected digest. -/
structure Supplied (m : Host F) (path digest : Str) : Prop where
  isFile : m.isFile path = .ok true
  digest : sha256Hex m.toMachine path = .ok digest

omit [PyFloat F] in
/-- The gate on a supplied wheel. -/
theorem verifySuppliedWheel_eq_ok {m : Host F} {path expected label : Str} :
    verifySuppliedWheel m path expected label = .ok () ↔ Supplied m path expected := by
  constructor
  · intro h
    obtain ⟨there, hthere, h⟩ := bind_eq_ok.mp h
    cases there with
    | false => cases h
    | true =>
      obtain ⟨actual, hactual, h⟩ := bind_eq_ok.mp h
      split at h
      · cases h
      · next hsame =>
        obtain rfl := not_not.mp hsame
        exact ⟨ofBuiltin_eq_ok.mp hthere, ofBuiltin_eq_ok.mp hactual⟩
  · rintro ⟨hthere, hdigest⟩
    simp [verifySuppliedWheel, hthere, hdigest, ofBuiltin]

/-- A report on an accepted file. -/
def Reports (m : Host F) (r : Request) (v : Verified F) : Prop :=
  ∃ e, Accepted m.toMachine r e ∧ v = e.report m.toMachine r

/-- The report names the checked file and the digest of the wheel. -/
theorem Reports.parts {m : Host F} {r : Request} {v : Verified F} (h : Reports m r v) :
    v.recordPath = r.ownedRelativePath ∧ v.distribution = r.distributionName ∧
      sha256Hex m.toMachine r.wheel = .ok v.wheelSha256 ∧
      v.installedArchiveSha256 = .str v.wheelSha256 := by
  obtain ⟨e, he, rfl⟩ := h
  exact ⟨rfl, rfl, sha256Hex_eq_ok.mpr ⟨e.archive, he.archive, rfl⟩, rfl⟩

/-- The Core wheel is installed: each of the modules is a file of it. -/
structure CoreInstalled (m : Host F) (wheel : Str) (report : CoreReport F) : Prop where
  modules : List.Forall₂ (fun file named => file.1 = named.1 ∧ ∃ importPath,
    m.moduleFile file.1 = .ok importPath ∧
      Reports m (coreRequest wheel importPath file.2) named.2) coreModules report.modules
  resolved : m.resolve wheel = .ok report.wheel
  digest : sha256Hex m.toMachine wheel = .ok report.wheelSha256

/-- The check of Core returns exactly if it is installed. -/
theorem verifyInstalledCore_eq_ok {m : Host F} {wheel : Str} {report : CoreReport F} :
    verifyInstalledCore m wheel = .ok report ↔ CoreInstalled m wheel report := by
  have hmodule (file : Str × Str) (named : Str × Verified F) :
      verifyModule m wheel file = .ok named ↔ file.1 = named.1 ∧ ∃ importPath,
        m.moduleFile file.1 = .ok importPath ∧
          Reports m (coreRequest wheel importPath file.2) named.2 := by
    obtain ⟨name, v⟩ := named
    simp only [verifyModule, bind_eq_ok, ofCheck_eq_ok, installedFromExactWheel_eq_ok, pure_eq_ok,
      Except.ok.injEq, Prod.mk.injEq, Reports]
    constructor
    · rintro ⟨importPath, himport, _, hreports, hname, rfl⟩
      exact ⟨hname, importPath, himport, hreports⟩
    · rintro ⟨hname, importPath, himport, hreports⟩
      exact ⟨importPath, himport, v, hreports, hname, rfl⟩
  simp only [verifyInstalledCore, bind_eq_ok, collect_eq_ok, hmodule, ofBuiltin_eq_ok, pure_eq_ok,
    Except.ok.injEq]
  constructor
  · rintro ⟨modules, hmodules, resolved, hwheel, digest, hdigest, rfl⟩
    exact ⟨hmodules, hwheel, hdigest⟩
  · rintro ⟨hmodules, hwheel, hdigest⟩
    exact ⟨_, hmodules, _, hwheel, _, hdigest, rfl⟩

/-- A file has one report. -/
theorem Reports.unique {m : Host F} {r : Request} {v w : Verified F} (hv : Reports m r v)
    (hw : Reports m r w) : v = w := by
  have hfirst : installedFromExactWheel .p1d1PreparedBrief m.toMachine r = .ok v :=
    installedFromExactWheel_eq_ok.mpr hv
  have hsecond : installedFromExactWheel .p1d1PreparedBrief m.toMachine r = .ok w :=
    installedFromExactWheel_eq_ok.mpr hw
  exact Except.ok.inj (hfirst.symm.trans hsecond)

/-- The rows of a RECORD. -/
def rows (files : Option (List PackagePath)) : List PackagePath := files.getD []

/-- The sorted paths are those of the rows. -/
theorem ownedJson_perm (files : Option (List PackagePath)) :
    (ownedJson files).Perm (((rows files).map PackagePath.path).filter isPackJson) :=
  List.perm_insertionSort _ _

/-- A path is checked exactly if a row has it and it is a JSON file of the Pack. -/
theorem mem_ownedJson {files : Option (List PackagePath)} {path : Str} :
    path ∈ ownedJson files ↔ isPackJson path = true ∧ ∃ row ∈ rows files, row.path = path := by
  rw [(ownedJson_perm files).mem_iff, List.mem_filter, List.mem_map, and_comm]

/-- As many paths are checked as rows are JSON files of the Pack. -/
theorem length_ownedJson (files : Option (List PackagePath)) :
    (ownedJson files).length = (rows files).countP fun row => isPackJson row.path := by
  rw [(ownedJson_perm files).length_eq, ← List.countP_eq_length_filter, List.countP_map]
  rfl

/-- As many artifacts of the acceptance are reported as rows are such. -/
theorem length_artifacts (files : Option (List PackagePath)) :
    ((ownedJson files).filter isP1d1Artifact).length =
      (rows files).countP fun row => isP1d1Artifact row.path && isPackJson row.path := by
  rw [((ownedJson_perm files).filter _).length_eq, List.filter_filter,
    ← List.countP_eq_length_filter, List.countP_map]
  rfl

/-- Where every item has a counterpart, the list has one. -/
theorem exists_forall₂ {α β : Type} {R : α → β → Prop} {as : List α}
    (h : ∀ a ∈ as, ∃ b, R a b) : ∃ bs, List.Forall₂ R as bs := by
  induction as with
  | nil => exact ⟨[], .nil⟩
  | cons a as ih =>
    obtain ⟨⟨b, hb⟩, hrest⟩ := List.forall_mem_cons.mp h
    obtain ⟨bs, hbs⟩ := ih hrest
    exact ⟨b :: bs, .cons hb hbs⟩

/-- Every counterpart belongs to an item. -/
theorem exists_of_forall₂ {α β : Type} {R : α → β → Prop} {as : List α} {bs : List β}
    (h : List.Forall₂ R as bs) : ∀ b ∈ bs, ∃ a ∈ as, R a b := by
  induction h with
  | nil => simp
  | @cons a b as bs hab _ ih =>
    refine List.forall_mem_cons.mpr ⟨⟨a, by simp, hab⟩, fun c hc => ?_⟩
    obtain ⟨d, hd, hdc⟩ := ih c hc
    exact ⟨d, List.mem_cons_of_mem a hd, hdc⟩

/-- The request for a row below the files of the package. -/
def rowRequest (wheel : Str) (root : Str → Str) (path : Str) : Request :=
  marketRequest wheel (root (path.drop packPrefix.length)) path

/-- The Market wheel is installed: of the rows of RECORD, 25 are JSON files of the Pack, 4 of
them artifacts of the acceptance and one the manifest, and each of them is a file of the wheel. -/
structure MarketInstalled (m : Host F) (wheel : Str) (files : Option (List PackagePath))
    (root : Str → Str) (report : MarketReport F) : Prop where
  distribution : ∃ d, m.distribution (lit "ace-ext-b2b-marketing") = some d ∧
    d.files = .ok files
  packageFiles : m.packageFiles = .ok root
  owned : (rows files).countP (fun row => isPackJson row.path) = 25
  artifacts : (rows files).countP
    (fun row => isP1d1Artifact row.path && isPackJson row.path) = 4
  manifestRow : ∃ row ∈ rows files, row.path = manifestPath
  accepted : ∀ row ∈ rows files, isPackJson row.path = true →
    ∃ v, Reports m (rowRequest wheel root row.path) v
  resolved : m.resolve wheel = .ok report.wheel
  digest : sha256Hex m.toMachine wheel = .ok report.wheelSha256
  count : report.recordOwnedJsonCount = 25
  p1d1Resources : report.p1d1Resources = (ownedJson files).filter isP1d1Artifact
  manifest : Reports m (rowRequest wheel root manifestPath) report.manifest

/-- The reports on a list of paths name these paths. -/
theorem recordPaths_of_reports {m : Host F} {wheel : Str} {root : Str → Str} {paths : List Str}
    {vs : List (Verified F)}
    (h : List.Forall₂ (fun path v => Reports m (rowRequest wheel root path) v) paths vs) :
    vs.map Verified.recordPath = paths := by
  induction h with
  | nil => rfl
  | cons hv _ ih => rw [List.map_cons, ih, hv.parts.1, rowRequest, marketRequest]

/-- What is found among the reports for a path that is there. -/
theorem find_report {m : Host F} {wheel path : Str} {root : Str → Str} {paths : List Str}
    {vs : List (Verified F)}
    (h : List.Forall₂ (fun path v => Reports m (rowRequest wheel root path) v) paths vs)
    (hpath : path ∈ paths) : ∃ v, vs.find? (fun v => v.recordPath = path) = some v ∧
      Reports m (rowRequest wheel root path) v := by
  induction h with
  | nil => cases hpath
  | @cons first v paths vs hv hrest ih =>
    have hname : v.recordPath = first := hv.parts.1
    by_cases hsame : first = path
    · exact ⟨v, List.find?_cons_of_pos (by simpa using hname.trans hsame), hsame ▸ hv⟩
    · obtain ⟨w, hw, hreports⟩ := ih ((List.mem_cons.mp hpath).resolve_left (Ne.symm hsame))
      refine ⟨w, ?_, hreports⟩
      rw [List.find?_cons_of_neg (by simpa [hname] using hsame), hw]

/-- The report on a list of checked files. -/
theorem marketReport_eq_ok {m : Host F} {wheel : Str} {root : Str → Str} {paths : List Str}
    {vs : List (Verified F)} {report : MarketReport F}
    (h : List.Forall₂ (fun path v => Reports m (rowRequest wheel root path) v) paths vs) :
    marketReport m wheel vs = .ok report ↔ (paths.filter isP1d1Artifact).length = 4 ∧
      manifestPath ∈ paths ∧ m.resolve wheel = .ok report.wheel ∧
      sha256Hex m.toMachine wheel = .ok report.wheelSha256 ∧
      report.recordOwnedJsonCount = paths.length ∧
      report.p1d1Resources = paths.filter isP1d1Artifact ∧
      Reports m (rowRequest wheel root manifestPath) report.manifest := by
  have hpaths := recordPaths_of_reports h
  have hlength := h.length_eq
  unfold marketReport
  rw [hpaths]
  by_cases hfour : (paths.filter isP1d1Artifact).length = 4
  · simp only [hfour, ne_eq, not_true_eq_false, if_false, bind_eq_ok, ofBuiltin_eq_ok, true_and]
    constructor
    · rintro ⟨resolved, hresolved, digest, hdigest, hreport⟩
      split at hreport
      · next manifest hmanifest =>
        obtain rfl := Except.ok.inj hreport
        have hthere : manifestPath ∈ paths := by
          rw [← hpaths]
          have hfound := List.find?_some hmanifest
          exact List.mem_map.mpr
            ⟨manifest, List.mem_of_find?_eq_some hmanifest, by simpa using hfound⟩
        obtain ⟨v, hv, hreports⟩ := find_report h hthere
        obtain rfl := Option.some.inj (hmanifest.symm.trans hv)
        exact ⟨hthere, hresolved, hdigest, hlength.symm, rfl, hreports⟩
      · cases hreport
    · rintro ⟨hthere, hresolved, hdigest, hcount, hresources, hmanifest⟩
      obtain ⟨v, hv, hreports⟩ := find_report h hthere
      refine ⟨_, hresolved, _, hdigest, ?_⟩
      rw [hv]
      obtain ⟨wheel', digest, count, resources, manifest⟩ := report
      dsimp only at hcount hresources hmanifest ⊢
      rw [hreports.unique hmanifest, hcount, hresources, hlength]
      rfl
  · simp [hfour]

/-- The check of the Market Pack returns exactly if it is installed. -/
theorem verifyInstalledMarket_eq_ok {m : Host F} {wheel : Str} {report : MarketReport F} :
    verifyInstalledMarket m wheel = .ok report ↔
      ∃ files root, MarketInstalled m wheel files root report := by
  have hresource (root : Str → Str) (path : Str) (v : Verified F) :
      verifyResource m wheel root path = .ok v ↔ Reports m (rowRequest wheel root path) v := by
    rw [verifyResource, ofCheck_eq_ok, installedFromExactWheel_eq_ok]
    rfl
  constructor
  · intro h
    unfold verifyInstalledMarket at h
    split at h
    · cases h
    next d hd =>
    obtain ⟨files, hfiles, h⟩ := bind_eq_ok.mp h
    dsimp only at h
    split at h
    · cases h
    next hcount =>
    have hcount : (ownedJson files).length = 25 := not_not.mp hcount
    obtain ⟨root, hroot, h⟩ := bind_eq_ok.mp h
    obtain ⟨vs, hvs, h⟩ := bind_eq_ok.mp h
    have hreports : List.Forall₂ (fun path v => Reports m (rowRequest wheel root path) v)
        (ownedJson files) vs := (collect_eq_ok.mp hvs).imp fun path v => (hresource root path v).mp
    obtain ⟨hfour, hmanifest, hresolved, hdigest, hlength, hresources, hreport⟩ :=
      (marketReport_eq_ok hreports).mp h
    refine ⟨files, root, {
      distribution := ⟨d, hd, ofBuiltin_eq_ok.mp hfiles⟩
      packageFiles := hroot
      owned := length_ownedJson files ▸ hcount
      artifacts := length_artifacts files ▸ hfour
      manifestRow := (mem_ownedJson.mp hmanifest).2
      accepted := fun row hrow hjson => ?_
      resolved := hresolved
      digest := hdigest
      count := hlength.trans hcount
      p1d1Resources := hresources
      manifest := hreport }⟩
    obtain ⟨v, -, hv⟩ := find_report hreports (mem_ownedJson.mpr ⟨hjson, row, hrow, rfl⟩)
    exact ⟨v, hv⟩
  · rintro ⟨files, root, h⟩
    obtain ⟨d, hd, hfiles⟩ := h.distribution
    have hcount : (ownedJson files).length = 25 := (length_ownedJson files).trans h.owned
    obtain ⟨vs, hvs⟩ : ∃ vs, List.Forall₂
        (fun path v => Reports m (rowRequest wheel root path) v) (ownedJson files) vs := by
      refine exists_forall₂ fun path hpath => ?_
      obtain ⟨hjson, row, hrow, rfl⟩ := mem_ownedJson.mp hpath
      exact h.accepted row hrow hjson
    have hreport := (marketReport_eq_ok hvs).mpr ⟨(length_artifacts files).trans h.artifacts,
      mem_ownedJson.mpr ⟨by decide, h.manifestRow⟩, h.resolved, h.digest,
      h.count.trans hcount.symm, h.p1d1Resources, h.manifest⟩
    have hcollect : collect (verifyResource m wheel root) (ownedJson files) = .ok vs :=
      collect_eq_ok.mpr (hvs.imp fun path v => (hresource root path v).mpr)
    simp [verifyInstalledMarket, hd, hfiles, hcount, h.packageFiles, hcollect, hreport, ofBuiltin]

/-- Both wheels were supplied with their digests, and are installed. -/
structure Attested (m : Host F) (a : WheelArguments) (core market sha256 : Str)
    (files : Option (List PackagePath)) (root : Str → Str) (report : ArtifactReport F) :
    Prop where
  coreWheel : a.coreWheel = some core
  marketWheel : a.marketWheel = some market
  marketSha256 : a.marketWheelSha256 = some sha256
  coreSupplied : Supplied m core a.coreWheelSha256
  marketSupplied : Supplied m market sha256
  coreInstalled : CoreInstalled m core report.core
  marketInstalled : MarketInstalled m market files root report.market

/-- All reports are about the supplied digests. -/
structure OfDigests (a : WheelArguments) (report : ArtifactReport F) : Prop where
  core : report.core.wheelSha256 = a.coreWheelSha256
  modules : ∀ named ∈ report.core.modules, named.2.wheelSha256 = a.coreWheelSha256 ∧
    named.2.installedArchiveSha256 = .str a.coreWheelSha256
  market : a.marketWheelSha256 = some report.market.wheelSha256
  manifest : report.market.manifest.wheelSha256 = report.market.wheelSha256 ∧
    report.market.manifest.installedArchiveSha256 = .str report.market.wheelSha256

omit [PyFloat F] in
/-- A file has one digest. -/
theorem sha256Hex_unique {m : Machine F} {path s t : Str} (hs : sha256Hex m path = .ok s)
    (ht : sha256Hex m path = .ok t) : s = t := Except.ok.inj (hs.symm.trans ht)

/-- What is attested, is attested of the supplied digests. -/
theorem Attested.ofDigests {m : Host F} {a : WheelArguments} {core market sha256 : Str}
    {files : Option (List PackagePath)} {root : Str → Str} {report : ArtifactReport F}
    (h : Attested m a core market sha256 files root report) : OfDigests a report where
  core := sha256Hex_unique h.coreInstalled.digest h.coreSupplied.digest
  modules := by
    intro named hnamed
    obtain ⟨file, -, -, importPath, -, hreports⟩ :=
      exists_of_forall₂ h.coreInstalled.modules named hnamed
    obtain ⟨-, -, hdigest, harchive⟩ := hreports.parts
    have hsame := sha256Hex_unique hdigest h.coreSupplied.digest
    exact ⟨hsame, hsame ▸ harchive⟩
  market := by
    rw [h.marketSha256, sha256Hex_unique h.marketInstalled.digest h.marketSupplied.digest]
  manifest := by
    obtain ⟨-, -, hdigest, harchive⟩ := h.marketInstalled.manifest.parts
    have hsame := sha256Hex_unique hdigest h.marketInstalled.digest
    exact ⟨hsame, hsame ▸ harchive⟩

/-- The verification in `main` gives a report exactly if both wheels are attested. -/
theorem artifactVerification_eq_some {m : Host F} {a : WheelArguments}
    {report : ArtifactReport F} : artifactVerification m a = .ok (some report) ↔
      ∃ core market sha256 files root, Attested m a core market sha256 files root report := by
  constructor
  · intro h
    unfold artifactVerification at h
    split at h
    · cases h
    · next core market hcore hmarket =>
      obtain ⟨⟨⟩, hcoreSupplied, h⟩ := bind_eq_ok.mp h
      split at h
      · cases h
      · next sha256 hsha256 =>
        obtain ⟨⟨⟩, hmarketSupplied, h⟩ := bind_eq_ok.mp h
        obtain ⟨coreReport, hcoreReport, h⟩ := bind_eq_ok.mp h
        obtain ⟨marketReport, hmarketReport, h⟩ := bind_eq_ok.mp h
        obtain rfl := Option.some.inj (Except.ok.inj h)
        obtain ⟨files, root, hinstalled⟩ := verifyInstalledMarket_eq_ok.mp hmarketReport
        exact ⟨core, market, sha256, files, root, hcore, hmarket, hsha256,
          verifySuppliedWheel_eq_ok.mp hcoreSupplied,
          verifySuppliedWheel_eq_ok.mp hmarketSupplied,
          verifyInstalledCore_eq_ok.mp hcoreReport, hinstalled⟩
    · cases h
  · rintro ⟨core, market, sha256, files, root, h⟩
    have hcore := verifyInstalledCore_eq_ok.mpr h.coreInstalled
    have hmarket := verifyInstalledMarket_eq_ok.mpr ⟨files, root, h.marketInstalled⟩
    unfold artifactVerification
    rw [h.coreWheel, h.marketWheel, h.marketSha256]
    dsimp only
    rw [verifySuppliedWheel_eq_ok.mpr h.coreSupplied,
      verifySuppliedWheel_eq_ok.mpr h.marketSupplied, hcore, hmarket]
    rfl

/-- The verification in `main` reports exactly if both wheels were supplied with their digests and
are installed, and passes without a report exactly if no wheel was supplied. All its reports are
about the supplied digests. -/
theorem artifactVerification_returns_iff {m : Host F} {a : WheelArguments} :
    (artifactVerification m a = .ok none ↔ a.coreWheel = none ∧ a.marketWheel = none) ∧
    ∀ report, (artifactVerification m a = .ok (some report) ↔
      ∃ core market sha256 files root, Attested m a core market sha256 files root report) ∧
      (artifactVerification m a = .ok (some report) → OfDigests a report) := by
  refine ⟨?_, fun report => ⟨artifactVerification_eq_some, fun h => ?_⟩⟩
  · constructor
    · intro h
      unfold artifactVerification at h
      split at h
      · next hcore hmarket => exact ⟨hcore, hmarket⟩
      · -- With both wheels there is a report, or nothing is returned.
        obtain ⟨⟨⟩, -, h⟩ := bind_eq_ok.mp h
        split at h
        · cases h
        · obtain ⟨⟨⟩, -, h⟩ := bind_eq_ok.mp h
          obtain ⟨_, -, h⟩ := bind_eq_ok.mp h
          obtain ⟨_, -, h⟩ := bind_eq_ok.mp h
          cases h
      · cases h
    · rintro ⟨hcore, hmarket⟩
      rw [artifactVerification, hcore, hmarket]
  · obtain ⟨core, market, sha256, files, root, hattested⟩ := artifactVerification_eq_some.mp h
    exact hattested.ofDigests

/-! ### The order of RECORD -/

/-- The host with other rows in the RECORD of the Market Pack. -/
def Host.withRows (m : Host F) (rows : List PackagePath) : Host F :=
  { m with
    distribution := fun name =>
      if name = lit "ace-ext-b2b-marketing" then
        (m.distribution name).map fun d => { d with files := .ok (some rows) }
      else m.distribution name }

omit [PyFloat F] in
/-- A path is owned by its only row. -/
theorem ownedFile_eq_some {rows : List PackagePath} (h : (rows.map PackagePath.path).Nodup)
    {path : Str} {row : PackagePath} :
    ownedFile (some rows) path = some row ↔ row ∈ rows ∧ row.path = path := by
  unfold ownedFile
  constructor
  · intro hrow
    have hfound := List.find?_some hrow
    exact ⟨List.mem_reverse.mp (List.mem_of_find?_eq_some hrow), by simpa using hfound⟩
  · rintro ⟨hrow, rfl⟩
    obtain ⟨other, hother⟩ : ∃ other,
        rows.reverse.find? (fun file => file.path = row.path) = some other := by
      rw [← Option.isSome_iff_exists, List.find?_isSome]
      exact ⟨row, List.mem_reverse.mpr hrow, by simp⟩
    have hpath : other.path = row.path := by simpa using List.find?_some hother
    have hmem := List.mem_reverse.mp (List.mem_of_find?_eq_some hother)
    rwa [List.inj_on_of_nodup_map h hmem hrow hpath] at hother

omit [PyFloat F] in
/-- In any order, distinct rows own the same paths. -/
theorem ownedFile_perm {rows others : List PackagePath} (hperm : rows.Perm others)
    (hdistinct : (rows.map PackagePath.path).Nodup) (path : Str) :
    ownedFile (some rows) path = ownedFile (some others) path := by
  have hothers := (hperm.map PackagePath.path).nodup_iff.mp hdistinct
  refine Option.ext fun row => ?_
  rw [ownedFile_eq_some hdistinct, ownedFile_eq_some hothers, hperm.mem_iff]

/-- In any order, distinct rows give the same check of a file. -/
theorem installedFromExactWheel_perm {m : Host F} {rows others : List PackagePath}
    (hperm : rows.Perm others) (hdistinct : (rows.map PackagePath.path).Nodup) (copy : Copy)
    (r : Request) :
    installedFromExactWheel copy (m.withRows rows).toMachine r =
      installedFromExactWheel copy (m.withRows others).toMachine r := by
  have hrecord (d : Distribution) :
      checkRecord (m.withRows rows).toMachine r { d with files := .ok (some rows) } =
        checkRecord (m.withRows others).toMachine r { d with files := .ok (some others) } := by
    unfold checkRecord
    dsimp only [ofBuiltin, bind, Except.bind]
    rw [ownedFile_perm hperm hdistinct]
    rfl
  unfold installedFromExactWheel
  by_cases hname : r.distributionName = lit "ace-ext-b2b-marketing"
  · cases hd : m.distribution (lit "ace-ext-b2b-marketing") with
    | none => simp [Host.withRows, hname, hd]
    | some d =>
      have hd' (rows : List PackagePath) : (m.withRows rows).distribution r.distributionName =
          some { d with files := .ok (some rows) } := by
        simp [Host.withRows, hname, hd]
      simp only [hd', hrecord]
      rfl
  · have hother (rows : List PackagePath) : (m.withRows rows).distribution r.distributionName =
        m.distribution r.distributionName := by simp [Host.withRows, hname]
    simp only [hother]
    rfl

omit [PyFloat F] in
/-- The sorted paths do not depend on the order of the rows. -/
theorem ownedJson_eq_of_perm {rows others : List PackagePath} (hperm : rows.Perm others) :
    ownedJson (some rows) = ownedJson (some others) := by
  have hpaths : (ownedJson (some rows)).Perm (ownedJson (some others)) :=
    ((ownedJson_perm (some rows)).trans ((hperm.map _).filter _)).trans
      (ownedJson_perm (some others)).symm
  exact hpaths.eq_of_pairwise' (List.pairwise_insertionSort _ _) (List.pairwise_insertionSort _ _)

/-- The verification does not depend on the order in which RECORD lists distinct files: it
gives the same report, or ends with the same exception. -/
theorem artifactVerification_perm {m : Host F} {a : WheelArguments}
    {rows others : List PackagePath} (hperm : rows.Perm others)
    (hdistinct : (rows.map PackagePath.path).Nodup) :
    artifactVerification (m.withRows rows) a = artifactVerification (m.withRows others) a := by
  have hmodule (wheel : Str) :
      verifyModule (m.withRows rows) wheel = verifyModule (m.withRows others) wheel := by
    funext file
    simp only [verifyModule, installedFromExactWheel_perm hperm hdistinct]
    rfl
  have hresource (wheel : Str) (root : Str → Str) :
      verifyResource (m.withRows rows) wheel root =
        verifyResource (m.withRows others) wheel root := by
    funext path
    simp only [verifyResource, installedFromExactWheel_perm hperm hdistinct]
  have hcore (wheel : Str) : verifyInstalledCore (m.withRows rows) wheel =
      verifyInstalledCore (m.withRows others) wheel := by
    simp only [verifyInstalledCore, hmodule]
    rfl
  have hmarket (wheel : Str) : verifyInstalledMarket (m.withRows rows) wheel =
      verifyInstalledMarket (m.withRows others) wheel := by
    unfold verifyInstalledMarket
    cases hd : m.distribution (lit "ace-ext-b2b-marketing") with
    | none => simp [Host.withRows, hd]
    | some d =>
      have hd' (rows : List PackagePath) :
          (m.withRows rows).distribution (lit "ace-ext-b2b-marketing") =
            some { d with files := .ok (some rows) } := by
        simp [Host.withRows, hd]
      simp only [hd', ofBuiltin, bind, Except.bind, ownedJson_eq_of_perm hperm, hresource]
      rfl
  unfold artifactVerification
  simp only [hcore, hmarket]
  rfl

/-! ### Two installed distributions -/

/-- A row of the sample, of a file with the content of the sample. -/
def sampleRow (path : Str) : PackagePath :=
  ⟨path, some (lit "sha256=RBNvo1WzZ4oRRq0W9-hknpT7T8If536DEMBg9hyq_4o")⟩

/-- The rows of the Market Pack in the sample. -/
def sampleRows : List PackagePath :=
  ([manifestPath] ++
    (List.range 4).map (fun i => packPrefix ++ lit "releases/v0_4_0/conformance/p1d1_" ++
      chr (0x61 + i) :: lit ".json") ++
    (List.range 20).map (fun i => packPrefix ++ chr (0x61 + i) :: lit ".json")).map sampleRow

/-- A distribution of the sample, installed from the small wheel. -/
def sampleDistribution (rows : List PackagePath) : Distribution where
  directUrl := .ok (some sampleDirectUrl)
  files := .ok (some rows)
  locateFile := (lit "/site/" ++ ·)

/-- A host on which both wheels are installed, with the same content in all their files. -/
def sampleHost : Host Unit where
  py := asciiInterpreter
  distribution name :=
    if name = lit "ace-core" then
      some (sampleDistribution (coreModules.map fun file => sampleRow file.2))
    else if name = lit "ace-ext-b2b-marketing" then some (sampleDistribution sampleRows)
    else none
  readBytes path :=
    if path = lit "/w.whl" then .ok sampleWheel else .ok (asciiBytes (lit "\x7b\x7d"))
  resolve := .ok
  urlsplit url := .ok (if url = lit "file:///w.whl" then (lit "file", lit "/w.whl") else ([], url))
  unquote := id
  sha256 := sampleSha256
  isFile path := .ok (path = lit "/w.whl")
  moduleFile name :=
    match coreModules.find? fun file => file.1 = name with
    | some file => .ok (lit "/site/" ++ file.2)
    | none => .error .foreign
  packageFiles := .ok fun path => lit "/site/" ++ packPrefix ++ path

/-- The arguments of the sample. -/
def sampleArguments : WheelArguments where
  coreWheel := some (lit "/w.whl")
  coreWheelSha256 := lit "644541f2c72e563d50a07db829f470f45e2fc90fc47621f166f14b8918f360a6"
  marketWheel := some (lit "/w.whl")
  marketWheelSha256 :=
    some (lit "644541f2c72e563d50a07db829f470f45e2fc90fc47621f166f14b8918f360a6")

/-- The sample is reported, and in the same way with the rows of RECORD in reverse. -/
theorem sampleHost_reported : ∃ report,
    artifactVerification (sampleHost.withRows sampleRows) sampleArguments = .ok (some report) ∧
    artifactVerification (sampleHost.withRows sampleRows.reverse) sampleArguments =
      .ok (some report) := by
  have hreports : (artifactVerification (sampleHost.withRows sampleRows)
      sampleArguments).toOption.join.isSome = true := by decide +kernel
  have hdistinct : (sampleRows.map PackagePath.path).Nodup := by decide +kernel
  have hsame : artifactVerification (sampleHost.withRows sampleRows) sampleArguments =
      artifactVerification (sampleHost.withRows sampleRows.reverse) sampleArguments :=
    artifactVerification_perm (List.reverse_perm sampleRows).symm hdistinct
  cases hresult : artifactVerification (sampleHost.withRows sampleRows) sampleArguments with
  | error e =>
    rw [hresult] at hreports
    cases hreports
  | ok found =>
    cases found with
    | none =>
      rw [hresult] at hreports
      cases hreports
    | some report => exact ⟨report, rfl, hsame.symm.trans hresult⟩

end MarketIntelligence.Provenance
