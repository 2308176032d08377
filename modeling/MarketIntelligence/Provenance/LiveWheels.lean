import MarketIntelligence.Provenance.Artifacts

/-!
# The wheels of the live acceptance

`main` of `p1c2_live_public_source_acceptance.py` is always bound to three supplied wheels: those
of Core and of the adapter have pinned digests. It checks one file of each distribution with its
own copy of the check, so that its report on Core and on Market can be compared with the one of
the prepared acceptance.
-/

namespace MarketIntelligence.Provenance

open Python

/-- `EXACT_CORE_WHEEL_SHA256`. -/
def exactCoreWheelSha256 : Str :=
  lit "a7c5be2f8025937fb6e3b7b06ac2f7c67a806110034e610adcd4a88e1b1d1cab"

/-- `EXACT_ADAPTER_WHEEL_SHA256`. -/
def exactAdapterWheelSha256 : Str :=
  lit "6e1cc3c710e7a1e9d8d464a356cadb1c41ea5663dacf57041943456594671c99"

/-- The arguments of `main` that the verification reads. -/
structure LiveArguments where
  coreWheel : Str
  adapterWheel : Str
  marketWheel : Str
  marketWheelSha256 : Str

/-- `verification`. -/
structure LiveReport (F : Type) where
  core : Verified F
  adapter : Verified F
  market : Verified F

variable {F : Type}

/-- `_verify_wheel`. -/
def verifyWheel (m : Host F) (path expected name : Str) : Verifying Unit := do
  let actual ← ofBuiltin (sha256Hex m.toMachine path)
  if actual ≠ expected then
    .error (.own (.exit (.systemExit (name ++ lit " wheel SHA-256 mismatch: " ++ actual))))
  else .ok ()

/-- The package of the adapter. -/
def adapterModule : Str := lit "ace_market_public_product_source"

/-- The request for the package of the adapter. -/
def adapterRequest (wheel importPath : Str) : Request :=
  ⟨lit "ace-market-public-product-source", wheel, importPath,
    lit "ace_market_public_product_source/__init__.py"⟩

variable [PyFloat F]

/-- The verification in `main`. -/
def liveVerification (m : Host F) (a : LiveArguments) : Verifying (LiveReport F) := do
  verifyWheel m a.coreWheel exactCoreWheelSha256 (lit "Core")
  verifyWheel m a.adapterWheel exactAdapterWheelSha256 (lit "adapter")
  verifyWheel m a.marketWheel a.marketWheelSha256 (lit "Market")
  let root ← m.packageFiles
  let coreFile ← m.moduleFile (lit "ace")
  let core ← ofCheck (installedFromExactWheel .p1c2LivePublicSource m.toMachine
    (coreRequest a.coreWheel coreFile (lit "ace/__init__.py")))
  let adapterFile ← m.moduleFile adapterModule
  let adapter ← ofCheck (installedFromExactWheel .p1c2LivePublicSource m.toMachine
    (adapterRequest a.adapterWheel adapterFile))
  let market ← ofCheck (installedFromExactWheel .p1c2LivePublicSource m.toMachine
    (marketRequest a.marketWheel (root (lit "manifest.json")) manifestPath))
  return { core, adapter, market }

/-! ### What it establishes -/

omit [PyFloat F] in
/-- The gate on a wheel. -/
theorem verifyWheel_eq_ok {m : Host F} {path expected name : Str} {u : Unit} :
    verifyWheel m path expected name = .ok u ↔ sha256Hex m.toMachine path = .ok expected := by
  constructor
  · intro h
    obtain ⟨actual, hactual, hrest⟩ := bind_eq_ok.mp h
    split at hrest
    · cases hrest
    · next hsame =>
      obtain rfl := not_not.mp hsame
      exact ofBuiltin_eq_ok.mp hactual
  · intro h
    simp [verifyWheel, h, ofBuiltin]

/-- The report of a copy of the check. -/
theorem check_eq_ok {copy : Copy} {m : Host F} {r : Request} {v : Verified F} :
    ofCheck (installedFromExactWheel copy m.toMachine r) = .ok v ↔ Reports m r v := by
  rw [ofCheck_eq_ok, installedFromExactWheel_eq_ok]
  rfl

/-- A module of a distribution is a file of a wheel. -/
def ModuleReports (m : Host F) (name : Str) (request : Str → Request) (v : Verified F) : Prop :=
  ∃ importPath, m.moduleFile name = .ok importPath ∧ Reports m (request importPath) v

/-- The three wheels have their digests, and each of the three files is one of its wheel. -/
structure LiveInstalled (m : Host F) (a : LiveArguments) (report : LiveReport F) : Prop where
  coreDigest : sha256Hex m.toMachine a.coreWheel = .ok exactCoreWheelSha256
  adapterDigest : sha256Hex m.toMachine a.adapterWheel = .ok exactAdapterWheelSha256
  marketDigest : sha256Hex m.toMachine a.marketWheel = .ok a.marketWheelSha256
  core : ModuleReports m (lit "ace")
    (fun importPath => coreRequest a.coreWheel importPath (lit "ace/__init__.py")) report.core
  adapter : ModuleReports m adapterModule (adapterRequest a.adapterWheel) report.adapter
  market : ∃ root, m.packageFiles = .ok root ∧
    Reports m (marketRequest a.marketWheel (root (lit "manifest.json")) manifestPath) report.market

/-- The live verification reports exactly if the three wheels are installed. -/
theorem liveVerification_eq_ok {m : Host F} {a : LiveArguments} {report : LiveReport F} :
    liveVerification m a = .ok report ↔ LiveInstalled m a report := by
  simp only [liveVerification, bind_eq_ok, verifyWheel_eq_ok, check_eq_ok, pure_eq_ok,
    Except.ok.injEq]
  constructor
  · rintro ⟨_, hcore, _, hadapter, _, hmarket, root, hroot, coreFile, hcoreFile, core, hcoreReport,
      adapterFile, hadapterFile, adapter, hadapterReport, market, hmarketReport, rfl⟩
    exact ⟨hcore, hadapter, hmarket, ⟨coreFile, hcoreFile, hcoreReport⟩,
      ⟨adapterFile, hadapterFile, hadapterReport⟩, root, hroot, hmarketReport⟩
  · rintro ⟨hcore, hadapter, hmarket, ⟨coreFile, hcoreFile, hcoreReport⟩,
      ⟨adapterFile, hadapterFile, hadapterReport⟩, root, hroot, hmarketReport⟩
    exact ⟨(), hcore, (), hadapter, (), hmarket, root, hroot, coreFile, hcoreFile, _, hcoreReport,
      adapterFile, hadapterFile, _, hadapterReport, _, hmarketReport, rfl⟩

/-! ### The two acceptances -/

/-- The prepared acceptance on the same wheels, with the default digest of Core. -/
def LiveArguments.prepared (a : LiveArguments) : WheelArguments where
  coreWheel := some a.coreWheel
  coreWheelSha256 := coreWheelSha256
  marketWheel := some a.marketWheel
  marketWheelSha256 := some a.marketWheelSha256

/-- The adapter is installed from the wheel with the pinned digest. -/
structure AdapterInstalled (m : Host F) (wheel : Str) (v : Verified F) : Prop where
  digest : sha256Hex m.toMachine wheel = .ok exactAdapterWheelSha256
  package : ModuleReports m adapterModule (adapterRequest wheel) v

/-- In the reports on the modules of Core, the first one is on its package. -/
theorem core_package_report {m : Host F} {wheel : Str} {report : CoreReport F}
    (h : CoreInstalled m wheel report) (v : Verified F) :
    (lit "ace", v) ∈ report.modules ↔ ModuleReports m (lit "ace")
      (fun importPath => coreRequest wheel importPath (lit "ace/__init__.py")) v := by
  have hmodules := h.modules
  constructor
  · intro hv
    obtain ⟨file, hfile, hname, hreports⟩ := exists_of_forall₂ hmodules _ hv
    have hpackage : ∀ file ∈ coreModules, file.1 = lit "ace" → file.2 = lit "ace/__init__.py" := by
      decide
    rw [hname, hpackage file hfile hname] at hreports
    exact hreports
  · rintro ⟨importPath, himport, hreports⟩
    rw [coreModules] at hmodules
    obtain ⟨named, rest, ⟨hname, importPath', himport', hreports'⟩, -, hreport⟩ :=
      List.forall₂_cons_left_iff.mp hmodules
    obtain rfl := Except.ok.inj (himport.symm.trans himport')
    have hv : named.2 = v := hreports'.unique hreports
    have hnamed : named = (lit "ace", v) := Prod.ext hname.symm hv
    rw [hreport, hnamed]
    exact List.mem_cons_self

/-- On one machine and the same wheels, both acceptances report exactly if the prepared one does
and the adapter is installed: the live report on Core and on Market is then a part of the prepared
one. So their two copies of the check can neither disagree about a file nor about a wheel. -/
theorem verifications_agree {m : Host F} {a : LiveArguments} {live : LiveReport F}
    {prepared : ArtifactReport F} :
    (artifactVerification m a.prepared = .ok (some prepared) ∧ liveVerification m a = .ok live) ↔
      artifactVerification m a.prepared = .ok (some prepared) ∧
        AdapterInstalled m a.adapterWheel live.adapter ∧
        (lit "ace", live.core) ∈ prepared.core.modules ∧
        live.market = prepared.market.manifest := by
  refine and_congr_right fun hprepared => ?_
  obtain ⟨core, market, sha256, files, root, h⟩ := artifactVerification_eq_some.mp hprepared
  obtain rfl : a.coreWheel = core := Option.some.inj h.coreWheel
  obtain rfl : a.marketWheel = market := Option.some.inj h.marketWheel
  obtain rfl : a.marketWheelSha256 = sha256 := Option.some.inj h.marketSha256
  have hpin : coreWheelSha256 = exactCoreWheelSha256 := rfl
  have hmanifest : manifestPath.drop packPrefix.length = lit "manifest.json" := by decide
  have hrequest : rowRequest a.marketWheel root manifestPath =
      marketRequest a.marketWheel (root (lit "manifest.json")) manifestPath := by
    rw [rowRequest, hmanifest]
  have hreport := h.marketInstalled.manifest
  rw [hrequest] at hreport
  rw [liveVerification_eq_ok, core_package_report h.coreInstalled]
  constructor
  · intro hlive
    obtain ⟨root', hroot', hmarket⟩ := hlive.market
    obtain rfl := Except.ok.inj (h.marketInstalled.packageFiles.symm.trans hroot')
    exact ⟨⟨hlive.adapterDigest, hlive.adapter⟩, hlive.core, hmarket.unique hreport⟩
  · rintro ⟨hadapter, hcore, hmarket⟩
    exact {
      coreDigest := hpin ▸ h.coreSupplied.digest
      adapterDigest := hadapter.digest
      marketDigest := h.marketSupplied.digest
      core := hcore
      adapter := hadapter.package
      market := ⟨root, h.marketInstalled.packageFiles, hmarket ▸ hreport⟩ }

end MarketIntelligence.Provenance
