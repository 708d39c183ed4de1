/-
What a verifier expects of a report, read from its files.

The client and `verify_report` start the same way: they read the VM config, replace
its kernel command line when told to, compute the launch digest, and parse the two ID
blocks when both are given.  Both then look up the VCEK certificate for the report's
chip and hand report, certificate and expectations to `verify_and_check_report`;
they differ in how they judge the report data.
-/
import SnpGuard.ValidateReport
import SnpGuard.Vcek

namespace SnpGuard

/-- The error type that both programs declare. -/
inductive UserError where
  | invalidReport (source : ReportVerificationError)
  | whatever (message : String)
deriving DecidableEq

/-- The files and the TOML parser. -/
structure Files where
  /-- `fs::read`. -/
  read : String → Option Bytes
  /-- `toml::from_str`. -/
  toml : String → Option VMDescription

/-- `fs::read_to_string`. -/
def Files.readToString (files : Files) (path : String) : Option String :=
  (files.read path).bind Bytes.toString?

/-- The arguments that the two programs share. -/
structure VerifierArgs where
  vmDefinition : String
  overrideKernelCmdline : Option String
  idBlockPath : Option String
  authorBlockPath : Option String

/-- What the report has to match. -/
structure Expected where
  vmDescription : VMDescription
  expectedLd : Block 48
  idBlockData : Option IDBLockReportData

/-- The config with the command line that counts. -/
def VMDescription.withCmdline (d : VMDescription) (overrideCmdline : Option String) :
    VMDescription :=
  match overrideCmdline with
  | some cmdline => { d with kernelCmdline := cmdline }
  | none => d

variable (C : Crates) (files : Files) (args : VerifierArgs)

/-- The config file, with `failed to read <kind> from` as the message if it cannot be read. -/
def readDescription (kind : String) : Outcome Whatever VMDescription := do
  let text ← Outcome.ofOption (files.readToString args.vmDefinition)
    ("failed to read " ++ kind ++ " from " ++ args.vmDefinition)
  let vmDescription ← Outcome.ofOption (files.toml text) "failed to parse vm config as toml"
  return vmDescription.withCmdline args.overrideKernelCmdline

/-- The ID blocks, if both paths are given. -/
def readIdData : Outcome Whatever (Option IDBLockReportData) :=
  match args.idBlockPath, args.authorBlockPath with
  | some idBlockPath, some idAuthBlockPath => do
    let rawIdBlock ← Outcome.ofOption (files.read idBlockPath)
      ("failed to read id block from " ++ idBlockPath)
    let rawIdAuthBlock ← Outcome.ofOption (files.read idAuthBlockPath)
      ("failed to read id auth block from " ++ idAuthBlockPath)
    let (_, _, data) ← Outcome.context "failed to parse id block related data"
      (parseIdBlockData C rawIdBlock rawIdAuthBlock)
    return some data
  | _, _ => return none

/-- Everything a verifier expects. -/
def readExpected (kind : String) : Outcome Whatever Expected := do
  let vmDescription ← readDescription files args kind
  let expectedLd ← Outcome.context
    "failed to compute the expected launch digest based on the vm config"
    (vmDescription.computeExpectedHash C)
  let idBlockData ← readIdData C files args
  return { vmDescription, expectedLd, idBlockData }

/-! ### Certificate and report -/

/-- How a verifier reaches the certificate cache and the key distribution service. -/
structure VcekAccess where
  tempDir : String
  cacheThere : Bool
  cacheCreated : Bool
  kds : String → HttpResult
  faults : FileFaults

/-- Look up the certificate: for the committed TCB version of the report. -/
def lookupVcek (access : VcekAccess) (report : AttestationReport) (family : ProductName) :
    Effect Folder Whatever C.Certificate := do
  let vcekResolver ← Effect.lift (Outcome.context "failed to instantiate vcek downloader"
    (CachingVCEKDownloader.new access.tempDir access.cacheThere access.cacheCreated))
  Effect.context ("failed to download vcek cert for cpu family " ++ family.display ++
      ", chip_id 0x" ++ Bytes.hexEncode report.chipId.bytes)
    (vcekResolver.getVceckCert C access.kds access.faults report.chipId family
      report.committedTcb)

/-- What both programs ask `verify_and_check_report`. -/
def checkAgainst (expected : Expected) (report : AttestationReport) (vcekCert : C.Certificate)
    (validator : ReportDataValidator) : Outcome ReportVerificationError Unit :=
  verifyAndCheckReport C report expected.vmDescription.hostCpuFamily vcekCert
    expected.idBlockData (some expected.vmDescription.guestPolicy)
    (some expected.vmDescription.minCommitedTcb) (some expected.vmDescription.platformInfo)
    (some validator) none (some expected.expectedLd)

/-- Certificate lookup and verification, one after the other. -/
def verifyReceived (access : VcekAccess) (expected : Expected) (report : AttestationReport)
    (validator : ReportDataValidator) : Effect Folder UserError Unit := do
  let vcekCert ← Effect.mapErr .whatever
    (lookupVcek C access report expected.vmDescription.hostCpuFamily)
  Effect.lift (Outcome.mapErr .invalidReport
    (checkAgainst C expected report vcekCert validator))

variable {C}

/-- The report is what the verifier expects, the validator included. -/
def Expected.MetBy (expected : Expected) (report : AttestationReport)
    (validator : ReportDataValidator) : Prop :=
  Meets report expected.idBlockData (some expected.vmDescription.guestPolicy)
    (some expected.vmDescription.minCommitedTcb) (some expected.vmDescription.platformInfo)
    (some validator) none (some expected.expectedLd)

theorem checkAgainst_eq_ok {expected : Expected} {report : AttestationReport}
    {vcekCert : C.Certificate} {validator : ReportDataValidator} :
    checkAgainst C expected report vcekCert validator = .ok () ↔
      expected.MetBy report validator ∧
        verifyReportSignature C expected.vmDescription.hostCpuFamily report vcekCert = .ok () :=
  verifyAndCheckReport_eq_ok

/-- **Verification passes with a certificate that was found, for a report that meets
the expectations and is signed under that certificate.** -/
theorem verifyReceived_eq_ok {access : VcekAccess} {expected : Expected}
    {report : AttestationReport} {validator : ReportDataValidator} {cache cache' : Folder} :
    verifyReceived C access expected report validator cache = (.ok (), cache') ↔
      ∃ cert, lookupVcek C access report expected.vmDescription.hostCpuFamily cache
          = (.ok cert, cache') ∧
        expected.MetBy report validator ∧
        verifyReportSignature C expected.vmDescription.hostCpuFamily report cert = .ok () := by
  unfold verifyReceived
  simp only [Effect.ok_of_bind, Effect.mapErr_eq_ok, Effect.lift_eq_ok, Outcome.mapErr_eq_ok,
    checkAgainst_eq_ok]
  refine ⟨?_, ?_⟩
  · intro h
    obtain ⟨cert, t, hlookup, hcheck, rfl⟩ := h
    exact ⟨cert, hlookup, hcheck⟩
  · intro h
    obtain ⟨cert, hlookup, hcheck⟩ := h
    exact ⟨cert, cache', hlookup, hcheck, rfl⟩

/-- A validator that takes any report data. -/
def anyReportData : ReportDataValidator := fun _ => .ok ()

theorem Expected.metBy_iff {expected : Expected} {report : AttestationReport}
    {validator : ReportDataValidator} :
    expected.MetBy report validator ↔
      expected.MetBy report anyReportData ∧ validator report.reportData = .ok () := by
  refine ⟨?_, ?_⟩
  · intro h
    exact ⟨⟨h.policy, h.idblock, h.tcb, h.platInfo, fun v hv => by cases hv; rfl, h.hostData, h.ld⟩,
      h.reportData validator rfl⟩
  · intro h
    obtain ⟨h, hvalid⟩ := h
    exact ⟨h.policy, h.idblock, h.tcb, h.platInfo, fun v hv => by cases hv; exact hvalid,
      h.hostData, h.ld⟩

/-- **The validator's verdict and the rest of the verification do not depend on each other.** -/
theorem verifyReceived_iff_any {access : VcekAccess} {expected : Expected}
    {report : AttestationReport} {validator : ReportDataValidator} {cache cache' : Folder} :
    verifyReceived C access expected report validator cache = (.ok (), cache') ↔
      verifyReceived C access expected report anyReportData cache = (.ok (), cache') ∧
        validator report.reportData = .ok () := by
  rw [verifyReceived_eq_ok, verifyReceived_eq_ok, Expected.metBy_iff]
  refine ⟨?_, ?_⟩
  · intro h
    obtain ⟨cert, hlookup, ⟨hmet, hvalid⟩, hsig⟩ := h
    exact ⟨⟨cert, hlookup, hmet, hsig⟩, hvalid⟩
  · intro h
    obtain ⟨⟨cert, hlookup, hmet, hsig⟩, hvalid⟩ := h
    exact ⟨cert, hlookup, ⟨hmet, hvalid⟩, hsig⟩

/-! ### The same files -/

/-- Two file systems give the same answers to a verifier. -/
structure Files.Agree (files files' : Files) (args : VerifierArgs) : Prop where
  toml : files'.toml = files.toml
  vmDefinition : files'.read args.vmDefinition = files.read args.vmDefinition
  idBlock : ∀ path, args.idBlockPath = some path → files'.read path = files.read path
  authorBlock : ∀ path, args.authorBlockPath = some path → files'.read path = files.read path

/-- From the same files the two programs read the same expectations, up to a message. -/
theorem readExpected_agree {files files' : Files} {args : VerifierArgs}
    (h : files.Agree files' args) {kind kind' : String} {expected : Expected} :
    readExpected C files' args kind' = .ok expected ↔
      readExpected C files args kind = .ok expected := by
  have hdescription : ∀ d, readDescription files' args kind' = .ok d ↔
      readDescription files args kind = .ok d := by
    intro d
    simp only [readDescription, Files.readToString, h.vmDefinition, h.toml, Outcome.ok_of_bind,
      Outcome.ofOption_eq_ok]
  have hidData : readIdData C files' args = readIdData C files args := by
    unfold readIdData
    cases hid : args.idBlockPath with
    | none => rfl
    | some path =>
        cases hauthor : args.authorBlockPath with
        | none => rfl
        | some path' => simp only [h.idBlock path hid, h.authorBlock path' hauthor]
  simp only [readExpected, Outcome.ok_of_bind, hdescription, hidData]

end SnpGuard
