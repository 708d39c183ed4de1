/-
The offline verifier: `verify_report/main.rs`.

It reads a report from a file and checks it against the same expectations as the
client, except that the report data is compared with an argument: 64 bytes that
start with what the argument decodes to, and not at all when the argument is empty.
-/
import SnpGuard.Expected
import SnpGuard.Wire

namespace SnpGuard.VerifyReport

structure Args where
  input : String
  reportData : String
  verifier : VerifierArgs

/-- What the calls come back with. -/
structure Env where
  files : Files
  vcek : VcekAccess

variable (J : Json) (C : Crates) (env : Env) (args : Args)

/-- The report in the input file. -/
def readReport : Outcome UserError AttestationReport := do
  let inputFile ← Outcome.ofOption (env.files.read args.input)
    (.whatever ("failed to open attestation report file at " ++ args.input))
  Outcome.ofOption (J.report.decode inputFile)
    (.whatever "failed to parse attestation report file as json")

/-- The report data that is expected, padded with zeros. -/
def decodeReportData : Outcome UserError (Block 64) := do
  let reportDataRaw ← Outcome.ofOption (C.base64DecodeNoPad (Bytes.ofString args.reportData))
    (.whatever "failed to decode report_data as base64")
  if h : reportDataRaw.length ≤ 64 then
    return Block.padded reportDataRaw h
  else
    Outcome.fail (.whatever ("report data length should be <= 64 bytes but you provided " ++
      toString reportDataRaw.length ++ " bytes"))

/-- `report_data_validator`: any report data will do when none is expected. -/
def reportDataValidator (reportData : Block 64) : ReportDataValidator := fun vmData =>
  if args.reportData = "" then .ok ()
  else Outcome.ensure (reportData = vmData)
    (.reportDataMismatch ("0x" ++ Bytes.hexEncode reportData.bytes)
      ("0x" ++ Bytes.hexEncode vmData.bytes))

/-- `run`. -/
def run : Effect Folder UserError Unit := do
  let report ← Effect.lift (readReport J env args)
  let expected ← Effect.lift (Outcome.mapErr .whatever
    (readExpected C env.files args.verifier "vm config"))
  let reportData ← Effect.lift (decodeReportData C args)
  verifyReceived C env.vcek expected report (reportDataValidator args reportData)

variable {J C env args}

/-- Everything up to the verification went well. -/
structure Loaded (J : Json) (C : Crates) (env : Env) (args : Args)
    (report : AttestationReport) (expected : Expected) (reportData : Block 64) : Prop where
  report : ∃ bytes, env.files.read args.input = some bytes ∧ J.report.decode bytes = some report
  expected : readExpected C env.files args.verifier "vm config" = .ok expected
  reportData : decodeReportData C args = .ok reportData

/-- What is loaded depends on the files and the arguments alone. -/
theorem Loaded.unique {report report' : AttestationReport} {expected expected' : Expected}
    {reportData reportData' : Block 64} (h : Loaded J C env args report expected reportData)
    (h' : Loaded J C env args report' expected' reportData') :
    report' = report ∧ expected' = expected ∧ reportData' = reportData := by
  obtain ⟨bytes, hread, hdecode⟩ := h.report
  obtain ⟨bytes', hread', hdecode'⟩ := h'.report
  have hexpected := h'.expected
  have hdata := h'.reportData
  rw [hread, Option.some.injEq] at hread'
  rw [← hread', hdecode, Option.some.injEq] at hdecode'
  rw [h.expected, Except.ok.injEq] at hexpected
  rw [h.reportData, Except.ok.injEq] at hdata
  exact ⟨hdecode'.symm, hexpected.symm, hdata.symm⟩

theorem reportDataValidator_none (h : args.reportData = "") (reportData : Block 64) :
    reportDataValidator args reportData = anyReportData := by
  funext vmData
  simp [reportDataValidator, anyReportData, h]

theorem reportDataValidator_eq_ok (h : args.reportData ≠ "") {reportData vmData : Block 64} :
    reportDataValidator args reportData vmData = .ok () ↔ reportData = vmData := by
  simp [reportDataValidator, h]

/-- What is loaded before the verification. -/
def load (J : Json) (C : Crates) (env : Env) (args : Args) :
    Outcome UserError (AttestationReport × Expected × Block 64) := do
  let report ← readReport J env args
  let expected ← Outcome.mapErr .whatever (readExpected C env.files args.verifier "vm config")
  let reportData ← decodeReportData C args
  return (report, expected, reportData)

theorem run_eq : run J C env args = (Effect.lift (load J C env args) >>= fun x =>
    verifyReceived C env.vcek x.2.1 x.1 (reportDataValidator args x.2.2)) := by
  simp only [run, load, Effect.lift_bind, Effect.bind_assoc]
  rfl

theorem load_eq_ok {x : AttestationReport × Expected × Block 64} :
    load J C env args = .ok x ↔ Loaded J C env args x.1 x.2.1 x.2.2 := by
  unfold load readReport
  simp only [Outcome.ok_of_bind, Outcome.ofOption_eq_ok, Outcome.mapErr_eq_ok,
    Outcome.pure_eq_ok, Except.ok.injEq]
  refine ⟨?_, ?_⟩
  · intro h
    obtain ⟨report, ⟨bytes, hread, hdecode⟩, expected, hexpected, data, hdata, rfl⟩ := h
    exact ⟨⟨bytes, hread, hdecode⟩, hexpected, hdata⟩
  · intro h
    obtain ⟨⟨bytes, hread, hdecode⟩, hexpected, hdata⟩ := h
    exact ⟨_, ⟨bytes, hread, hdecode⟩, _, hexpected, _, hdata, rfl⟩

/-- **The verifier accepts what it loaded exactly when verification passes.** -/
theorem run_eq_ok {cache cache' : Folder} :
    run J C env args cache = (.ok (), cache') ↔
      ∃ report expected reportData, Loaded J C env args report expected reportData ∧
        verifyReceived C env.vcek expected report (reportDataValidator args reportData) cache
          = (.ok (), cache') := by
  rw [run_eq]
  simp only [Effect.ok_of_bind, Effect.lift_eq_ok, load_eq_ok]
  refine ⟨?_, ?_⟩
  · intro h
    obtain ⟨⟨report, expected, data⟩, _, ⟨hloaded, rfl⟩, hverify⟩ := h
    exact ⟨report, expected, data, hloaded, hverify⟩
  · intro h
    obtain ⟨report, expected, data, hloaded, hverify⟩ := h
    exact ⟨(report, expected, data), cache, ⟨hloaded, rfl⟩, hverify⟩

end SnpGuard.VerifyReport
