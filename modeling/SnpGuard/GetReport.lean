/-
Reports with data of the user's own: `get_report/main.rs` and `verify_report`.

`get_report` runs in the guest and asks the firmware for a report over 64 bytes that it
is given in base64; `verify_report` is given what the user expects there.  Both take fewer
than 64 bytes and fill up with zeros.  So the two strings need not be the same for the check
to pass: they may differ in the zeros that they end in, and in nothing else
(`reportData_binds`).
-/
import SnpGuard.Completeness
import SnpGuard.Lib.Base64

namespace SnpGuard

/-! ### Report data in base64 -/

/-- What both programs make of the argument: at most 64 bytes, filled up with zeros. -/
def decodePadded {ε : Type} (C : Crates) (text : String) (undecodable : ε) (tooLong : Nat → ε) :
    Outcome ε (Block 64) := do
  let raw ← Outcome.ofOption (C.base64DecodeNoPad (Bytes.ofString text)) undecodable
  if h : raw.length ≤ 64 then
    return Block.padded raw h
  else
    Outcome.fail (tooLong raw.length)

theorem decodePadded_eq_ok {ε : Type} {C : Crates} {text : String} {undecodable : ε}
    {tooLong : Nat → ε} {data : Block 64} :
    decodePadded C text undecodable tooLong = .ok data ↔
      ∃ raw, C.base64DecodeNoPad (Bytes.ofString text) = some raw ∧
        ∃ h : raw.length ≤ 64, data = Block.padded raw h := by
  simp only [decodePadded, Outcome.ok_of_bind, Outcome.ofOption_eq_ok]
  refine exists_congr fun raw => and_congr_right fun _ => ?_
  by_cases h : raw.length ≤ 64
  · simp [h, eq_comm]
  · simp [h]

theorem VerifyReport.decodeReportData_eq (C : Crates) (args : VerifyReport.Args) :
    VerifyReport.decodeReportData C args
      = decodePadded C args.reportData (.whatever "failed to decode report_data as base64")
          fun len => .whatever ("report data length should be <= 64 bytes but you provided " ++
            toString len ++ " bytes") := rfl

/-! ### The prover -/

namespace GetReport

structure Args where
  out : String
  reportData : String

/-- What the calls come back with. -/
structure Env where
  /-- `Firmware::open`. -/
  opens : Bool
  firmware : Firmware
  creates : Bool
  /-- How many bytes of the report were written before it failed, if it failed. -/
  writeFailsAfter : Option Nat

variable (J : Json) (C : Crates) (env : Env) (args : Args)

/-- The report data, padded with zeros. -/
def decodeReportData : Outcome Whatever (Block 64) :=
  decodePadded C args.reportData "failed to decode report_data as base64" fun len =>
    "report data length should be <= 64 bytes, but got " ++ toString len ++ " bytes!"

/-- Write the report to the output file. -/
def writeReport (report : AttestationReport) : Effect (Option Bytes) Whatever Unit := fun out =>
  if env.creates then
    match env.writeFailsAfter with
    | none => (.ok (), some (J.report.encode report))
    | some n =>
      (Outcome.fail "failed to serialize report as json", some ((J.report.encode report).take n))
  else
    (Outcome.fail ("failed to create output file " ++ args.out), out)

/-- `main`, by what it leaves in the output file. -/
def main : Effect (Option Bytes) Whatever Unit := do
  let reportData ← Effect.lift (decodeReportData C args)
  Effect.lift (Outcome.ensure (env.opens = true)
    "failed to open sev firmware device. Is this a SEV-SNP guest?")
  let report ← Effect.lift (Outcome.context "error getting report from firmware device"
    (env.firmware.call reportData))
  writeReport J env args report

variable {J C env args}

theorem writeReport_eq_ok {report : AttestationReport} {out out' : Option Bytes} {u : Unit} :
    writeReport J env args report out = (.ok u, out') ↔
      env.creates = true ∧ env.writeFailsAfter = none ∧
        out' = some (J.report.encode report) := by
  unfold writeReport
  by_cases hcreates : env.creates = true
  · cases env.writeFailsAfter with
    | none => simp [hcreates, eq_comm]
    | some n => simp [hcreates]
  · simp [hcreates]

/-- **What is in the output file is the firmware's report over the padded data.** -/
theorem main_eq_ok {out out' : Option Bytes} {u : Unit} :
    main J C env args out = (.ok u, out') ↔
      ∃ data report, decodeReportData C args = .ok data ∧ env.opens = true ∧
        env.firmware data = .ok report ∧ env.creates = true ∧ env.writeFailsAfter = none ∧
        out' = some (J.report.encode report) := by
  unfold main
  simp only [Effect.ok_of_bind, Effect.lift_eq_ok, Outcome.ensure_eq_ok, Outcome.context_eq_ok,
    Firmware.call_eq_ok, writeReport_eq_ok]
  refine ⟨?_, ?_⟩
  · intro h
    obtain ⟨data, _, ⟨hdata, rfl⟩, _, _, ⟨hopens, rfl⟩, report, _, ⟨hreport, rfl⟩, hwrite⟩ := h
    exact ⟨data, report, hdata, hopens, hreport, hwrite⟩
  · intro h
    obtain ⟨data, report, hdata, hopens, hreport, hwrite⟩ := h
    exact ⟨data, out, ⟨hdata, rfl⟩, (), out, ⟨hopens, rfl⟩, report, out, ⟨hreport, rfl⟩, hwrite⟩

end GetReport

variable {J : Json} {C : Crates}

/-! ### The two programs together -/

/-- A run on given report data is a run without, and a comparison. -/
theorem VerifyReport.run_iff_any {env : VerifyReport.Env} {args : VerifyReport.Args}
    (hgiven : args.reportData ≠ "") {data : Block 64}
    (hdata : VerifyReport.decodeReportData C args = .ok data) {bytes : Bytes}
    (hfile : env.files.read args.input = some bytes) {report : AttestationReport}
    (hreport : J.report.decode bytes = some report) {cache cache' : Folder}
    (hvalid : VerifyReport.run J C env { args with reportData := "" } cache = (.ok (), cache')) :
    (∃ cache', VerifyReport.run J C env args cache = (.ok (), cache')) ↔
      data = report.reportData := by
  obtain ⟨report', expected, data', hloaded', hverify'⟩ := VerifyReport.run_eq_ok.mp hvalid
  have hloaded : VerifyReport.Loaded J C env args report expected data :=
    ⟨⟨bytes, hfile, hreport⟩, hloaded'.expected, hdata⟩
  have hsame : report' = report := by
    obtain ⟨bytes', hfile', hreport'⟩ := hloaded'.report
    rw [hfile, Option.some.injEq] at hfile'
    rw [← hfile', hreport, Option.some.injEq] at hreport'
    exact hreport'.symm
  rw [VerifyReport.reportDataValidator_none rfl, hsame] at hverify'
  refine ⟨?_, ?_⟩
  · intro hok
    obtain ⟨cache'', hok⟩ := hok
    obtain ⟨report'', expected'', data'', hloaded'', hverify⟩ := VerifyReport.run_eq_ok.mp hok
    obtain ⟨hreport'', -, hdata''⟩ := hloaded.unique hloaded''
    rw [hreport'', hdata''] at hverify
    exact (VerifyReport.reportDataValidator_eq_ok hgiven).mp (verifyReceived_iff_any.mp hverify).2
  · intro heq
    refine ⟨cache', VerifyReport.run_eq_ok.mpr ⟨report, expected, data, hloaded, ?_⟩⟩
    exact verifyReceived_iff_any.mpr
      ⟨hverify', (VerifyReport.reportDataValidator_eq_ok hgiven).mpr heq⟩

/-- **What report data binds.**  A report that `get_report` made for `a`, and that
`verify_report` accepts when no report data is expected, is accepted with `b` expected exactly
when `a` and `b` decode to the same bytes up to the zeros at their ends. -/
theorem reportData_binds (hJ : J.report.RoundTrip) {env : GetReport.Env}
    (hfw : env.firmware.Binds) {a : GetReport.Args} {out : Option Bytes} {file : Bytes}
    (hget : GetReport.main J C env a out = (.ok (), some file)) {rawA : Bytes}
    (hrawA : C.base64DecodeNoPad (Bytes.ofString a.reportData) = some rawA)
    {env' : VerifyReport.Env} {b : VerifyReport.Args}
    (hfile : env'.files.read b.input = some file) (hgiven : b.reportData ≠ "") {rawB : Bytes}
    (hrawB : C.base64DecodeNoPad (Bytes.ofString b.reportData) = some rawB)
    (hlen : rawB.length ≤ 64) {cache cache' : Folder}
    (hvalid : VerifyReport.run J C env' { b with reportData := "" } cache = (.ok (), cache')) :
    (∃ cache', VerifyReport.run J C env' b cache = (.ok (), cache')) ↔
      Bytes.trimZeros rawB = Bytes.trimZeros rawA := by
  obtain ⟨data, report, hdata, -, hreport, -, -, hout⟩ := GetReport.main_eq_ok.mp hget
  obtain ⟨raw, hraw, hlenA, rfl⟩ := decodePadded_eq_ok.mp hdata
  rw [hrawA, Option.some.injEq] at hraw
  subst hraw
  rw [Option.some.injEq] at hout
  have hdecode : J.report.decode file = some report := by
    rw [hout]
    exact hJ report
  have hdataB : VerifyReport.decodeReportData C b = .ok (Block.padded rawB hlen) := by
    rw [VerifyReport.decodeReportData_eq]
    exact decodePadded_eq_ok.mpr ⟨rawB, hrawB, hlen, rfl⟩
  rw [VerifyReport.run_iff_any hgiven hdataB hfile hdecode hvalid, hfw hreport]
  exact Block.padded_eq_iff hlen hlenA

/-! ### Two strings of different length -/

/-- Crates whose base64 is the real one. -/
def Crates.toyBase64 : Crates :=
  { Crates.toy with base64Decode := Base64.decode, base64DecodeNoPad := Base64.decodeNoPad }

/-- The report of a guest whose VCEK certificate is the text `cert`. -/
def certifiedReport (data : Block 64) : AttestationReport :=
  { AttestationReport.default with reportData := data, signature := Bytes.ofString "cert" }

def GetReport.Env.toy : GetReport.Env := ⟨true, fun data => .ok (certifiedReport data), true, none⟩

/-- `verify_report` with such a report, and a service that hands out that certificate. -/
def VerifyReport.Env.toy (data : Block 64) : VerifyReport.Env where
  files := .toy (certifiedReport data)
  vcek := ⟨"/tmp", true, false, fun _ => .response 200 (some (Bytes.ofString "cert")), .none⟩

theorem VerifyReport.toy_reads (data : Block 64) :
    Json.toy.report.decode (Json.toy.report.encode (certifiedReport data))
      = some (certifiedReport data) := Json.toy_roundTrips.report _

/-- The report is accepted when no report data is expected. -/
theorem VerifyReport.toy_valid (data : Block 64) :
    ∃ cache', VerifyReport.run Json.toy Crates.toyBase64 (.toy data) ⟨"report.json", "", .toy⟩
      (fun _ => none) = (.ok (), cache') := by
  have hverified : (verifyReceived Crates.toyBase64 (VerifyReport.Env.toy data).vcek .toy
      (certifiedReport data) (VerifyReport.reportDataValidator ⟨"report.json", "", .toy⟩
        (Block.padded [] (by simp))) fun _ => none).1 = .ok () := rfl
  obtain ⟨cache', hverify⟩ := Effect.exists_of_fst hverified
  exact ⟨cache', VerifyReport.run_eq_ok.mpr ⟨certifiedReport data, .toy, Block.padded [] (by simp),
    ⟨⟨_, rfl, VerifyReport.toy_reads data⟩, rfl, rfl⟩, hverify⟩⟩

/-- The data that `AQ` and `AQA` stand for. -/
def oneByte : Block 64 := Block.padded [1] (by simp)

theorem Firmware.certified_binds : GetReport.Env.toy.firmware.Binds := by
  intro data r h
  cases h
  rfl

theorem GetReport.toy_main (out : Option Bytes) :
    GetReport.main Json.toy Crates.toyBase64 .toy ⟨"report.json", "AQ"⟩ out
      = (.ok (), some (Json.toy.report.encode (certifiedReport oneByte))) :=
  GetReport.main_eq_ok.mpr ⟨oneByte, certifiedReport oneByte,
    decodePadded_eq_ok.mpr ⟨[1], by decide, by simp, rfl⟩, rfl, rfl, rfl, rfl, rfl⟩

/-- A report made for `AQ` is accepted where `AQ` is expected. -/
theorem reportData_binds_toy :
    ∃ cache', VerifyReport.run Json.toy Crates.toyBase64 (.toy oneByte)
      ⟨"report.json", "AQ", .toy⟩ (fun _ => none) = (.ok (), cache') := by
  obtain ⟨cache', hvalid⟩ := VerifyReport.toy_valid oneByte
  have hraw : Crates.toyBase64.base64DecodeNoPad (Bytes.ofString "AQ") = some [1] := by decide
  exact (reportData_binds Json.toy_roundTrips.report Firmware.certified_binds
    (GetReport.toy_main none) hraw rfl (by decide) hraw (by simp) hvalid).mpr rfl

/-- It is accepted where `AQA` is expected, too, which decodes to one byte more. -/
theorem reportData_zeros :
    (∃ cache', VerifyReport.run Json.toy Crates.toyBase64 (.toy oneByte)
        ⟨"report.json", "AQA", .toy⟩ (fun _ => none) = (.ok (), cache')) ∧
      GetReport.main Json.toy Crates.toyBase64 .toy ⟨"report.json", "AQ"⟩ none
        = (.ok (), some (Json.toy.report.encode (certifiedReport oneByte))) ∧
      (VerifyReport.Env.toy oneByte).files.read "report.json"
        = some (Json.toy.report.encode (certifiedReport oneByte)) ∧
      Crates.toyBase64.base64DecodeNoPad (Bytes.ofString "AQ") = some [1] ∧
      Crates.toyBase64.base64DecodeNoPad (Bytes.ofString "AQA") = some [1, 0] := by
  obtain ⟨cache', hvalid⟩ := VerifyReport.toy_valid oneByte
  have hraw : Crates.toyBase64.base64DecodeNoPad (Bytes.ofString "AQA") = some [1, 0] := by decide
  have hdata : VerifyReport.decodeReportData Crates.toyBase64 ⟨"report.json", "AQA", .toy⟩
      = .ok oneByte := by
    rw [VerifyReport.decodeReportData_eq]
    exact decodePadded_eq_ok.mpr ⟨[1, 0], hraw, by simp, by decide⟩
  refine ⟨?_, GetReport.toy_main none, rfl, by decide, hraw⟩
  exact (VerifyReport.run_iff_any (by decide) hdata rfl (VerifyReport.toy_reads oneByte)
    hvalid).mpr rfl

end SnpGuard
