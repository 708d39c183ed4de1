/-
Checking a report: `snp_validate_report.rs` without the certificate download.

`check_report_data` compares the report with whatever expectations it is given, one
after another, and stops at the first that fails; the signature is looked at last.
`checkReportData_eq_ok` says what passing means: every expectation that was given
holds.
-/
import SnpGuard.VmDescription

namespace SnpGuard

variable {C : Crates}

/-! ### The expectations -/

/-- What the ID block and the ID auth block say about the report. -/
structure IDBLockReportData where
  guestSvn : UInt32
  fId : Block 16
  iId : Block 16
  idKeyDigest : Block 48
  authorKeyDigest : Block 48
deriving DecidableEq

/-- `ReportVerificationError`. -/
inductive ReportVerificationError where
  | invalidSignature (source : Whatever)
  | policyMismatch (expected got : GuestPolicy)
  | invalidIdBlock (source : Whatever)
  | tcbVersionMismatch (requiredMinimum got : TcbVersion)
  | platformInfoMismatch (expected got : PlatformInfo)
  | hostDataMismatch (expected got : Block 32)
  | launchDigestMismatch (expected got : Block 48)
  | reportDataMismatch (expected got : String)
deriving DecidableEq

/-- A check of the 64 bytes of report data, supplied by the caller. -/
abbrev ReportDataValidator := Block 64 → Outcome ReportVerificationError Unit

/-! ### ID blocks -/

/-- `pubkey_to_id_block_digest`. -/
def pubkeyToIdBlockDigest (C : Crates) (p : C.PubKey) : Outcome Whatever (Block 48) := do
  let raw ← Outcome.ofOption (C.serializePubKey p) "faild to serialize pubkey with bincode"
  return C.sha384 raw

/-- The bytes of a family or image id, as `try_from` converts them. -/
def idBytes (C : Crates) (id : Block 16) (name : String) : Outcome Whatever (Block 16) := do
  let raw ← Outcome.ofOption (C.serializeId id) ("failed to serialize " ++ name ++ " id to bytes")
  Outcome.ofOption (Block.ofBytes? 16 raw) (name ++ " id serialized to " ++
    Bytes.formatList Bytes.formatHex raw ++ " but expected 16 bytes")

/-- `TryFrom<(IdBlock, IdAuth)> for IDBLockReportData`. -/
def IDBLockReportData.tryFrom (C : Crates) (id : IdBlock) (auth : IdAuth C.PubKey) :
    Outcome Whatever IDBLockReportData := do
  let fId ← idBytes C id.familyId "family"
  let iId ← idBytes C id.imageId "image"
  let idKeyDigest ← Outcome.context "failed to convert id pubkey to digest"
    (pubkeyToIdBlockDigest C auth.idPubkey)
  let authorKeyDigest ← Outcome.context "failed to convert author pubkey digest"
    (pubkeyToIdBlockDigest C auth.authorPubKey)
  return { guestSvn := id.guestSvn, fId, iId, idKeyDigest, authorKeyDigest }

/-- `parse_id_block_data`. -/
def parseIdBlockData (C : Crates) (idBlockRaw idAuthBlockRaw : Bytes) :
    Outcome Whatever (IdBlock × IdAuth C.PubKey × IDBLockReportData) := do
  let idBlockRaw ← Outcome.ofOption (C.base64Decode idBlockRaw)
    "failed to decode id block as base64"
  let idBlock ← Outcome.ofOption (C.deserializeIdBlock idBlockRaw)
    "failed to bindecode id block"
  let idAuthBlockRaw ← Outcome.ofOption (C.base64Decode idAuthBlockRaw)
    "failed to decode id auth block as base64"
  let idAuthBlock ← Outcome.ofOption (C.deserializeIdAuth idAuthBlockRaw)
    "failed to bindecode id auth block"
  let idBlockReportData ← IDBLockReportData.tryFrom C idBlock idAuthBlock
  return (idBlock, idAuthBlock, idBlockReportData)

/-- The message of a field that differs. -/
def mismatch (field expected got : String) : Whatever :=
  field ++ " does not match, expected " ++ expected ++ " got " ++ got

/-- `{:x?}` of a block. -/
def debugHex {n : Nat} (b : Block n) : String := Bytes.formatList Bytes.formatHex b.bytes

/-- `IDBLockReportData::check`. -/
def IDBLockReportData.check (d : IDBLockReportData) (report : AttestationReport) :
    Outcome Whatever Unit := do
  Outcome.ensure (report.guestSvn = d.guestSvn)
    (mismatch "guest svn" (Bytes.formatHex d.guestSvn.toNat)
      (Bytes.formatHex report.guestSvn.toNat))
  -- The family id found in the report is printed in decimal, the others in hexadecimal.
  Outcome.ensure (report.familyId = d.fId)
    (mismatch "family id" (debugHex d.fId) (Bytes.formatList toString report.familyId.bytes))
  Outcome.ensure (report.imageId = d.iId)
    (mismatch "image id" (debugHex d.iId) (debugHex report.imageId))
  Outcome.ensure (report.idKeyDigest = d.idKeyDigest)
    (mismatch "id key digest" (debugHex d.idKeyDigest) (debugHex report.idKeyDigest))
  Outcome.ensure (report.authorKeyDigest = d.authorKeyDigest)
    (mismatch "author key digest" (debugHex d.authorKeyDigest) (debugHex report.authorKeyDigest))

/-- The report carries what the ID blocks say. -/
structure IDBLockReportData.Matches (d : IDBLockReportData) (report : AttestationReport) :
    Prop where
  guestSvn : report.guestSvn = d.guestSvn
  familyId : report.familyId = d.fId
  imageId : report.imageId = d.iId
  idKeyDigest : report.idKeyDigest = d.idKeyDigest
  authorKeyDigest : report.authorKeyDigest = d.authorKeyDigest

theorem IDBLockReportData.check_eq_ok {d : IDBLockReportData} {report : AttestationReport} :
    d.check report = .ok () ↔ d.Matches report := by
  simp only [check, Outcome.ok_of_bind, Outcome.ensure_eq_ok, exists_const]
  constructor
  · rintro ⟨h1, h2, h3, h4, h5⟩
    exact ⟨h1, h2, h3, h4, h5⟩
  · rintro ⟨h1, h2, h3, h4, h5⟩
    exact ⟨h1, h2, h3, h4, h5⟩

theorem IDBLockReportData.check_isPanic (d : IDBLockReportData) (report : AttestationReport) :
    (d.check report).isPanic = false := by
  unfold check
  repeat refine Outcome.isPanic_ensure_seq ?_
  exact Outcome.isPanic_ensure _ _

/-! ### The report's data -/

/-- `tcb` is no newer than `got` in any component. -/
def TcbVersion.AtLeast (got tcb : TcbVersion) : Prop :=
  ¬ (got.bootloader < tcb.bootloader ∨ got.tee < tcb.tee ∨ got.snp < tcb.snp ∨
    got.microcode < tcb.microcode)

instance (got tcb : TcbVersion) : Decidable (got.AtLeast tcb) := by
  unfold TcbVersion.AtLeast
  infer_instance

/-- `check_report_data`. -/
def checkReportData (report : AttestationReport) (idblockData : Option IDBLockReportData)
    (policy : Option GuestPolicy) (tcb : Option TcbVersion) (platInfo : Option PlatformInfo)
    (reportDataValidator : Option ReportDataValidator) (hostData : Option (Block 32))
    (ld : Option (Block 48)) : Outcome ReportVerificationError Unit := do
  Outcome.whenSome policy fun p =>
    Outcome.ensure (report.policy.bits = p.bits) (.policyMismatch p report.policy)
  Outcome.whenSome idblockData fun d =>
    Outcome.mapErr .invalidIdBlock (d.check report)
  Outcome.whenSome tcb fun tcb =>
    Outcome.ensure (report.committedTcb.AtLeast tcb) (.tcbVersionMismatch tcb report.committedTcb)
  Outcome.whenSome platInfo fun pinfo =>
    Outcome.ensure (report.platInfo.bits = pinfo.bits) (.platformInfoMismatch pinfo report.platInfo)
  Outcome.whenSome reportDataValidator fun validate => validate report.reportData
  Outcome.whenSome hostData fun hostData =>
    Outcome.ensure (report.hostData = hostData) (.hostDataMismatch hostData report.hostData)
  Outcome.whenSome ld fun ld =>
    Outcome.ensure (report.measurement = ld) (.launchDigestMismatch ld report.measurement)

/-- Every expectation that is given holds of the report. -/
structure Meets (report : AttestationReport) (idblockData : Option IDBLockReportData)
    (policy : Option GuestPolicy) (tcb : Option TcbVersion) (platInfo : Option PlatformInfo)
    (reportDataValidator : Option ReportDataValidator) (hostData : Option (Block 32))
    (ld : Option (Block 48)) : Prop where
  policy : ∀ p, policy = some p → report.policy.bits = p.bits
  idblock : ∀ d, idblockData = some d → d.Matches report
  tcb : ∀ t, tcb = some t → report.committedTcb.AtLeast t
  platInfo : ∀ p, platInfo = some p → report.platInfo.bits = p.bits
  reportData : ∀ v, reportDataValidator = some v → v report.reportData = .ok ()
  hostData : ∀ h, hostData = some h → report.hostData = h
  ld : ∀ l, ld = some l → report.measurement = l

section

variable {report : AttestationReport} {idblockData : Option IDBLockReportData}
  {policy : Option GuestPolicy} {tcb : Option TcbVersion} {platInfo : Option PlatformInfo}
  {validator : Option ReportDataValidator} {hostData : Option (Block 32)}
  {ld : Option (Block 48)}

/-- **The data check passes exactly when every given expectation holds.** -/
theorem checkReportData_eq_ok :
    checkReportData report idblockData policy tcb platInfo validator hostData ld = .ok () ↔
      Meets report idblockData policy tcb platInfo validator hostData ld := by
  simp only [checkReportData, Outcome.ok_of_bind, Outcome.whenSome_eq_ok, Outcome.ensure_eq_ok,
    Outcome.mapErr_eq_ok, IDBLockReportData.check_eq_ok, exists_const]
  constructor
  · rintro ⟨h1, h2, h3, h4, h5, h6, h7⟩
    exact ⟨h1, h2, h3, h4, h5, h6, h7⟩
  · rintro ⟨h1, h2, h3, h4, h5, h6, h7⟩
    exact ⟨h1, h2, h3, h4, h5, h6, h7⟩

end

/-! ### The signature -/

/-- `verify_report_signature`. -/
def verifyReportSignature (C : Crates) (productName : ProductName) (report : AttestationReport)
    (vcekCert : C.Certificate) : Outcome Whatever Unit := do
  let ark ← Outcome.ofOption (C.ark productName) "failed to parse ARK certificate"
  let ask ← Outcome.ofOption (C.ask productName) "failed to parse ASK certificate"
  Outcome.ensure (C.verify ark ask vcekCert report = true) "invalid attestation report signature"

/-- `verify_and_check_report`. -/
def verifyAndCheckReport (C : Crates) (report : AttestationReport) (productName : ProductName)
    (vcekCert : C.Certificate) (idblockData : Option IDBLockReportData)
    (policy : Option GuestPolicy) (tcb : Option TcbVersion) (platInfo : Option PlatformInfo)
    (reportDataValidator : Option ReportDataValidator) (hostData : Option (Block 32))
    (ld : Option (Block 48)) : Outcome ReportVerificationError Unit := do
  checkReportData report idblockData policy tcb platInfo reportDataValidator hostData ld
  Outcome.mapErr .invalidSignature (verifyReportSignature C productName report vcekCert)

/-- Verification passes when the data does and the signature does. -/
theorem verifyAndCheckReport_eq_ok {report : AttestationReport} {productName : ProductName}
    {vcekCert : C.Certificate} {idblockData : Option IDBLockReportData}
    {policy : Option GuestPolicy} {tcb : Option TcbVersion} {platInfo : Option PlatformInfo}
    {validator : Option ReportDataValidator} {hostData : Option (Block 32)}
    {ld : Option (Block 48)} :
    verifyAndCheckReport C report productName vcekCert idblockData policy tcb platInfo validator
        hostData ld = .ok () ↔
      Meets report idblockData policy tcb platInfo validator hostData ld ∧
        verifyReportSignature C productName report vcekCert = .ok () := by
  rw [verifyAndCheckReport, Outcome.ok_of_seq, checkReportData_eq_ok, Outcome.mapErr_eq_ok]

/-! ### Which check fails first -/

/-- The checks of a verification. -/
inductive Check where
  | policy
  | idBlock
  | tcb
  | platInfo
  | reportData
  | hostData
  | launchDigest
  | signature
deriving DecidableEq

/-- Those that look at the data. -/
def Check.data : List Check :=
  [.policy, .idBlock, .tcb, .platInfo, .reportData, .hostData, .launchDigest]

/-- The order in which the checks are made: the signature comes last. -/
def Check.order : List Check := Check.data ++ [.signature]

theorem Check.mem_order (c : Check) : c ∈ Check.order := by
  cases c <;> decide

/-- What `verify_and_check_report` is given. -/
structure Verification (C : Crates) where
  report : AttestationReport
  productName : ProductName
  vcekCert : C.Certificate
  idblockData : Option IDBLockReportData
  policy : Option GuestPolicy
  tcb : Option TcbVersion
  platInfo : Option PlatformInfo
  reportDataValidator : Option ReportDataValidator
  hostData : Option (Block 32)
  ld : Option (Block 48)

namespace Verification

/-- The data check. -/
def checkData (v : Verification C) : Outcome ReportVerificationError Unit :=
  checkReportData v.report v.idblockData v.policy v.tcb v.platInfo v.reportDataValidator
    v.hostData v.ld

/-- The signature check. -/
def checkSignature (v : Verification C) : Outcome Whatever Unit :=
  verifyReportSignature C v.productName v.report v.vcekCert

/-- The verification. -/
def verify (v : Verification C) : Outcome ReportVerificationError Unit :=
  verifyAndCheckReport C v.report v.productName v.vcekCert v.idblockData v.policy v.tcb
    v.platInfo v.reportDataValidator v.hostData v.ld

/-- What a check asks for. -/
def Holds (v : Verification C) : Check → Prop
  | .policy => ∀ p, v.policy = some p → v.report.policy.bits = p.bits
  | .idBlock => ∀ d, v.idblockData = some d →
      v.report.guestSvn = d.guestSvn ∧ v.report.familyId = d.fId ∧ v.report.imageId = d.iId ∧
        v.report.idKeyDigest = d.idKeyDigest ∧ v.report.authorKeyDigest = d.authorKeyDigest
  | .tcb => ∀ t, v.tcb = some t →
      t.bootloader ≤ v.report.committedTcb.bootloader ∧ t.tee ≤ v.report.committedTcb.tee ∧
        t.snp ≤ v.report.committedTcb.snp ∧ t.microcode ≤ v.report.committedTcb.microcode
  | .platInfo => ∀ p, v.platInfo = some p → v.report.platInfo.bits = p.bits
  | .reportData => ∀ validate, v.reportDataValidator = some validate →
      validate v.report.reportData = .ok ()
  | .hostData => ∀ h, v.hostData = some h → v.report.hostData = h
  | .launchDigest => ∀ l, v.ld = some l → v.report.measurement = l
  | .signature => v.checkSignature = .ok ()

/-- How a check complains. -/
def Complains (v : Verification C) : Check → Failure ReportVerificationError → Prop
  | .policy, f => ∃ p, v.policy = some p ∧ f = .error (.policyMismatch p v.report.policy)
  | .idBlock, f => ∃ d w, v.idblockData = some d ∧ d.check v.report = Outcome.fail w ∧
      f = .error (.invalidIdBlock w)
  | .tcb, f => ∃ t, v.tcb = some t ∧ f = .error (.tcbVersionMismatch t v.report.committedTcb)
  | .platInfo, f => ∃ p, v.platInfo = some p ∧
      f = .error (.platformInfoMismatch p v.report.platInfo)
  | .reportData, f => ∃ validate, v.reportDataValidator = some validate ∧
      validate v.report.reportData = .error f
  | .hostData, f => ∃ h, v.hostData = some h ∧ f = .error (.hostDataMismatch h v.report.hostData)
  | .launchDigest, f => ∃ l, v.ld = some l ∧
      f = .error (.launchDigestMismatch l v.report.measurement)
  | .signature, f => ∃ w, v.checkSignature = Outcome.fail w ∧ f = .error (.invalidSignature w)

/-- What the code makes of a check. -/
def outcome (v : Verification C) : Check → Outcome ReportVerificationError Unit
  | .policy => Outcome.whenSome v.policy fun p =>
      Outcome.ensure (v.report.policy.bits = p.bits) (.policyMismatch p v.report.policy)
  | .idBlock => Outcome.whenSome v.idblockData fun d =>
      Outcome.mapErr .invalidIdBlock (d.check v.report)
  | .tcb => Outcome.whenSome v.tcb fun t =>
      Outcome.ensure (v.report.committedTcb.AtLeast t)
        (.tcbVersionMismatch t v.report.committedTcb)
  | .platInfo => Outcome.whenSome v.platInfo fun p =>
      Outcome.ensure (v.report.platInfo.bits = p.bits) (.platformInfoMismatch p v.report.platInfo)
  | .reportData => Outcome.whenSome v.reportDataValidator fun validate =>
      validate v.report.reportData
  | .hostData => Outcome.whenSome v.hostData fun h =>
      Outcome.ensure (v.report.hostData = h) (.hostDataMismatch h v.report.hostData)
  | .launchDigest => Outcome.whenSome v.ld fun l =>
      Outcome.ensure (v.report.measurement = l) (.launchDigestMismatch l v.report.measurement)
  | .signature => Outcome.mapErr .invalidSignature v.checkSignature

theorem checkData_eq (v : Verification C) :
    v.checkData = Outcome.inOrder (Check.data.map v.outcome) := by
  simp only [checkData, checkReportData, Check.data, List.map_cons, List.map_nil,
    Outcome.inOrder, outcome, Outcome.bind_unit]

theorem verify_eq (v : Verification C) :
    v.verify = Outcome.inOrder (Check.order.map v.outcome) := by
  show (v.checkData >>= fun _ => v.outcome .signature) = _
  rw [checkData_eq, Check.order, List.map_append, Outcome.inOrder_append]
  simp only [List.map_cons, List.map_nil, Outcome.inOrder, Outcome.bind_unit]

theorem outcome_eq_ok (v : Verification C) (c : Check) : v.outcome c = .ok () ↔ v.Holds c := by
  cases c with
  | idBlock =>
      simp only [outcome, Outcome.whenSome_eq_ok, Outcome.mapErr_eq_ok,
        IDBLockReportData.check_eq_ok, Holds]
      refine forall_congr' fun d => forall_congr' fun _ => ?_
      refine ⟨?_, ?_⟩
      · rintro ⟨h1, h2, h3, h4, h5⟩
        exact ⟨h1, h2, h3, h4, h5⟩
      · rintro ⟨h1, h2, h3, h4, h5⟩
        exact ⟨h1, h2, h3, h4, h5⟩
  | tcb =>
      simp only [outcome, Outcome.whenSome_eq_ok, Outcome.ensure_eq_ok, TcbVersion.AtLeast,
        not_or, UInt8.not_lt, Holds]
  | signature => exact Outcome.mapErr_eq_ok
  | _ => simp only [outcome, Outcome.whenSome_eq_ok, Outcome.ensure_eq_ok, Holds]

theorem checkSignature_isPanic (v : Verification C) : v.checkSignature.isPanic = false := by
  simp only [checkSignature, verifyReportSignature]
  cases C.ark v.productName <;> cases C.ask v.productName <;> simp

/-- A check has one complaint. -/
theorem Complains.unique {v : Verification C} {c : Check}
    {f g : Failure ReportVerificationError} (hf : v.Complains c f) (hg : v.Complains c g) :
    f = g := by
  cases c with
  | idBlock =>
      obtain ⟨d, w, hd, hw, rfl⟩ := hf
      obtain ⟨d', w', hd', hw', rfl⟩ := hg
      rw [hd, Option.some.injEq] at hd'
      rw [← hd', hw] at hw'
      cases hw'
      rfl
  | reportData =>
      obtain ⟨validate, hvalidate, hf⟩ := hf
      obtain ⟨validate', hvalidate', hg⟩ := hg
      rw [hvalidate, Option.some.injEq] at hvalidate'
      rw [← hvalidate', hf, Except.error.injEq] at hg
      exact hg
  | signature =>
      obtain ⟨w, hw, rfl⟩ := hf
      obtain ⟨w', hw', rfl⟩ := hg
      rw [hw] at hw'
      cases hw'
      rfl
  | _ =>
      obtain ⟨x, hx, rfl⟩ := hf
      obtain ⟨y, hy, rfl⟩ := hg
      rw [hx, Option.some.injEq] at hy
      rw [hy]

/-- A check fails with its complaint. -/
theorem outcome_eq_error (v : Verification C) (c : Check) {f : Failure ReportVerificationError} :
    v.outcome c = .error f ↔ ¬ v.Holds c ∧ v.Complains c f := by
  have hcomplains : ∀ g, v.outcome c = .error g → v.Complains c g := by
    intro g h
    cases c with
    | idBlock =>
        obtain ⟨d, hd, hcheck⟩ := Outcome.whenSome_eq_error.mp h
        obtain ⟨w, hw, rfl⟩ := (Outcome.mapErr_eq_error (d.check_isPanic _)).mp hcheck
        exact ⟨d, w, hd, hw, rfl⟩
    | reportData => exact Outcome.whenSome_eq_error.mp h
    | signature => exact (Outcome.mapErr_eq_error v.checkSignature_isPanic).mp h
    | _ =>
        obtain ⟨x, hx, hensure⟩ := Outcome.whenSome_eq_error.mp h
        exact ⟨x, hx, (Outcome.ensure_eq_error.mp hensure).2⟩
  refine ⟨?_, ?_⟩
  · intro h
    refine ⟨?_, hcomplains f h⟩
    rw [← outcome_eq_ok, h]
    simp
  · intro h
    obtain ⟨hfails, hf⟩ := h
    rw [← outcome_eq_ok] at hfails
    cases hout : v.outcome c with
    | ok u => exact absurd hout hfails
    | error g => rw [hf.unique (hcomplains g hout)]

theorem checkData_eq_ok (v : Verification C) :
    v.checkData = .ok () ↔ ∀ c ∈ Check.data, v.Holds c := by
  rw [checkData_eq, Outcome.inOrder_eq_ok]
  simp only [List.forall_mem_map, outcome_eq_ok]

theorem verify_eq_ok (v : Verification C) : v.verify = .ok () ↔ ∀ c, v.Holds c := by
  rw [verify_eq, Outcome.inOrder_eq_ok]
  simp only [List.forall_mem_map, outcome_eq_ok]
  refine ⟨?_, ?_⟩
  · intro h c
    exact h c c.mem_order
  · intro h c _
    exact h c

/-- Every check before `c` holds, and `c` does not. -/
def FirstFailing (v : Verification C) (c : Check) : Prop :=
  ¬ v.Holds c ∧ ∃ before after, Check.order = before ++ c :: after ∧ ∀ c' ∈ before, v.Holds c'

/-- **A verification fails with the complaint of the first check that fails.** -/
theorem verify_eq_error (v : Verification C) {f : Failure ReportVerificationError} :
    v.verify = .error f ↔ ∃ c, v.FirstFailing c ∧ v.Complains c f := by
  rw [verify_eq, Outcome.inOrder_eq_error]
  refine ⟨?_, ?_⟩
  · intro h
    obtain ⟨before, after, horder, hbefore⟩ := h
    obtain ⟨cs, rest, hsplit, rfl, hrest⟩ := List.map_eq_append_iff.mp horder
    obtain ⟨c, ds, rfl, hc, -⟩ := List.map_eq_cons_iff.mp hrest
    obtain ⟨hfails, hcomplains⟩ := (v.outcome_eq_error c).mp hc
    refine ⟨c, ⟨hfails, cs, ds, hsplit, ?_⟩, hcomplains⟩
    intro c' hc'
    exact (v.outcome_eq_ok c').mp (hbefore _ (List.mem_map_of_mem hc'))
  · intro h
    obtain ⟨c, ⟨hfails, before, after, horder, hbefore⟩, hcomplains⟩ := h
    have hc := (v.outcome_eq_error c).mpr ⟨hfails, hcomplains⟩
    refine ⟨before.map v.outcome, after.map v.outcome, ?_, ?_⟩
    · rw [horder, List.map_append, List.map_cons, hc]
    · intro o ho
      obtain ⟨c', hc', rfl⟩ := List.mem_map.mp ho
      exact (v.outcome_eq_ok c').mpr (hbefore c' hc')

/-- The checks before the one that fails first hold. -/
theorem FirstFailing.before {v : Verification C} {c : Check} (h : v.FirstFailing c)
    {before after : List Check} (horder : Check.order = before ++ c :: after)
    (hbefore : c ∉ before) (hafter : c ∉ after) : ∀ c' ∈ before, v.Holds c' := by
  obtain ⟨-, before', after', horder', hholds⟩ := h
  rw [horder] at horder'
  obtain ⟨heq, -, -⟩ := (List.append_cons_inj_of_notMem hbefore hafter).mp horder'
  rw [heq]
  exact hholds

/-- The signature is the last check, so it fails first when all the data matched. -/
theorem FirstFailing.data {v : Verification C} (h : v.FirstFailing .signature) :
    ∀ c ∈ Check.data, v.Holds c :=
  h.before rfl (by decide) (by decide)

/-! ### What an error says -/

/-- An error names what was required and what the report has, the right way round, and the two
do not go together.  The texts of a report data mismatch are the caller's. -/
def Truthful (v : Verification C) (reportData : String → String → Prop) :
    ReportVerificationError → Prop
  | .policyMismatch expected got =>
      v.policy = some expected ∧ got = v.report.policy ∧ got.bits ≠ expected.bits
  | .tcbVersionMismatch requiredMinimum got =>
      v.tcb = some requiredMinimum ∧ got = v.report.committedTcb ∧ ¬ got.AtLeast requiredMinimum
  | .platformInfoMismatch expected got =>
      v.platInfo = some expected ∧ got = v.report.platInfo ∧ got.bits ≠ expected.bits
  | .hostDataMismatch expected got =>
      v.hostData = some expected ∧ got = v.report.hostData ∧ got ≠ expected
  | .launchDigestMismatch expected got =>
      v.ld = some expected ∧ got = v.report.measurement ∧ got ≠ expected
  | .reportDataMismatch expected got => reportData expected got
  | .invalidSignature _ | .invalidIdBlock _ => True

theorem not_of_some {α : Type} {o : Option α} {P : α → Prop} {a : α} (h : o = some a)
    (hfails : ¬ ∀ x, o = some x → P x) : ¬ P a := by
  intro ha
  refine hfails fun x hx => ?_
  rw [h, Option.some.injEq] at hx
  exact hx ▸ ha

/-- **A verification is as truthful as its validator of the report data.** -/
theorem truthful_of_verify {v : Verification C} {reportData : String → String → Prop}
    {e : ReportVerificationError} (h : v.verify = Outcome.fail e)
    (hvalidator : v.FirstFailing .reportData → ∀ validate, v.reportDataValidator = some validate →
      validate v.report.reportData = Outcome.fail e → v.Truthful reportData e) :
    v.Truthful reportData e := by
  obtain ⟨c, hfirst, hcomplains⟩ := v.verify_eq_error.mp h
  have hfails := hfirst.1
  cases c with
  | policy =>
      obtain ⟨p, hp, hf⟩ := hcomplains
      cases hf
      have hne := not_of_some (P := fun x : GuestPolicy => v.report.policy.bits = x.bits) hp hfails
      exact ⟨hp, rfl, hne⟩
  | idBlock =>
      obtain ⟨_, _, -, -, hf⟩ := hcomplains
      cases hf
      trivial
  | tcb =>
      obtain ⟨t, ht, hf⟩ := hcomplains
      cases hf
      refine ⟨ht, rfl, ?_⟩
      simpa only [TcbVersion.AtLeast, not_or, UInt8.not_lt] using not_of_some ht hfails
  | platInfo =>
      obtain ⟨p, hp, hf⟩ := hcomplains
      cases hf
      have hne := not_of_some (P := fun x : PlatformInfo => v.report.platInfo.bits = x.bits) hp hfails
      exact ⟨hp, rfl, hne⟩
  | reportData =>
      obtain ⟨validate, hvalidate, hf⟩ := hcomplains
      exact hvalidator hfirst validate hvalidate hf
  | hostData =>
      obtain ⟨x, hx, hf⟩ := hcomplains
      cases hf
      exact ⟨hx, rfl, not_of_some hx hfails⟩
  | launchDigest =>
      obtain ⟨l, hl, hf⟩ := hcomplains
      cases hf
      exact ⟨hl, rfl, not_of_some hl hfails⟩
  | signature =>
      obtain ⟨_, -, hf⟩ := hcomplains
      cases hf
      trivial

/-! ### Newer versions and fewer expectations -/

/-- `v'` expects no more than `v`, of the same report with a TCB version as new or newer. -/
structure Relaxes (v' v : Verification C) : Prop where
  report : ∃ tcb : TcbVersion, tcb.AtLeast v.report.committedTcb ∧
    v'.report = { v.report with committedTcb := tcb }
  idblockData : ∀ d, v'.idblockData = some d → v.idblockData = some d
  policy : ∀ p, v'.policy = some p → v.policy = some p
  tcb : ∀ t, v'.tcb = some t → v.tcb = some t
  platInfo : ∀ p, v'.platInfo = some p → v.platInfo = some p
  reportDataValidator : ∀ validate, v'.reportDataValidator = some validate →
    v.reportDataValidator = some validate
  hostData : ∀ h, v'.hostData = some h → v.hostData = some h
  ld : ∀ l, v'.ld = some l → v.ld = some l

/-- A newer version and fewer expectations make no data check fail. -/
theorem Relaxes.holds {v' v : Verification C} (h : v'.Relaxes v) {c : Check}
    (hdata : c ∈ Check.data) (hc : v.Holds c) : v'.Holds c := by
  obtain ⟨tcb, hnewer, hreport⟩ := h.report
  cases c with
  | policy =>
      intro p hp
      rw [hreport]
      exact hc p (h.policy p hp)
  | idBlock =>
      intro d hd
      rw [hreport]
      exact hc d (h.idblockData d hd)
  | tcb =>
      intro t ht
      have hold := hc t (h.tcb t ht)
      simp only [TcbVersion.AtLeast, not_or, UInt8.not_lt] at hnewer
      rw [hreport]
      exact ⟨UInt8.le_trans hold.1 hnewer.1, UInt8.le_trans hold.2.1 hnewer.2.1,
        UInt8.le_trans hold.2.2.1 hnewer.2.2.1, UInt8.le_trans hold.2.2.2 hnewer.2.2.2⟩
  | platInfo =>
      intro p hp
      rw [hreport]
      exact hc p (h.platInfo p hp)
  | reportData =>
      intro validate hvalidate
      rw [hreport]
      exact hc validate (h.reportDataValidator validate hvalidate)
  | hostData =>
      intro x hx
      rw [hreport]
      exact hc x (h.hostData x hx)
  | launchDigest =>
      intro l hl
      rw [hreport]
      exact hc l (h.ld l hl)
  | signature => exact absurd hdata (by decide)

/-- **What a verification checks, and how it fails.**  It passes when the data matches every
expectation and the signature verifies; it fails with the complaint of the first check that
fails, so an invalid signature is reported for data that matched, unless the caller's own
validator reports one; and neither a newer TCB version nor a dropped expectation makes the
data check fail. -/
theorem verify_exact (v : Verification C) :
    (v.verify = .ok () ↔ ∀ c, v.Holds c) ∧
      (∀ f, v.verify = .error f ↔ ∃ c, v.FirstFailing c ∧ v.Complains c f) ∧
      (∀ w, v.verify = .error (.error (.invalidSignature w)) →
        ((∀ c ∈ Check.data, v.Holds c) ∧ v.checkSignature = Outcome.fail w) ∨
          ∃ validate, v.reportDataValidator = some validate ∧
            validate v.report.reportData = Outcome.fail (.invalidSignature w)) ∧
      ∀ v' : Verification C, v'.Relaxes v → v.checkData = .ok () → v'.checkData = .ok () := by
  refine ⟨v.verify_eq_ok, fun f => v.verify_eq_error, ?_, ?_⟩
  · intro w h
    obtain ⟨c, hfirst, hcomplains⟩ := v.verify_eq_error.mp h
    cases c with
    | signature =>
        obtain ⟨w', hw, heq⟩ := hcomplains
        cases heq
        exact Or.inl ⟨hfirst.data, hw⟩
    | reportData => exact Or.inr hcomplains
    | idBlock =>
        obtain ⟨_, _, -, -, heq⟩ := hcomplains
        cases heq
    | _ =>
        obtain ⟨_, -, heq⟩ := hcomplains
        cases heq
  · intro v' hrelaxes hok
    rw [checkData_eq_ok] at hok ⊢
    intro c hc
    exact hrelaxes.holds hc (hok c hc)

/-- A validator that says the signature is invalid. -/
def distrustful : Verification Crates.toy where
  report := .default
  productName := .milan
  vcekCert := ""
  idblockData := none
  policy := none
  tcb := none
  platInfo := none
  reportDataValidator := some fun _ => Outcome.fail (.invalidSignature "no")
  hostData := none
  ld := none

/-- Its verification reports an invalid signature for data that did not match. -/
theorem invalidSignature_of_validator :
    distrustful.verify = .error (.error (.invalidSignature "no")) ∧
      distrustful.checkSignature = .ok () ∧ ¬ ∀ c ∈ Check.data, distrustful.Holds c := by
  refine ⟨rfl, rfl, ?_⟩
  intro h
  have hok : distrustful.checkData = .ok () := distrustful.checkData_eq_ok.mpr h
  have hfail : distrustful.checkData = Outcome.fail (.invalidSignature "no") := rfl
  rw [hfail] at hok
  exact Outcome.fail_ne_ok _ _ hok

end Verification

end SnpGuard
