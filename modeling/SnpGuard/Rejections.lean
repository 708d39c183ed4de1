/-
What a verifier says when it rejects a report.

A mismatch is reported with the value that was required and the value that was found, and
whoever owns the VM goes by these two.  `check_report_data` names both the right way round in
every error it builds itself (`Verification.truthful_of_verify`); the report data is judged
by the closure that each program passes.  The one of `verify_report` does the same.  The one
of the client calls the nonce in the report the expected one and its own the one it got, so
the client is truthful exactly where it does not come to that check, or passes it.
-/
import SnpGuard.Completeness

namespace SnpGuard

variable {R : Ring} {J : Json} {C : Crates}

/-- An error that is not about the report. -/
def UserError.IsWhatever (e : UserError) : Prop := ∃ msg, e = .whatever msg

theorem UserError.invalidReport_ne {e : ReportVerificationError} :
    ¬ (UserError.invalidReport e).IsWhatever := by
  intro h
  obtain ⟨msg, h⟩ := h
  cases h

/-! ### Verification -/

/-- What both programs ask, as one verification. -/
def Expected.verification (expected : Expected) (report : AttestationReport)
    (vcekCert : C.Certificate) (validator : ReportDataValidator) : Verification C where
  report := report
  productName := expected.vmDescription.hostCpuFamily
  vcekCert := vcekCert
  idblockData := expected.idBlockData
  policy := some expected.vmDescription.guestPolicy
  tcb := some expected.vmDescription.minCommitedTcb
  platInfo := some expected.vmDescription.platformInfo
  reportDataValidator := some validator
  hostData := none
  ld := some expected.expectedLd

theorem checkAgainst_eq (expected : Expected) (report : AttestationReport)
    (vcekCert : C.Certificate) (validator : ReportDataValidator) :
    checkAgainst C expected report vcekCert validator
      = (expected.verification report vcekCert validator).verify := rfl

theorem raises_ofOption {σ α : Type} {r : Option α} {msg : String} :
    (Effect.lift (Outcome.ofOption r (.whatever msg)) : Effect σ UserError α).Raises
      UserError.IsWhatever := by
  refine Effect.raises_lift fun e h => ?_
  cases r with
  | none =>
      cases h
      exact ⟨msg, rfl⟩
  | some a => exact absurd h (by simp [Outcome.fail])

theorem raises_mapErr {σ α : Type} {x : Outcome Whatever α} :
    (Effect.lift (Outcome.mapErr .whatever x) : Effect σ UserError α).Raises
      UserError.IsWhatever := by
  refine Effect.raises_lift fun e h => ?_
  obtain ⟨msg, -, rfl⟩ := Outcome.mapErr_eq_fail.mp h
  exact ⟨msg, rfl⟩

/-- **A report is invalid when a certificate was found and the verification failed.** -/
theorem verifyReceived_invalid {access : VcekAccess} {expected : Expected}
    {report : AttestationReport} {validator : ReportDataValidator} {cache cache' : Folder}
    {e : ReportVerificationError} :
    verifyReceived C access expected report validator cache
        = (Outcome.fail (.invalidReport e), cache') ↔
      ∃ cert, lookupVcek C access report expected.vmDescription.hostCpuFamily cache
          = (.ok cert, cache') ∧
        (expected.verification report cert validator).verify = Outcome.fail e := by
  have hlookup : (Effect.mapErr UserError.whatever
      (lookupVcek C access report expected.vmDescription.hostCpuFamily)).Raises
      UserError.IsWhatever := Effect.raises_mapErr fun msg => ⟨msg, rfl⟩
  unfold verifyReceived
  refine (Effect.error_of_bind_of_raises hlookup UserError.invalidReport_ne).trans ?_
  simp only [Effect.mapErr_eq_ok, checkAgainst_eq, Effect.lift_apply, Prod.mk.injEq]
  refine ⟨?_, ?_⟩
  · intro h
    obtain ⟨cert, t, hfound, hverify, rfl⟩ := h
    obtain ⟨e', hfail, heq⟩ := Outcome.mapErr_eq_fail.mp hverify
    cases heq
    exact ⟨cert, hfound, hfail⟩
  · intro h
    obtain ⟨cert, hfound, hfail⟩ := h
    exact ⟨cert, cache', hfound, Outcome.mapErr_eq_fail.mpr ⟨e, hfail, rfl⟩, rfl⟩

/-! ### `verify_report` -/

namespace VerifyReport

variable {env : Env} {args : Args}

/-- A report data mismatch names the expected bytes and the bytes of the report, and the two
differ. -/
def NamesReportData (reportData vmData : Block 64) (expected got : String) : Prop :=
  expected = "0x" ++ Bytes.hexEncode reportData.bytes ∧
    got = "0x" ++ Bytes.hexEncode vmData.bytes ∧ reportData ≠ vmData

/-- What `verify_report` rejects with is true of the report and of what was expected of it. -/
def RejectsTruthfully (J : Json) (C : Crates) (env : Env) (args : Args) (cache : Folder) : Prop :=
  ∀ e cache', run J C env args cache = (Outcome.fail (.invalidReport e), cache') →
    ∃ report expected reportData cert, Loaded J C env args report expected reportData ∧
      lookupVcek C env.vcek report expected.vmDescription.hostCpuFamily cache
        = (.ok cert, cache') ∧
      (expected.verification report cert (reportDataValidator args reportData)).Truthful
        (NamesReportData reportData report.reportData) e

theorem reportDataValidator_truthful {v : Verification C} {reportData vmData : Block 64}
    {e : ReportVerificationError}
    (h : reportDataValidator args reportData vmData = Outcome.fail e) :
    v.Truthful (NamesReportData reportData vmData) e := by
  unfold reportDataValidator at h
  by_cases hnone : args.reportData = ""
  · rw [if_pos hnone] at h
    cases h
  · rw [if_neg hnone] at h
    obtain ⟨hne, he⟩ := Outcome.ensure_eq_error.mp h
    cases he
    exact ⟨rfl, rfl, hne⟩

theorem load_raises {σ : Type} :
    (Effect.lift (load J C env args) : Effect σ UserError _).Raises UserError.IsWhatever := by
  have hdata : (Effect.lift (decodeReportData C args) : Effect σ UserError _).Raises
      UserError.IsWhatever := by
    unfold decodeReportData
    rw [Effect.lift_bind]
    refine Effect.raises_bind raises_ofOption fun raw => ?_
    refine Effect.raises_lift fun e h => ?_
    by_cases hlen : raw.length ≤ 64
    · simp [hlen, Outcome.fail] at h
    · rw [dif_neg hlen] at h
      cases h
      exact ⟨_, rfl⟩
  simp only [load, readReport, Effect.lift_bind]
  refine Effect.raises_bind (Effect.raises_bind raises_ofOption fun _ => raises_ofOption) ?_
  intro report
  refine Effect.raises_bind raises_mapErr fun expected => ?_
  exact Effect.raises_bind hdata fun data => Effect.raises_pure

/-- **`verify_report` rejects truthfully.** -/
theorem rejects (cache : Folder) : RejectsTruthfully J C env args cache := by
  intro e cache' h
  rw [run_eq] at h
  obtain ⟨⟨report, expected, data⟩, _, hload, hverify⟩ :=
    (Effect.error_of_bind_of_raises load_raises UserError.invalidReport_ne).mp h
  obtain ⟨hok, rfl⟩ := Effect.lift_eq_ok.mp hload
  obtain ⟨cert, hfound, hfail⟩ := verifyReceived_invalid.mp hverify
  refine ⟨report, expected, data, cert, load_eq_ok.mp hok, hfound, ?_⟩
  refine Verification.truthful_of_verify hfail fun _ validate hvalidate he => ?_
  cases hvalidate
  exact reportDataValidator_truthful he

end VerifyReport

/-! ### The client -/

namespace Client

variable {env : Env R} {args : Args}

/-- A report data mismatch names the client's nonce and the nonce of the report, and the two
differ. -/
def NamesNonce (nonce : UInt64) (vmData : Block 64) (expected got : String) : Prop :=
  expected = "0x" ++ Bytes.formatHex nonce.toNat ∧
    got = "0x" ++ Bytes.formatHex (ReportData.ofBlock vmData).nonce.toNat ∧
    nonce ≠ (ReportData.ofBlock vmData).nonce

/-- What the client rejects with is true of the report and of what was expected of it. -/
def RejectsTruthfully (J : Json) (C : Crates) (env : Env R) (args : Args) (t : Traces) : Prop :=
  ∀ e t', run J C env args t = (Outcome.fail (.invalidReport e), t') →
    ∃ expected resetEndpoint v cert, Received J C env args expected resetEndpoint v ∧
      lookupVcek C env.vcek v.report expected.vmDescription.hostCpuFamily t.cache
        = (.ok cert, t'.cache) ∧
      (expected.verification v.report cert (reportDataValidator v.nonce)).Truthful
        (NamesNonce v.nonce v.report.reportData) e

/-- A report is received and comes with a certificate, it passes the checks of policy, ID block,
TCB version and platform, and it does not answer the client's nonce. -/
def MeetsAllButNonce (J : Json) (C : Crates) (env : Env R) (args : Args) (t : Traces) : Prop :=
  ∃ expected resetEndpoint v cert cache, Received J C env args expected resetEndpoint v ∧
    lookupVcek C env.vcek v.report expected.vmDescription.hostCpuFamily t.cache
      = (.ok cert, cache) ∧
    (∀ c ∈ [Check.policy, .idBlock, .tcb, .platInfo],
      (expected.verification v.report cert (reportDataValidator v.nonce)).Holds c) ∧
    v.nonce ≠ (ReportData.ofBlock v.report.reportData).nonce

theorem post_raises (send : Server.Request → HttpResult) (req : Server.Request) (msg : String) :
    (post send req msg).Raises UserError.IsWhatever := by
  intro s e t h
  unfold post at h
  cases hsend : send req with
  | failed =>
      rw [hsend] at h
      cases h
      exact ⟨msg, rfl⟩
  | response status body => simp [hsend] at h

theorem receive_raises : (receive J C env args).Raises UserError.IsWhatever := by
  have hdump : ∀ report, (dumpReport J env args report).Raises UserError.IsWhatever := by
    intro report s e t h
    unfold dumpReport at h
    cases hpath : args.dumpReport with
    | none => simp [hpath] at h
    | some path =>
        by_cases hcreates : env.dumpCreates = true
        · cases hfails : env.dumpFailsAfter with
          | none => simp [hpath, hcreates, hfails] at h
          | some n =>
              simp only [hpath, hcreates, hfails, if_true] at h
              cases h
              exact ⟨_, rfl⟩
        · simp only [hpath, if_neg hcreates] at h
          cases h
          exact ⟨_, rfl⟩
  unfold receive
  refine Effect.raises_bind raises_mapErr fun expected => ?_
  refine Effect.raises_bind raises_ofOption fun buffer => ?_
  refine Effect.raises_bind raises_ofOption fun url => ?_
  refine Effect.raises_bind raises_ofOption fun endpoint => ?_
  refine Effect.raises_bind (post_raises _ _ _) fun _ => ?_
  refine Effect.raises_bind (post_raises _ _ _) fun body => ?_
  refine Effect.raises_bind raises_ofOption fun report => ?_
  exact Effect.raises_bind (hdump report) fun _ => Effect.raises_pure

theorem wrapDiskKey_raises {σ : Type} {nonce : UInt64} {report : AttestationReport} :
    (Effect.lift (wrapDiskKey env args nonce report) : Effect σ UserError _).Raises
      UserError.IsWhatever := by
  have hensure : (Effect.lift (Outcome.ensure (env.computes = true)
      (.whatever "failed to generate public DH key for client")) : Effect σ UserError _).Raises
      UserError.IsWhatever := by
    refine Effect.raises_lift fun e h => ?_
    obtain ⟨-, he⟩ := Outcome.ensure_eq_error.mp h
    cases he
    exact ⟨_, rfl⟩
  simp only [wrapDiskKey, Effect.lift_bind]
  refine Effect.raises_bind raises_ofOption fun priv => ?_
  refine Effect.raises_bind hensure fun _ => ?_
  refine Effect.raises_bind raises_ofOption fun secret => ?_
  refine Effect.raises_bind (Effect.raises_lift fun e h => ?_) fun wrapped => Effect.raises_pure
  obtain ⟨msg, -, rfl⟩ := Outcome.mapErr_eq_fail.mp h
  exact ⟨_, rfl⟩

theorem phase2_raises (v : Verified) : (phase2 J env args v).Raises UserError.IsWhatever := by
  unfold phase2
  refine Effect.raises_bind wrapDiskKey_raises fun wrapped => ?_
  exact Effect.raises_bind (post_raises _ _ _) fun _ => Effect.raises_pure

/-- **The client rejects a report that it received and that failed verification.** -/
theorem run_invalid {t t' : Traces} {e : ReportVerificationError} :
    run J C env args t = (Outcome.fail (.invalidReport e), t') ↔
      ∃ expected resetEndpoint v cert cache, Received J C env args expected resetEndpoint v ∧
        lookupVcek C env.vcek v.report expected.vmDescription.hostCpuFamily t.cache
          = (.ok cert, cache) ∧
        (expected.verification v.report cert (reportDataValidator v.nonce)).verify
          = Outcome.fail e ∧
        t' = { receivedTraces J args resetEndpoint v t with cache } := by
  have hphase1 : run J C env args t = (Outcome.fail (.invalidReport e), t') ↔
      phase1 J C env args t = (Outcome.fail (.invalidReport e), t') := by
    refine Effect.error_of_bind.trans (or_iff_left ?_)
    intro h
    obtain ⟨v, t₁, -, h⟩ := h
    exact UserError.invalidReport_ne (phase2_raises v _ _ _ h)
  rw [hphase1, phase1_eq]
  refine (Effect.error_of_bind_of_raises receive_raises UserError.invalidReport_ne).trans ?_
  refine ⟨?_, ?_⟩
  · intro h
    obtain ⟨⟨expected, v⟩, _, hreceive, h⟩ := h
    obtain ⟨endpoint, hreceived, rfl⟩ := receive_eq_ok.mp hreceive
    obtain h | ⟨_, _, -, h⟩ := Effect.error_of_bind.mp h
    · obtain ⟨cache, hverify, rfl⟩ := Effect.zoom_eq_iff.mp h
      obtain ⟨cert, hfound, hfail⟩ := verifyReceived_invalid.mp hverify
      exact ⟨expected, endpoint, v, cert, cache, hreceived, hfound, hfail, rfl⟩
    · exact absurd h (by simp [Effect.pure_apply])
  · intro h
    obtain ⟨expected, endpoint, v, cert, cache, hreceived, hfound, hfail, rfl⟩ := h
    refine ⟨(expected, v), _, receive_eq_ok.mpr ⟨endpoint, hreceived, rfl⟩, ?_⟩
    refine Effect.error_of_bind.mpr (.inl (Effect.zoom_eq_iff.mpr ⟨cache, ?_, rfl⟩))
    exact verifyReceived_invalid.mpr ⟨cert, hfound, hfail⟩

/-- The client's own complaint names the two nonces the wrong way round. -/
theorem reportDataValidator_eq_fail {nonce : UInt64} {vmData : Block 64}
    {e : ReportVerificationError} :
    reportDataValidator nonce vmData = Outcome.fail e ↔
      nonce ≠ (ReportData.ofBlock vmData).nonce ∧
        e = .reportDataMismatch
          ("0x" ++ Bytes.formatHex (ReportData.ofBlock vmData).nonce.toNat)
          ("0x" ++ Bytes.formatHex nonce.toNat) := by
  unfold reportDataValidator Outcome.fail
  rw [Outcome.ensure_eq_error]
  simp

/-- The four checks that come before the report data. -/
theorem firstFailing_reportData {v : Verification C} :
    v.FirstFailing .reportData ↔ ¬ v.Holds .reportData ∧
      ∀ c ∈ [Check.policy, .idBlock, .tcb, .platInfo], v.Holds c := by
  refine ⟨fun h => ⟨h.1, h.before rfl (by decide) (by decide)⟩, ?_⟩
  intro h
  exact ⟨h.1, _, [.hostData, .launchDigest, .signature], rfl, h.2⟩

/-- Such a report is rejected for its nonce, which is called the expected one. -/
theorem run_of_meetsAllButNonce {t : Traces} (h : MeetsAllButNonce J C env args t) :
    ∃ expected resetEndpoint v t', Received J C env args expected resetEndpoint v ∧
      v.nonce ≠ (ReportData.ofBlock v.report.reportData).nonce ∧
      run J C env args t = (Outcome.fail (.invalidReport (.reportDataMismatch
        ("0x" ++ Bytes.formatHex (ReportData.ofBlock v.report.reportData).nonce.toNat)
        ("0x" ++ Bytes.formatHex v.nonce.toNat))), t') := by
  obtain ⟨expected, endpoint, v, cert, cache, hreceived, hfound, hchecks, hne⟩ := h
  have hcomplaint := reportDataValidator_eq_fail.mpr ⟨hne, rfl⟩
  have hfirst : (expected.verification v.report cert
      (reportDataValidator v.nonce)).FirstFailing .reportData := by
    refine firstFailing_reportData.mpr ⟨?_, hchecks⟩
    intro hholds
    exact hne (reportDataValidator_eq_ok.mp (hholds _ rfl))
  have hfail := (Verification.verify_eq_error _).mpr ⟨.reportData, hfirst, _, rfl, hcomplaint⟩
  exact ⟨expected, endpoint, v, _, hreceived, hne,
    run_invalid.mpr ⟨expected, endpoint, v, cert, cache, hreceived, hfound, hfail, rfl⟩⟩

/-- **The client rejects truthfully exactly where it does not get to the nonce, or the nonce
is right.** -/
theorem rejectsTruthfully_iff (t : Traces) :
    RejectsTruthfully J C env args t ↔ ¬ MeetsAllButNonce J C env args t := by
  refine ⟨?_, ?_⟩
  · intro h hmeets
    obtain ⟨expected, endpoint, v, t', hreceived, hne, hrun⟩ := run_of_meetsAllButNonce hmeets
    obtain ⟨_, _, v', _, hreceived', -, htruthful⟩ := h _ _ hrun
    obtain ⟨-, rfl⟩ := hreceived.unique hreceived'
    obtain ⟨hexpected, -, -⟩ := htruthful
    have hnonce := Bytes.formatHex_injective ((String.append_right_inj _).mp hexpected)
    exact hne (UInt64.toNat_inj.mp hnonce).symm
  · intro h e t' hrun
    obtain ⟨expected, endpoint, v, cert, cache, hreceived, hfound, hfail, rfl⟩ :=
      run_invalid.mp hrun
    refine ⟨expected, endpoint, v, cert, hreceived, hfound, ?_⟩
    refine Verification.truthful_of_verify hfail fun hfirst validate hvalidate he => ?_
    cases hvalidate
    obtain ⟨hne, -⟩ := reportDataValidator_eq_fail.mp he
    exact absurd ⟨expected, endpoint, v, cert, cache, hreceived, hfound,
      (firstFailing_reportData.mp hfirst).2, hne⟩ h

end Client

/-! ### Both programs -/

/-- **When rejections are truthful.**  `verify_report` always rejects with what it required,
what the report has, and a check that these two fail; the client does so too exactly if it
does not come to the nonce check with a nonce that is not its own. -/
theorem rejections_truthful_iff {env : Client.Env R} {args : Client.Args} (t : Client.Traces)
    {env' : VerifyReport.Env} {args' : VerifyReport.Args} (cache : Folder) :
    Client.RejectsTruthfully J C env args t ∧ VerifyReport.RejectsTruthfully J C env' args' cache
      ↔ ¬ Client.MeetsAllButNonce J C env args t := by
  rw [Client.rejectsTruthfully_iff]
  exact and_iff_left (VerifyReport.rejects cache)

/-- A report for the nonce 7. -/
def staleReport : AttestationReport :=
  { genuineReport 0 with reportData := (ReportData.mk 7 Ring.toyKey).encode }

theorem staleReport_nonce : (ReportData.ofBlock staleReport.reportData).nonce = 7 := by
  rw [staleReport, ReportData.ofBlock_encode]

theorem staleReport_meets : Client.MeetsAllButNonce Json.toy Crates.toy (.toy staleReport)
    (.toy "key") .none := by
  obtain ⟨cache, hfound, -⟩ :=
    lookupVcek_found Amd.toy_laws VcekAccess.toy_available staleReport .milan
  refine ⟨.toy, _, .toy staleReport, _, cache, Client.toy_received staleReport "key", hfound,
    ?_, ?_⟩
  · intro c hc
    have hcases : c = .policy ∨ c = .idBlock ∨ c = .tcb ∨ c = .platInfo := by simpa using hc
    obtain rfl | rfl | rfl | rfl := hcases
    · rintro _ ⟨⟩
      rfl
    · rintro _ ⟨⟩
    · rintro _ ⟨⟩
      exact ⟨UInt8.le_refl _, UInt8.le_refl _, UInt8.le_refl _, UInt8.le_refl _⟩
    · rintro _ ⟨⟩
      rfl
  · show (0 : UInt64) ≠ (ReportData.ofBlock staleReport.reportData).nonce
    rw [staleReport_nonce]
    decide

/-- A client with the nonce 0 says that it expected the nonce 7 and got the nonce 0. -/
theorem nonces_swapped :
    (∃ t', Client.run Json.toy Crates.toy (.toy staleReport) (.toy "key") .none
      = (Outcome.fail (.invalidReport (.reportDataMismatch "0x7" "0x0")), t')) ∧
    ¬ Client.RejectsTruthfully Json.toy Crates.toy (.toy staleReport) (.toy "key") .none := by
  refine ⟨?_, fun h => (Client.rejectsTruthfully_iff _).mp h staleReport_meets⟩
  obtain ⟨_, _, v, t', hreceived, -, hrun⟩ := Client.run_of_meetsAllButNonce staleReport_meets
  obtain ⟨-, rfl⟩ := (Client.toy_received staleReport "key").unique hreceived
  refine ⟨t', ?_⟩
  have hown : "0x" ++ Bytes.formatHex (Client.Verified.toy staleReport).nonce.toNat = "0x0" := by
    decide
  have hreport : "0x" ++ Bytes.formatHex (ReportData.ofBlock
      (Client.Verified.toy staleReport).report.reportData).nonce.toNat = "0x7" := by
    show "0x" ++ Bytes.formatHex (ReportData.ofBlock staleReport.reportData).nonce.toNat = "0x7"
    rw [staleReport_nonce]
    decide
  rw [hown, hreport] at hrun
  exact hrun

end SnpGuard
