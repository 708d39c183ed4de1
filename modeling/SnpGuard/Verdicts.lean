/-
The client and `verify_report` agree on a report.

Both programs read the config, the command line that overrides it and the ID blocks, look up
a certificate and check the report; they do so in a different order, and the code of one is
not shared with the other.  What differs is the report data: the client wants its nonce in
the first eight bytes, and `verify_report` compares all of it or nothing.  So on the report
that a client dumped, `verify_report` without `--report-data` comes to the client's verdict,
but for the nonce (`verdicts_agree`).
-/
import SnpGuard.Completeness

namespace SnpGuard

variable {R : Ring} {J : Json} {C : Crates}

namespace Client

variable {env : Env R} {args : Args}

/-- A client received `v.report` in answer to `v.nonce`, and stored it if it was to. -/
structure Answered (J : Json) (env : Env R) (args : Args) (resetEndpoint : Url) (v : Verified) :
    Prop where
  random : ∃ buffer, env.random = some buffer ∧ v.nonce = Bytes.u64OfLE buffer
  url : env.parseUrl args.serverUrl = some v.url
  endpoint : v.url.join "reset" = some resetEndpoint
  reset : ∃ status body, env.sendReset (resetRequest resetEndpoint) = .response status body
  report : ∃ status body,
    env.sendAttestation (attestationRequest J v.url v.nonce) = .response status (some body) ∧
      J.report.decode body = some v.report
  dumps : Dumps env args

/-- The traces of a client that has a report. -/
def answeredTraces (J : Json) (args : Args) (resetEndpoint : Url) (v : Verified) (t : Traces) :
    Traces :=
  { t with
    posted := t.posted ++ [resetRequest resetEndpoint, attestationRequest J v.url v.nonce]
    dump := dumped J args v.report t.dump }

/-- **Once a report is there, phase 1 is its verification.** -/
theorem phase1_of_answered {resetEndpoint : Url} {v : Verified}
    (h : Answered J env args resetEndpoint v) {expected : Expected}
    (hexpected : readExpected C env.files args.verifier "config" = .ok expected) (t : Traces) :
    phase1 J C env args t
      = (Effect.zoom Traces.cache (fun cache t => { t with cache })
          (verifyReceived C env.vcek expected v.report (reportDataValidator v.nonce))
          >>= fun _ => pure v) (answeredTraces J args resetEndpoint v t) := by
  have hreceived : Received J C env args expected resetEndpoint v :=
    ⟨hexpected, h.random, h.url, h.endpoint, h.reset, h.report, h.dumps⟩
  have hreceive : receive J C env args t
      = (.ok (expected, v), answeredTraces J args resetEndpoint v t) :=
    receive_eq_ok.mpr ⟨resetEndpoint, hreceived, rfl⟩
  rw [phase1_eq, Effect.bind_of_ok hreceive]

/-- It passes when the verification does. -/
theorem phase1_iff_verified {resetEndpoint : Url} {v : Verified}
    (h : Answered J env args resetEndpoint v) {t : Traces} :
    (∃ v' t', phase1 J C env args t = (.ok v', t')) ↔
      ∃ expected, readExpected C env.files args.verifier "config" = .ok expected ∧
        ∃ cache', verifyReceived C env.vcek expected v.report (reportDataValidator v.nonce) t.cache
          = (.ok (), cache') := by
  refine ⟨?_, ?_⟩
  · intro hok
    obtain ⟨v', t', hok⟩ := hok
    obtain ⟨expected, _, _, hreceived, -, -⟩ := phase1_eq_ok.mp hok
    rw [phase1_of_answered h hreceived.expected, Effect.ok_of_bind] at hok
    obtain ⟨_, _, hzoom, -⟩ := hok
    obtain ⟨cache', hverify, -⟩ := Effect.zoom_eq_ok.mp hzoom
    exact ⟨expected, hreceived.expected, cache', hverify⟩
  · intro hok
    obtain ⟨expected, hexpected, cache', hverify⟩ := hok
    refine ⟨v, { answeredTraces J args resetEndpoint v t with cache := cache' }, ?_⟩
    rw [phase1_of_answered h hexpected, Effect.ok_of_bind]
    exact ⟨(), _, Effect.zoom_eq_ok.mpr ⟨cache', hverify, rfl⟩, rfl⟩

/-- The report is in the dump file, whatever becomes of its verification. -/
theorem phase1_dump {resetEndpoint : Url} {v : Verified}
    (h : Answered J env args resetEndpoint v) {expected : Expected}
    (hexpected : readExpected C env.files args.verifier "config" = .ok expected) (t : Traces) :
    (phase1 J C env args t).2.dump = dumped J args v.report t.dump := by
  have hkept : ∀ (x : Effect Folder UserError Unit) (s : Traces),
      ((Effect.zoom Traces.cache (fun cache t => { t with cache }) x
        >>= fun _ => pure v) s).2.dump = s.dump := by
    intro x s
    rcases hx : x s.cache with ⟨e | u, cache⟩
    · rw [Effect.bind_of_error (show Effect.zoom _ _ x s = (.error e, { s with cache }) by
        simp [Effect.zoom, hx])]
    · rw [Effect.bind_of_ok (show Effect.zoom _ _ x s = (.ok u, { s with cache }) by
        simp [Effect.zoom, hx])]
      rfl
  rw [phase1_of_answered h hexpected, hkept]
  rfl

end Client

/-! ### `verify_report` on the dumped report -/

/-- `verify_report` passes when the verification does. -/
theorem VerifyReport.run_iff_verified (hbase64 : C.base64DecodeNoPad [] = some [])
    {env : VerifyReport.Env} {args : VerifyReport.Args} (hnone : args.reportData = "")
    {bytes : Bytes} (hfile : env.files.read args.input = some bytes) {r : AttestationReport}
    (hdecode : J.report.decode bytes = some r) {cache : Folder} :
    (∃ cache', VerifyReport.run J C env args cache = (.ok (), cache')) ↔
      ∃ expected, readExpected C env.files args.verifier "vm config" = .ok expected ∧
        ∃ cache', verifyReceived C env.vcek expected r anyReportData cache = (.ok (), cache') := by
  have hdata : VerifyReport.decodeReportData C args = .ok (Block.padded [] (by simp)) := by
    have hempty : C.base64DecodeNoPad (Bytes.ofString args.reportData) = some [] := by
      rw [hnone]
      exact hbase64
    unfold VerifyReport.decodeReportData
    rw [hempty]
    rfl
  refine ⟨?_, ?_⟩
  · intro h
    obtain ⟨cache', h⟩ := h
    obtain ⟨r', expected, data, hloaded, hverify⟩ := VerifyReport.run_eq_ok.mp h
    obtain ⟨hr, -, -⟩ := Loaded.unique ⟨⟨bytes, hfile, hdecode⟩, hloaded.expected, hdata⟩ hloaded
    rw [hr, VerifyReport.reportDataValidator_none hnone] at hverify
    exact ⟨expected, hloaded.expected, cache', hverify⟩
  · intro h
    obtain ⟨expected, hexpected, cache', hverify⟩ := h
    refine ⟨cache', VerifyReport.run_eq_ok.mpr
      ⟨r, expected, _, ⟨⟨bytes, hfile, hdecode⟩, hexpected, hdata⟩, ?_⟩⟩
    rw [VerifyReport.reportDataValidator_none hnone]
    exact hverify

/-! ### The verdicts -/

/-- The same certificate, or none for both. -/
theorem verifyReceived_of_lookup {access access' : VcekAccess} {expected : Expected}
    {r : AttestationReport} {validator : ReportDataValidator} {cache cache' : Folder}
    (h : ∀ p, (lookupVcek C access' r p cache').1 = (lookupVcek C access r p cache).1) :
    (∃ c, verifyReceived C access' expected r validator cache' = (.ok (), c)) ↔
      ∃ c, verifyReceived C access expected r validator cache = (.ok (), c) := by
  have hone : ∀ {a a' : VcekAccess} {f f' : Folder},
      (∀ p, (lookupVcek C a' r p f').1 = (lookupVcek C a r p f).1) →
      (∃ c, verifyReceived C a' expected r validator f' = (.ok (), c)) →
      ∃ c, verifyReceived C a expected r validator f = (.ok (), c) := by
    intro a a' f f' hsame hok
    obtain ⟨c, hok⟩ := hok
    obtain ⟨cert, hlookup, hrest⟩ := verifyReceived_eq_ok.mp hok
    have hcert : (lookupVcek C a r expected.vmDescription.hostCpuFamily f).1 = .ok cert := by
      rw [← hsame, hlookup]
    obtain ⟨c', hlookup'⟩ := Effect.exists_of_fst hcert
    exact ⟨c', verifyReceived_eq_ok.mpr ⟨cert, hlookup', hrest⟩⟩
  exact ⟨hone h, hone fun p => (h p).symm⟩

/-- A client that received `v.report`, and `verify_report` on what it dumped: they were given
the same files and ID blocks, and find the same certificate. -/
structure Compared (J : Json) (C : Crates) (env : Client.Env R) (args : Client.Args)
    (t : Client.Traces) (v : Client.Verified) (env' : VerifyReport.Env)
    (args' : VerifyReport.Args) (cache : Folder) : Prop where
  answered : ∃ resetEndpoint, Client.Answered J env args resetEndpoint v
  dumps : args.dumpReport.isSome
  input : env'.files.read args'.input = (Client.phase1 J C env args t).2.dump
  verifier : args'.verifier = args.verifier
  noReportData : args'.reportData = ""
  files : env.files.Agree env'.files args.verifier
  lookup : ∀ p, (lookupVcek C env'.vcek v.report p cache).1
    = (lookupVcek C env.vcek v.report p t.cache).1

/-- **The verdicts agree, but for the nonce.**  The client gets past verification exactly when
`verify_report` accepts the dumped report and the report answers the client's nonce. -/
theorem verdicts_agree (hjson : ∀ r, J.report.decode (J.reportPretty r) = some r)
    (hbase64 : C.base64DecodeNoPad [] = some []) {env : Client.Env R} {args : Client.Args}
    {t : Client.Traces} {v : Client.Verified} {env' : VerifyReport.Env}
    {args' : VerifyReport.Args} {cache : Folder} (h : Compared J C env args t v env' args' cache) :
    (∃ v' t', Client.phase1 J C env args t = (.ok v', t')) ↔
      (∃ cache', VerifyReport.run J C env' args' cache = (.ok (), cache')) ∧
        Bytes.u64OfLE (Block.slice v.report.reportData.bytes 0 8 (by simp)) = v.nonce := by
  obtain ⟨resetEndpoint, hanswered⟩ := h.answered
  have hread : ∀ {expected}, readExpected C env'.files args'.verifier "vm config" = .ok expected ↔
      readExpected C env.files args.verifier "config" = .ok expected := by
    intro expected
    rw [h.verifier]
    exact readExpected_agree h.files
  -- Where the files can be read, the report was dumped and is the one that is checked.
  have hrun : ∀ {expected}, readExpected C env.files args.verifier "config" = .ok expected →
      ((∃ cache', VerifyReport.run J C env' args' cache = (.ok (), cache')) ↔
        ∃ expected, readExpected C env'.files args'.verifier "vm config" = .ok expected ∧
          ∃ cache', verifyReceived C env'.vcek expected v.report anyReportData cache
            = (.ok (), cache')) := by
    intro expected hexpected
    have hfile : env'.files.read args'.input = some (J.reportPretty v.report) := by
      rw [h.input, Client.phase1_dump hanswered hexpected, Client.dumped, if_pos h.dumps]
    exact VerifyReport.run_iff_verified hbase64 h.noReportData hfile (hjson v.report)
  rw [Client.phase1_iff_verified hanswered]
  refine ⟨?_, ?_⟩
  · intro hok
    obtain ⟨expected, hexpected, cache', hverify⟩ := hok
    obtain ⟨hany, hnonce⟩ := verifyReceived_iff_any.mp hverify
    refine ⟨(hrun hexpected).mpr ⟨expected, hread.mpr hexpected, ?_⟩, ?_⟩
    · exact (verifyReceived_of_lookup h.lookup).mpr ⟨cache', hany⟩
    · exact (Client.reportDataValidator_eq_ok.mp hnonce).symm
  · intro hok
    obtain ⟨⟨cache', hok⟩, hnonce⟩ := hok
    obtain ⟨_, expected, _, hloaded, -⟩ := VerifyReport.run_eq_ok.mp hok
    have hexpected := hread.mp hloaded.expected
    obtain ⟨expected', hexpected', hany'⟩ := (hrun hexpected).mp ⟨cache', hok⟩
    obtain ⟨cache'', hany⟩ := (verifyReceived_of_lookup h.lookup).mp hany'
    refine ⟨expected', hread.mp hexpected', cache'', verifyReceived_iff_any.mpr ⟨hany, ?_⟩⟩
    exact Client.reportDataValidator_eq_ok.mpr hnonce.symm

/-! ### A report that both accept -/

/-- A client that dumps its report. -/
def Client.Args.dumping : Client.Args := ⟨"http://localhost", "key", some "report.json", .toy⟩

theorem Client.toy_answered (r : AttestationReport) :
    Client.Answered Json.toy (.toy r) .dumping ⟨"/reset", none, true⟩ (.toy r) where
  random := by
    have hbuffer : (0 : UInt64) = Bytes.u64OfLE (Block.zero 8) := by decide
    exact ⟨Block.zero 8, rfl, hbuffer⟩
  url := rfl
  endpoint := by
    show Client.Url.root.join "reset" = _
    decide
  reset := ⟨_, _, rfl⟩
  report := ⟨_, _, rfl, Json.toy_roundTrips.report r⟩
  dumps := fun _ => ⟨rfl, rfl⟩

theorem Compared.toy (r : AttestationReport) :
    Compared Json.toy Crates.toy (.toy r) .dumping .none (.toy r) ⟨.toy r, .toy⟩ .toy
      (fun _ => none) where
  answered := ⟨_, Client.toy_answered r⟩
  dumps := rfl
  input := (Client.phase1_dump (Client.toy_answered r) (Expected.toy_read r "config") .none).symm
  verifier := rfl
  noReportData := rfl
  files := ⟨rfl, rfl, fun _ _ => rfl, fun _ _ => rfl⟩
  lookup _ := rfl

/-- The client passes when the verification of the report does. -/
theorem Client.toy_phase1 {r : AttestationReport}
    (h : ∃ cache', verifyReceived Crates.toy .toy .toy r (reportDataValidator 0)
      (fun _ => Option.none) = (.ok (), cache')) :
    ∃ v t, phase1 Json.toy Crates.toy (.toy r) .dumping .none = (.ok v, t) :=
  (phase1_iff_verified (toy_answered r)).mpr ⟨.toy, Expected.toy_read r "config", h⟩

/-- The client gets past verification of a genuine report, so `verify_report` accepts it. -/
theorem verdicts_agree_genuine :
    ∃ cache', VerifyReport.run Json.toy Crates.toy ⟨.toy (genuineReport 0), .toy⟩ .toy
      (fun _ => none) = (.ok (), cache') := by
  have hmet : Expected.toy.MetBy (genuineReport 0) (Client.reportDataValidator 0) :=
    Expected.toy_met 0 (Client.reportDataValidator_eq_ok.mpr (by decide))
  have hgenuine : Amd.toy.Genuine Expected.toy.vmDescription.hostCpuFamily (genuineReport 0) :=
    genuineReport_genuine 0
  have hverified : ∃ cache', verifyReceived Crates.toy .toy .toy (genuineReport 0)
      (Client.reportDataValidator 0) (fun _ => none) = (.ok (), cache') :=
    (verifyReceived_iff Amd.toy_laws VcekAccess.toy_available hgenuine hmet).mpr
      ⟨rfl, rfl, rfl, rfl⟩
  exact ((verdicts_agree Json.toy_roundTrips.reportPretty rfl
    (Compared.toy (genuineReport 0))).mp (Client.toy_phase1 hverified)).1

end SnpGuard
