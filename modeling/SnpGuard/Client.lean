/-
The client: `client_main.rs`.

Phase 1 resets the server, asks it for a report and verifies what comes back.
Phase 2 agrees on a secret with the key in the report, wraps the disk key under it
and posts it.  The client is a chain of fallible steps that leaves three kinds of
traces: the requests it posted, the report it dumped, and the certificate cache.

The server's answers are functions of the client's requests, so that a run of the
client can be put next to a server.  Of an answer the client looks only at the body,
and of the answers to the first and the last request at nothing: a request that was
sent counts as one that succeeded, whatever its status.
-/
import SnpGuard.Expected
import SnpGuard.Server

namespace SnpGuard.Client

/-- A `reqwest::Url`, as far as the request line shows it. -/
structure Url where
  path : String
  query : Option String
  /-- Whether something can be joined to it. -/
  isBase : Bool
deriving DecidableEq

/-- What the server sees in the request line. -/
def Url.target (url : Url) : String :=
  match url.query with
  | some query => url.path ++ "?" ++ query
  | none => url.path

/-- The part of a path up to its last slash. -/
def directory (path : String) : String :=
  String.ofList (path.toList.reverse.dropWhile (· ≠ '/')).reverse

/-- `Url::join` with a single segment: it takes the place of what follows the last slash. -/
def Url.join (url : Url) (segment : String) : Option Url :=
  if url.isBase then some { url with path := directory url.path ++ segment, query := none }
  else none

/-- The URL of a server without a path. -/
def Url.root : Url := ⟨"/", none, true⟩

example : (Url.root.join "reset").map Url.target = some "/reset" := by decide

structure Args where
  serverUrl : String
  diskKey : String
  dumpReport : Option String
  verifier : VerifierArgs

/-- What the client's calls come back with. -/
structure Env (R : Ring) where
  files : Files
  /-- `rng.fill` on eight bytes. -/
  random : Option (Block 8)
  parseUrl : String → Option Url
  sendReset : Server.Request → HttpResult
  sendAttestation : Server.Request → HttpResult
  sendKey : Server.Request → HttpResult
  dumpCreates : Bool
  /-- How many bytes of the dump were written before it failed, if it failed. -/
  dumpFailsAfter : Option Nat
  vcek : VcekAccess
  /-- `EphemeralPrivateKey::generate`. -/
  generated : Option R.PrivateKey
  computes : Bool

/-- What a run of the client leaves behind. -/
structure Traces where
  posted : List Server.Request
  dump : Option Bytes
  cache : Folder

variable {R : Ring} (J : Json) (C : Crates) (env : Env R) (args : Args)

/-! ### Steps -/

/-- `client.post(..).send()`, with the body that came back. -/
def post (send : Server.Request → HttpResult) (req : Server.Request) (msg : String) :
    Effect Traces UserError (Option Bytes) := fun t =>
  let t' := { t with posted := t.posted ++ [req] }
  match send req with
  | .failed => (Outcome.fail (.whatever msg), t')
  | .response _ body => (.ok body, t')

/-- Dump the report, if a path is given. -/
def dumpReport (report : AttestationReport) : Effect Traces UserError Unit := fun t =>
  match args.dumpReport with
  | none => (.ok (), t)
  | some path =>
    if env.dumpCreates then
      match env.dumpFailsAfter with
      | none => (.ok (), { t with dump := some (J.reportPretty report) })
      | some n =>
        (Outcome.fail (.whatever ("failed to serialize attestation report to file " ++ path)),
          { t with dump := some ((J.reportPretty report).take n) })
    else
      (Outcome.fail (.whatever ("failed to create report dump file at " ++ path)), t)

/-- `report_data_validator`: the report answers this run's nonce.  The error carries the
report's nonce as the expected one. -/
def reportDataValidator (nonce : UInt64) : ReportDataValidator := fun vmData =>
  let reportData := ReportData.ofBlock vmData
  Outcome.ensure (nonce = reportData.nonce)
    (.reportDataMismatch ("0x" ++ Bytes.formatHex reportData.nonce.toNat)
      ("0x" ++ Bytes.formatHex nonce.toNat))

/-- Agree on a secret with the key in the report and wrap the disk key under it. -/
def wrapDiskKey (nonce : UInt64) (report : AttestationReport) :
    Outcome UserError WrappedDiskKey := do
  let userReportData := ReportData.ofBlock report.reportData
  let clientPrivateKey ← Outcome.ofOption env.generated
    (.whatever "failed to generate private DH key for client")
  Outcome.ensure (env.computes = true) (.whatever "failed to generate public DH key for client")
  let clientPublicKey := R.computePublicKey clientPrivateKey
  let sharedSecret ← Outcome.ofOption
    (R.agreeEphemeral clientPrivateKey userReportData.serverPublicKey)
    (.whatever "failed to derive shared secret")
  let wrappedDiskKey ← Outcome.context (.whatever "failed to encrypt disk encryption key")
    (aeadEnc R sharedSecret nonce (Bytes.ofString args.diskKey))
  return { wrappedDiskKey, clientPublicKey }

/-- The requests of a run. -/
def resetRequest (resetEndpoint : Url) : Server.Request := ⟨resetEndpoint.target, []⟩

def attestationRequest (url : Url) (nonce : UInt64) : Server.Request :=
  ⟨url.target, J.attestationRequest.encode ⟨nonce⟩⟩

def keyRequest (url : Url) (wrapped : WrappedDiskKey) : Server.Request :=
  ⟨url.target, J.wrappedDiskKey.encode wrapped⟩

/-! ### The run -/

/-- What phase 1 hands to phase 2. -/
structure Verified where
  url : Url
  nonce : UInt64
  report : AttestationReport

/-- Phase 1: request the report and validate it. -/
def phase1 : Effect Traces UserError Verified := do
  let expected ← Effect.lift (Outcome.mapErr .whatever
    (readExpected C env.files args.verifier "config"))
  let buffer ← Effect.lift (Outcome.ofOption env.random (.whatever "failed to sample nonce"))
  let nonce := Bytes.u64OfLE buffer
  let url ← Effect.lift (Outcome.ofOption (env.parseUrl args.serverUrl)
    (.whatever ("Failed to parse server url " ++ args.serverUrl)))
  let resetEndpoint ← Effect.lift (Outcome.ofOption (url.join "reset")
    (.whatever "failed to assemble reset endpoint URL"))
  let _ ← post env.sendReset (resetRequest resetEndpoint)
    ("failed to send init request to attestation server at " ++ resetEndpoint.target)
  let body ← post env.sendAttestation (attestationRequest J url nonce)
    "failed to send nonce request"
  let report ← Effect.lift (Outcome.ofOption (body.bind J.report.decode)
    (.whatever "failed to parse attestation report request result as json"))
  dumpReport J env args report
  Effect.zoom Traces.cache (fun cache t => { t with cache })
    (verifyReceived C env.vcek expected report (reportDataValidator nonce))
  return { url, nonce, report }

/-- Phase 2: wrap the disk key and send it. -/
def phase2 (v : Verified) : Effect Traces UserError Unit := do
  let wrapped ← Effect.lift (wrapDiskKey env args v.nonce v.report)
  let _ ← post env.sendKey (keyRequest J v.url wrapped) "failed to send wrapped disk key"

/-- `run`. -/
def run : Effect Traces UserError Unit := do
  let verified ← phase1 J C env args
  phase2 J env args verified

variable {J C env args}

/-! ### What a successful run did -/

theorem post_eq_ok {send : Server.Request → HttpResult} {req : Server.Request} {msg : String}
    {t t' : Traces} {body : Option Bytes} :
    post send req msg t = (.ok body, t') ↔
      (∃ status, send req = .response status body) ∧
        t' = { t with posted := t.posted ++ [req] } := by
  unfold post
  cases hsend : send req with
  | failed => simp
  | response status body' =>
      simp only [Prod.mk.injEq, Except.ok.injEq, HttpResult.response.injEq]
      refine ⟨?_, ?_⟩
      · intro h
        exact ⟨⟨status, rfl, h.1⟩, h.2.symm⟩
      · intro h
        obtain ⟨⟨_, -, hbody⟩, ht⟩ := h
        exact ⟨hbody, ht.symm⟩

/-- The dump file after a run, if its directory and disk take it. -/
def dumped (J : Json) (args : Args) (report : AttestationReport) (dump : Option Bytes) :
    Option Bytes :=
  if args.dumpReport.isSome then some (J.reportPretty report) else dump

/-- Dumping succeeds when it is not asked for, or nothing goes wrong. -/
def Dumps (env : Env R) (args : Args) : Prop :=
  args.dumpReport.isSome → env.dumpCreates = true ∧ env.dumpFailsAfter = none

theorem dumpReport_eq_ok {report : AttestationReport} {t t' : Traces} {u : Unit} :
    dumpReport J env args report t = (.ok u, t') ↔
      Dumps env args ∧ t' = { t with dump := dumped J args report t.dump } := by
  unfold dumpReport Dumps dumped
  cases args.dumpReport with
  | none =>
      simp only [Prod.mk.injEq, true_and, Option.isSome_none, Bool.false_eq_true, false_implies,
        if_false]
      exact eq_comm
  | some path =>
      by_cases hcreates : env.dumpCreates = true
      · cases hfails : env.dumpFailsAfter with
        | none =>
            simp only [hcreates, if_true, Prod.mk.injEq, true_and, Option.isSome_some, and_self,
              imp_self]
            exact eq_comm
        | some n => simp [hcreates]
      · simp [hcreates]

theorem reportDataValidator_eq_ok {nonce : UInt64} {vmData : Block 64} :
    reportDataValidator nonce vmData = .ok () ↔ nonce = (ReportData.ofBlock vmData).nonce := by
  unfold reportDataValidator
  rw [Outcome.ensure_eq_ok]

/-- **Report data, from the server to the client.**  Encoding never fails and decoding undoes
it; 64 bytes are an encoding exactly if bytes 40 to 63 are zero; two pairs of a nonce and a key
never encode alike; and the client takes a report that the server made for a nonce exactly if
that nonce is its own. -/
theorem reportData_codec {ε : Type} (config : Server.Config) {fw : Firmware} (hfw : fw.Binds) :
    (∀ d : ReportData, ∃ b, (d.into : Outcome ε (Block 64)) = .ok b ∧ ReportData.ofBlock b = d) ∧
    (∀ b : Block 64, ((ReportData.ofBlock b).into : Outcome ε (Block 64)) = .ok b ↔
      b.bytes.drop 40 = List.replicate 24 0) ∧
    (∀ d d' : ReportData, (d.into : Outcome ε (Block 64)) = d'.into → d = d') ∧
    ∀ m nonce k report, Server.getReport config fw m k = .ok report →
      (reportDataValidator nonce report.reportData = .ok () ↔ m = nonce) := by
  refine ⟨?_, ?_, ?_, ?_⟩
  · intro d
    exact ⟨d.encode, ReportData.into_eq d, ReportData.ofBlock_encode d⟩
  · intro b
    rw [ReportData.into_eq, Except.ok.injEq]
    exact ReportData.encode_ofBlock_iff
  · intro d d' h
    rw [ReportData.into_eq, ReportData.into_eq, Except.ok.injEq] at h
    exact ReportData.encode_injective h
  · intro m nonce k report hreport
    rw [reportDataValidator_eq_ok, Server.getReport_reportData hfw hreport,
      ReportData.ofBlock_encode]
    exact eq_comm

/-- A report that was made for another nonce is refused. -/
theorem reportData_codec_toy : ∃ report, Server.getReport ⟨false, false⟩ .toy 7 Ring.toyKey
      = .ok report ∧ reportDataValidator 7 report.reportData = .ok () ∧
    reportDataValidator 8 report.reportData ≠ .ok () := by
  have hbinds : Firmware.toy.Binds := by
    intro data r h
    cases h
    rfl
  obtain ⟨-, -, -, hcheck⟩ := reportData_codec (ε := Unit) ⟨false, false⟩ hbinds
  refine ⟨_, rfl, (hcheck 7 7 Ring.toyKey _ rfl).mpr rfl, ?_⟩
  intro h
  exact absurd ((hcheck 7 8 Ring.toyKey _ rfl).mp h) (by decide)

/-- **The disk key is wrapped for the key in the report, under this run's nonce.** -/
theorem wrapDiskKey_eq_ok {nonce : UInt64} {report : AttestationReport}
    {wrapped : WrappedDiskKey} :
    wrapDiskKey env args nonce report = .ok wrapped ↔
      ∃ priv secret, env.generated = some priv ∧ env.computes = true ∧
        R.agreeEphemeral priv (ReportData.ofBlock report.reportData).serverPublicKey
          = some secret ∧
        aeadEnc R secret nonce (Bytes.ofString args.diskKey) = .ok wrapped.wrappedDiskKey ∧
        wrapped.clientPublicKey = R.computePublicKey priv := by
  unfold wrapDiskKey
  simp only [Outcome.ok_of_bind, Outcome.ofOption_eq_ok, Outcome.ensure_eq_ok, exists_const,
    Outcome.context_eq_ok, Outcome.pure_eq_ok, Except.ok.injEq]
  refine ⟨?_, ?_⟩
  · intro h
    obtain ⟨priv, hpriv, hcomp, secret, hsecret, cipher, hcipher, rfl⟩ := h
    exact ⟨priv, secret, hpriv, hcomp, hsecret, hcipher, rfl⟩
  · intro h
    obtain ⟨priv, secret, hpriv, hcomp, hsecret, hcipher, hpub⟩ := h
    exact ⟨priv, hpriv, hcomp, secret, hsecret, _, hcipher, by rw [← hpub]⟩

/-- Phase 1 up to the verification: the files are there, the server answered twice and
the second answer is a report. -/
structure Received (J : Json) (C : Crates) (env : Env R) (args : Args) (expected : Expected)
    (resetEndpoint : Url) (v : Verified) : Prop where
  expected : readExpected C env.files args.verifier "config" = .ok expected
  random : ∃ buffer, env.random = some buffer ∧ v.nonce = Bytes.u64OfLE buffer
  url : env.parseUrl args.serverUrl = some v.url
  endpoint : v.url.join "reset" = some resetEndpoint
  reset : ∃ status body, env.sendReset (resetRequest resetEndpoint) = .response status body
  report : ∃ status body,
    env.sendAttestation (attestationRequest J v.url v.nonce) = .response status (some body) ∧
      J.report.decode body = some v.report
  dumps : Dumps env args

/-- What is received depends on the environment alone. -/
theorem Received.unique {expected expected' : Expected} {endpoint endpoint' : Url}
    {v v' : Verified} (h : Received J C env args expected endpoint v)
    (h' : Received J C env args expected' endpoint' v') : expected' = expected ∧ v' = v := by
  obtain ⟨buffer, hbuffer, hnonce⟩ := h.random
  obtain ⟨buffer', hbuffer', hnonce'⟩ := h'.random
  obtain ⟨status, body, hsend, hdecode⟩ := h.report
  obtain ⟨status', body', hsend', hdecode'⟩ := h'.report
  have hexpected := h'.expected
  have hurl := h'.url
  rw [h.expected, Except.ok.injEq] at hexpected
  rw [h.url, Option.some.injEq] at hurl
  rw [hbuffer, Option.some.injEq] at hbuffer'
  rw [← hbuffer', ← hnonce] at hnonce'
  rw [← hurl, hnonce', hsend, HttpResult.response.injEq, Option.some.injEq] at hsend'
  rw [← hsend'.2, hdecode, Option.some.injEq] at hdecode'
  obtain ⟨url, nonce, report⟩ := v
  obtain ⟨url', nonce', report'⟩ := v'
  simp only at hurl hnonce' hdecode'
  exact ⟨hexpected.symm, by rw [hurl, hnonce', hdecode']⟩

/-- Phase 1 up to the verification. -/
def receive (J : Json) (C : Crates) (env : Env R) (args : Args) :
    Effect Traces UserError (Expected × Verified) := do
  let expected ← Effect.lift (Outcome.mapErr .whatever
    (readExpected C env.files args.verifier "config"))
  let buffer ← Effect.lift (Outcome.ofOption env.random (.whatever "failed to sample nonce"))
  let nonce := Bytes.u64OfLE buffer
  let url ← Effect.lift (Outcome.ofOption (env.parseUrl args.serverUrl)
    (.whatever ("Failed to parse server url " ++ args.serverUrl)))
  let resetEndpoint ← Effect.lift (Outcome.ofOption (url.join "reset")
    (.whatever "failed to assemble reset endpoint URL"))
  let _ ← post env.sendReset (resetRequest resetEndpoint)
    ("failed to send init request to attestation server at " ++ resetEndpoint.target)
  let body ← post env.sendAttestation (attestationRequest J url nonce)
    "failed to send nonce request"
  let report ← Effect.lift (Outcome.ofOption (body.bind J.report.decode)
    (.whatever "failed to parse attestation report request result as json"))
  dumpReport J env args report
  return (expected, { url, nonce, report })

theorem phase1_eq : phase1 J C env args = receive J C env args >>= fun x =>
    Effect.zoom Traces.cache (fun cache t => { t with cache })
      (verifyReceived C env.vcek x.1 x.2.report (reportDataValidator x.2.nonce)) >>= fun _ =>
    pure x.2 := by
  simp only [phase1, receive, Effect.bind_assoc, Effect.pure_bind]

/-- The traces of a client that has a report. -/
def receivedTraces (J : Json) (args : Args) (resetEndpoint : Url) (v : Verified) (t : Traces) :
    Traces :=
  { t with
    posted := t.posted ++ [resetRequest resetEndpoint, attestationRequest J v.url v.nonce]
    dump := dumped J args v.report t.dump }

/-- A report is received when the files are there and the server answers twice. -/
theorem receive_eq_ok {t t' : Traces} {x : Expected × Verified} :
    receive J C env args t = (.ok x, t') ↔ ∃ resetEndpoint,
      Received J C env args x.1 resetEndpoint x.2 ∧
        t' = receivedTraces J args resetEndpoint x.2 t := by
  unfold receive
  simp only [Effect.ok_of_bind, Effect.lift_eq_ok, Outcome.mapErr_eq_ok,
    Outcome.ofOption_eq_ok, post_eq_ok, dumpReport_eq_ok, Effect.pure_eq_ok]
  refine ⟨?_, ?_⟩
  · intro h
    obtain ⟨expected, _, ⟨hexpected, rfl⟩, buffer, _, ⟨hbuffer, rfl⟩, url, _, ⟨hurl, rfl⟩,
      endpoint, _, ⟨hendpoint, rfl⟩, _, _, ⟨⟨status, hreset⟩, rfl⟩, body, _,
      ⟨⟨status', hsend⟩, rfl⟩, report, _, ⟨hreport, rfl⟩, _, _, ⟨hdumps, rfl⟩, rfl, rfl⟩ := h
    obtain ⟨bytes, hbytes, hdecode⟩ := Option.bind_eq_some_iff.mp hreport
    refine ⟨endpoint, ?_, ?_⟩
    · exact ⟨hexpected, ⟨buffer, hbuffer, rfl⟩, hurl, hendpoint, ⟨status, _, hreset⟩,
        ⟨status', bytes, by rw [hsend, hbytes], hdecode⟩, hdumps⟩
    · simp [receivedTraces]
  · intro h
    obtain ⟨endpoint, hreceived, rfl⟩ := h
    obtain ⟨hexpected, ⟨buffer, hbuffer, hnonce⟩, hurl, hendpoint, ⟨status, body, hreset⟩,
      ⟨status', bytes, hsend, hdecode⟩, hdumps⟩ := hreceived
    obtain ⟨expected, url, nonce, report⟩ := x
    simp only at hexpected hnonce hurl hendpoint hsend hdecode
    subst hnonce
    refine ⟨expected, _, ⟨hexpected, rfl⟩, buffer, _, ⟨hbuffer, rfl⟩, url, _, ⟨hurl, rfl⟩,
      endpoint, _, ⟨hendpoint, rfl⟩, body, _, ⟨⟨status, hreset⟩, rfl⟩, some bytes, _,
      ⟨⟨status', hsend⟩, rfl⟩, report, _, ⟨hdecode, rfl⟩, (), _, ⟨hdumps, rfl⟩, rfl, ?_⟩
    simp [receivedTraces]

/-- **Phase 1 succeeds when a report was received that passes verification.** -/
theorem phase1_eq_ok {t t' : Traces} {v : Verified} :
    phase1 J C env args t = (.ok v, t') ↔
      ∃ expected resetEndpoint cache, Received J C env args expected resetEndpoint v ∧
        verifyReceived C env.vcek expected v.report (reportDataValidator v.nonce) t.cache
          = (.ok (), cache) ∧
        t' = { posted := t.posted ++ [resetRequest resetEndpoint,
                 attestationRequest J v.url v.nonce],
               dump := dumped J args v.report t.dump, cache } := by
  rw [phase1_eq]
  simp only [Effect.ok_of_bind, receive_eq_ok, Effect.zoom_eq_ok, Effect.pure_eq_ok]
  refine ⟨?_, ?_⟩
  · intro h
    obtain ⟨⟨expected, v'⟩, _, ⟨endpoint, hreceived, rfl⟩, _, _, ⟨cache, hverify, rfl⟩, rfl,
      rfl⟩ := h
    exact ⟨expected, endpoint, cache, hreceived, hverify, rfl⟩
  · intro h
    obtain ⟨expected, endpoint, cache, hreceived, hverify, rfl⟩ := h
    exact ⟨(expected, v), _, ⟨endpoint, hreceived, rfl⟩, (), _, ⟨cache, hverify, rfl⟩, rfl, rfl⟩

theorem phase2_eq_ok {v : Verified} {t t' : Traces} {u : Unit} :
    phase2 J env args v t = (.ok u, t') ↔
      ∃ wrapped, wrapDiskKey env args v.nonce v.report = .ok wrapped ∧
        (∃ status body, env.sendKey (keyRequest J v.url wrapped) = .response status body) ∧
        t' = { t with posted := t.posted ++ [keyRequest J v.url wrapped] } := by
  unfold phase2
  simp only [Effect.ok_of_bind, Effect.lift_eq_ok, post_eq_ok, Effect.pure_eq_ok]
  refine ⟨?_, ?_⟩
  · intro h
    obtain ⟨wrapped, _, ⟨hwrap, rfl⟩, body, _, ⟨⟨status, hsend⟩, rfl⟩, -, rfl⟩ := h
    exact ⟨wrapped, hwrap, ⟨status, body, hsend⟩, rfl⟩
  · intro h
    obtain ⟨wrapped, hwrap, ⟨status, body, hsend⟩, rfl⟩ := h
    exact ⟨wrapped, _, ⟨hwrap, rfl⟩, body, _, ⟨⟨status, hsend⟩, rfl⟩, trivial, rfl⟩

/-- **The client succeeds when phase 1 does, the key was wrapped, and something came back
for the request that carried it.** -/
theorem run_eq_ok {t t' : Traces} :
    run J C env args t = (.ok (), t') ↔
      ∃ v t₁ wrapped, phase1 J C env args t = (.ok v, t₁) ∧
        wrapDiskKey env args v.nonce v.report = .ok wrapped ∧
        (∃ status body, env.sendKey (keyRequest J v.url wrapped) = .response status body) ∧
        t' = { t₁ with posted := t₁.posted ++ [keyRequest J v.url wrapped] } := by
  unfold run
  rw [Effect.ok_of_bind]
  simp only [phase2_eq_ok]
  refine ⟨?_, ?_⟩
  · intro h
    obtain ⟨v, t₁, hphase, wrapped, hwrap, hsend, ht⟩ := h
    exact ⟨v, t₁, wrapped, hphase, hwrap, hsend, ht⟩
  · intro h
    obtain ⟨v, t₁, wrapped, hphase, hwrap, hsend, ht⟩ := h
    exact ⟨v, t₁, hphase, wrapped, hwrap, hsend, ht⟩

end SnpGuard.Client
