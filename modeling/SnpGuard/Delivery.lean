/-
An honest client at the server.

A client's three requests reach the server among any number of requests of others.
The client that was sent a report was answered from `ready` (`reported_of_reply`), and
the key it wraps for that report is acceptable under the session the report belongs to
(`accepts_wrapped`).  From these two follow both results here.

`delivered_iff` is about the client's verdict.  The client takes any answer to its
last request for success, so its `Ok` says nothing by itself: the key arrived exactly
when injection is enabled, nobody's request came between its last two, and the file
could be written.

`recovers` is about the server's past: whatever it was sent before, as long as it
runs, a reset and the client's other two requests bring the key into the file.
-/
import SnpGuard.Completeness
import SnpGuard.KeyWrapping
import SnpGuard.ServerRuns

namespace SnpGuard

open Server

variable {R : Ring} {J : Json} {C : Crates} {config : Server.Config}

/-! ### The client's side of a session -/

/-- What the peer of a server with status `st` gets for a request. -/
def answer (J : Json) (config : Server.Config) (st : Status R) (req : Request)
    (out : Outside R) : HttpResult :=
  match st with
  | .running w =>
    match reply J config w ⟨req, out⟩ with
    | .response status body => .response status (some body)
    | .broken => .failed
  | .finished _ _ => .failed

theorem answer_eq_response {st : Status R} {req : Request} {out : Outside R} {status : Nat}
    {body : Bytes} :
    answer J config st req out = .response status (some body) ↔
      ∃ w, st = .running w ∧ reply J config w ⟨req, out⟩ = .response status body := by
  unfold answer
  cases st with
  | running w => cases hreply : reply J config w ⟨req, out⟩ <;> simp [hreply]
  | finished e rest => simp

/-- Only a report is read as one: not an empty body, and not the body `Ok`. -/
structure Json.ReportOnly (J : Json) : Prop where
  empty : J.report.decode [] = none
  ok : J.report.decode (Bytes.ofString "Ok") = none

theorem Json.toy_reportOnly : Json.toy.ReportOnly where
  empty := Json.toy_report_decode_short (by decide)
  ok := Json.toy_report_decode_short (by decide)

/-- **Who gets a report was answered from `ready`.** -/
theorem reported_of_reply (hJ : J.RoundTrips) (hreport : J.ReportOnly) {w : World R}
    {i : Input R} {status : Nat} {body : Bytes} {report : AttestationReport}
    (h : reply J config w i = .response status body)
    (hdecode : J.report.decode body = some report) :
    ∃ params, w.state = .ready ∧ Answered J config i params ∧
      getReport config i.out.firmware params.nonce (R.computePublicKey params.ephServerDhKey)
        = .ok report := by
  have hempty : body ≠ [] := by
    intro hb
    rw [hb, hreport.empty] at hdecode
    simp at hdecode
  unfold reply handle at h
  by_cases hurl : "/reset" = i.req.url
  · rw [if_pos hurl] at h
    by_cases hresponds : i.out.responds = true
    · rw [if_pos hresponds] at h
      simp only [Reply.response.injEq] at h
      rw [← h.2, hreport.ok] at hdecode
      simp at hdecode
    · rw [if_neg hresponds] at h
      simp at h
  · rw [if_neg hurl] at h
    cases hstate : w.state with
    | ready =>
        simp only [hstate] at h
        have hreply : (sendReport J config i).2 = .response status body := by
          rcases hsend : sendReport J config i with ⟨(e | msg) | params, r⟩
          · rw [hsend] at h
            exact h
          · exact absurd hsend sendReport_not_panicked
          · rw [hsend] at h
            by_cases hinj : config.noSecretInjection = true
            · simpa [hinj] using h
            · simpa [hinj] using h
        unfold sendReport at hreply
        cases hprep : prepareReport J config i with
        | error e =>
            rw [hprep] at hreply
            simp only [Reply.dropped, Reply.response.injEq] at hreply
            exact absurd hreply.2.symm hempty
        | ok pr =>
            obtain ⟨json, params⟩ := pr
            rw [hprep] at hreply
            by_cases hresponds : i.out.responds = true
            · simp only [hresponds, if_true, Reply.response.injEq] at hreply
              obtain ⟨hreq, hgen, hcomp, hser, r, hjson, hget⟩ := prepareReport_eq_ok.mp hprep
              rw [← hreply.2, hjson, hJ.report, Option.some.injEq] at hdecode
              rw [← hdecode]
              exact ⟨params, rfl, ⟨hurl, hreq, hgen, hcomp, ⟨r, hget⟩, hser, hresponds⟩, hget⟩
            · simp [hresponds] at hreply
    | waitingForSecretInjection params =>
        simp only [hstate] at h
        rcases hproc : processInjectedSecret J i params w.diskKeyFile with ⟨(e | msg) | u, file⟩
        all_goals
          rw [hproc] at h
          simp only [Reply.dropped, Reply.response.injEq] at h
          exact absurd h.2.symm hempty

/-- The report of a session names its nonce and its public key. -/
theorem report_of_session {fw : Firmware} (hfw : fw.Binds) {n : UInt64} {k : Block 32}
    {report : AttestationReport} (h : getReport config fw n k = .ok report) :
    ReportData.ofBlock report.reportData = ⟨n, k⟩ := by
  rw [getReport_reportData hfw h, ReportData.ofBlock_encode]

/-- The key the client wraps for a report is sealed under a secret shared with the key
in the report, and the nonce the client started from. -/
theorem wrapped_for_session (hR : R.Correct) {env : Client.Env R} {args : Client.Args}
    {params : SecretInjectionParams R} {report : AttestationReport} {wrapped : WrappedDiskKey}
    (hreport : ReportData.ofBlock report.reportData
      = ⟨params.nonce, R.computePublicKey params.ephServerDhKey⟩)
    (hwrap : Client.wrapDiskKey env args params.nonce report = .ok wrapped) :
    ∃ priv secret, env.generated = some priv ∧
      wrapped.clientPublicKey = R.computePublicKey priv ∧
      R.agreeEphemeral priv (R.computePublicKey params.ephServerDhKey) = some secret ∧
      R.agreeEphemeral params.ephServerDhKey (R.computePublicKey priv) = some secret ∧
      aeadEnc R secret params.nonce (Bytes.ofString args.diskKey)
        = .ok wrapped.wrappedDiskKey := by
  obtain ⟨priv, secret, hpriv, -, hagree, hcipher, hpub⟩ := Client.wrapDiskKey_eq_ok.mp hwrap
  rw [hreport] at hagree
  obtain ⟨secret', hagree', hserver⟩ := hR.agree_public priv params.ephServerDhKey
  rw [hagree, Option.some.injEq] at hagree'
  rw [← hagree'] at hserver
  exact ⟨priv, secret, hpriv, hpub, hagree, hserver, hcipher⟩

/-- **What the client wraps for a report is acceptable under the session of that report.** -/
theorem accepts_wrapped (hR : R.Correct) (hJ : J.RoundTrips) {env : Client.Env R}
    {args : Client.Args} {params : SecretInjectionParams R} {report : AttestationReport}
    {wrapped : WrappedDiskKey} {q : Input R}
    (hreport : ReportData.ofBlock report.reportData
      = ⟨params.nonce, R.computePublicKey params.ephServerDhKey⟩)
    (hwrap : Client.wrapDiskKey env args params.nonce report = .ok wrapped)
    (hurl : "/reset" ≠ q.req.url) (hbody : q.req.body = J.wrappedDiskKey.encode wrapped)
    (hcreates : q.out.creates = true) (hwrites : q.out.writeFailsAfter = none) :
    Accepts J params q (Bytes.ofString args.diskKey) := by
  obtain ⟨priv, secret, -, hpub, -, hserver, hcipher⟩ := wrapped_for_session hR hreport hwrap
  have hdec := (aeadDec_iff_of_works hR.toWorks).mpr hcipher
  refine ⟨hurl, ⟨wrapped, secret, ?_, ?_, hdec⟩, ?_, hcreates, hwrites⟩
  · rw [hbody, hJ.wrappedDiskKey]
  · rw [hpub]
    exact hserver
  · rw [Bytes.toString?_ofString]
    rfl

/-! ### A client among others -/

/-- One client's three requests at a server, with what others send before and between
them, and what the outside does while the client's are handled. -/
structure Interleaving (R : Ring) where
  before : List (Input R)
  between₁ : List (Input R)
  between₂ : List (Input R)
  reset : Input R
  attestation : Input R
  key : Input R

namespace Interleaving

variable (I : Interleaving R)

/-- Everything the server is sent up to the attestation request, in order. -/
def untilAttestation : List (Input R) := I.before ++ I.reset :: I.between₁

/-- Everything up to the wrapped key. -/
def untilKey : List (Input R) := I.untilAttestation ++ I.attestation :: I.between₂

def all : List (Input R) := I.untilKey ++ [I.key]

/-- The client's requests are the ones it posted, and it got the server's answers. -/
structure Joins (J : Json) (config : Server.Config) (listening : Except String Unit)
    (file : Option Bytes) (env : Client.Env R) (posted : List Request) : Prop where
  posted : posted = [I.reset.req, I.attestation.req, I.key.req]
  reset : env.sendReset I.reset.req
    = answer J config (run J config listening file I.before) I.reset.req I.reset.out
  attestation : env.sendAttestation I.attestation.req
    = answer J config (run J config listening file I.untilAttestation) I.attestation.req
        I.attestation.out
  key : env.sendKey I.key.req
    = answer J config (run J config listening file I.untilKey) I.key.req I.key.out

/-- The uses that the session of a request can make of the client's public key. -/
def uses (J : Json) (env : Client.Env R) (i : Input R) : Set Ring.Use :=
  {u | ∃ k priv s n, i.out.generated = some k ∧ env.generated = some priv ∧
    R.agreeEphemeral k (R.computePublicKey priv) = some s ∧
    J.attestationRequest.decode i.req.body = some ⟨n⟩ ∧ u = sessionUse s n}

/-- Those of the requests between the client's last two. -/
def others (J : Json) (env : Client.Env R) : Set Ring.Use :=
  {u | ∃ i ∈ I.between₂, u ∈ uses J env i}

/-- The client's session is one of its own among those of the others. -/
structure Separate (J : Json) (env : Client.Env R) (args : Client.Args) : Prop where
  /-- The keys are generated afresh, and come to secrets of their own. -/
  fresh : ∀ u ∈ I.others J env, ∀ u₀ ∈ uses J env I.attestation, u.secret ≠ u₀.secret
  /-- AES-GCM opens the client's key under no secret of the others. -/
  sealed : ∀ u₀ ∈ uses J env I.attestation,
    R.SealedIn (I.others J env) u₀ (Bytes.ofString args.diskKey)

end Interleaving

/-- The session behind a successful client: the server's, and the client's. -/
structure Session (J : Json) (config : Server.Config) (listening : Except String Unit)
    (file : Option Bytes) (env : Client.Env R) (args : Client.Args) (I : Interleaving R) where
  world : World R
  params : SecretInjectionParams R
  received : AttestationReport
  wrappedKey : WrappedDiskKey
  priv : R.PrivateKey
  waiting : run J config listening file I.untilAttestation = .running world
  ready : world.state = .ready
  answered : Answered J config I.attestation params
  report : ReportData.ofBlock received.reportData
    = ⟨params.nonce, R.computePublicKey params.ephServerDhKey⟩
  wrapped : Client.wrapDiskKey env args params.nonce received = .ok wrappedKey
  generated : env.generated = some priv
  clientPub : wrappedKey.clientPublicKey = R.computePublicKey priv
  keyUrl : I.key.req.url = I.attestation.req.url
  keyBody : I.key.req.body = J.wrappedDiskKey.encode wrappedKey

theorem session_of_success (hJ : J.RoundTrips) (hreport : J.ReportOnly)
    {listening : Except String Unit} {file : Option Bytes} {env : Client.Env R}
    {args : Client.Args} {t : Client.Traces} {dump : Option Bytes} {cache : Folder}
    (hclient : Client.run J C env args ⟨[], dump, cache⟩ = (.ok (), t))
    {I : Interleaving R} (hjoins : I.Joins J config listening file env t.posted)
    (hfw : I.attestation.out.firmware.Binds) :
    Nonempty (Session J config listening file env args I) := by
  obtain ⟨v, t₁, wrapped, hphase, hwrap, -, rfl⟩ := Client.run_eq_ok.mp hclient
  obtain ⟨expected, endpoint, cache', hreceived, -, rfl⟩ := Client.phase1_eq_ok.mp hphase
  have hposted := hjoins.posted
  simp only [List.nil_append, List.cons_append, List.cons.injEq, and_true] at hposted
  obtain ⟨-, hatt, hkey⟩ := hposted
  obtain ⟨status, body, hsend, hdecode⟩ := hreceived.report
  rw [hatt, hjoins.attestation] at hsend
  obtain ⟨w, hwaiting, hreply⟩ := answer_eq_response.mp hsend
  obtain ⟨params, hready, hanswered, hget⟩ := reported_of_reply hJ hreport hreply hdecode
  have hnonce : params.nonce = v.nonce := by
    have hrequest := hanswered.request
    rw [← hatt, Client.attestationRequest, hJ.attestationRequest, Option.some.injEq] at hrequest
    exact (AttestationRequest.mk.inj hrequest).symm
  obtain ⟨priv, secret, hpriv, -, -, -, hpub⟩ := Client.wrapDiskKey_eq_ok.mp hwrap
  refine ⟨⟨w, params, v.report, wrapped, priv, hwaiting, hready, hanswered,
    report_of_session hfw hget, by rw [hnonce]; exact hwrap, hpriv, hpub, ?_, ?_⟩⟩
  · rw [← hkey, ← hatt]
    rfl
  · rw [← hkey]
    rfl

/-- The use that seals the client's key. -/
theorem Session.use {listening : Except String Unit} {file : Option Bytes} {env : Client.Env R}
    {args : Client.Args} {I : Interleaving R} (s : Session J config listening file env args I)
    {secret : Bytes}
    (hagree : R.agreeEphemeral s.params.ephServerDhKey (R.computePublicKey s.priv) = some secret) :
    sessionUse secret s.params.nonce ∈ Interleaving.uses J env I.attestation :=
  ⟨_, _, secret, _, s.answered.generated, s.generated, hagree, s.answered.request, rfl⟩

/-- **No session of the others opens the wrapped key.** -/
theorem Session.not_accepts {listening : Except String Unit} {file : Option Bytes}
    {env : Client.Env R} {args : Client.Args} {I : Interleaving R}
    (s : Session J config listening file env args I) (hR : R.Correct) (hJ : J.RoundTrips)
    (hsep : I.Separate J env args) {p : Input R} (hp : p ∈ I.between₂)
    {params : SecretInjectionParams R} (hanswered : Answered J config p params) {key : Bytes} :
    ¬ Accepts J params I.key key := by
  intro haccepts
  obtain ⟨priv, secret, hpriv, hpub, -, hagree, hcipher⟩ :=
    wrapped_for_session hR s.report s.wrapped
  have hown : priv = s.priv := Option.some.inj (hpriv.symm.trans s.generated)
  rw [hown] at hagree hpub
  have huse := s.use hagree
  obtain ⟨wrapped, secret', hdecode, hagree', hdec⟩ := haccepts.unwraps
  rw [s.keyBody, hJ.wrappedDiskKey, Option.some.injEq] at hdecode
  rw [← hdecode] at hagree' hdec
  rw [hpub] at hagree'
  have hother : sessionUse secret' params.nonce ∈ I.others J env :=
    ⟨p, hp, _, _, secret', _, hanswered.generated, s.generated, hagree', hanswered.request, rfl⟩
  exact hsep.fresh _ hother _ huse
    (secret_of_opened (hsep.sealed _ huse) hother hcipher hdec)

/-- **What the client's success is worth.**  When the client's run returns `Ok`, the
server has accepted its key and the file holds it exactly when injection is enabled, no
request came between the client's last two, and the file could be written. -/
theorem delivered_iff (hR : R.Correct) (hJ : J.RoundTrips) (hreport : J.ReportOnly)
    {listening : Except String Unit} {file : Option Bytes} {env : Client.Env R}
    {args : Client.Args} {t : Client.Traces} {dump : Option Bytes} {cache : Folder}
    (hclient : Client.run J C env args ⟨[], dump, cache⟩ = (.ok (), t))
    {I : Interleaving R} (hjoins : I.Joins J config listening file env t.posted)
    (hsep : I.Separate J env args) (hfw : I.attestation.out.firmware.Binds) :
    run J config listening file I.all
        = .finished ⟨.ok (), some (Bytes.ofString args.diskKey)⟩ [] ↔
      config.noSecretInjection = false ∧ I.between₂ = [] ∧ I.key.out.creates = true ∧
        I.key.out.writeFailsAfter = none := by
  obtain ⟨s⟩ := session_of_success hJ hreport hclient hjoins hfw
  have hlistening : listening = .ok () := by
    cases listening with
    | error e => exact absurd s.waiting (by simp [run])
    | ok u => rfl
  subst hlistening
  refine ⟨?_, ?_⟩
  · intro haccepted
    obtain ⟨hinj, front, p, q, u, params, key, hsplit, -, -, hurl, hsend, haccepts, -⟩ :=
      run_ok_iff.mp haccepted
    have hlast : I.untilKey = front ++ [p] ∧ I.key = q := by
      have hcut : I.untilKey ++ [I.key] = (front ++ [p]) ++ [q] := by
        rw [List.append_assoc]
        exact hsplit
      obtain ⟨h1, h2⟩ := List.append_inj' hcut rfl
      exact ⟨h1, List.cons.inj h2 |>.1⟩
    obtain ⟨huntil, rfl⟩ := hlast
    refine ⟨hinj, ?_, haccepts.creates, haccepts.writes⟩
    rcases List.eq_nil_or_concat I.between₂ with hnil | ⟨others, p', hothers⟩
    · exact hnil
    · exfalso
      have hp : p' = p := by
        have hcut : (I.untilAttestation ++ I.attestation :: others) ++ [p'] = front ++ [p] := by
          rw [← huntil, Interleaving.untilKey, hothers, List.concat_eq_append,
            List.append_assoc, List.cons_append]
        exact List.cons.inj (List.append_inj' hcut rfl).2 |>.1
      have hmem : p ∈ I.between₂ := by
        rw [hothers, hp]
        simp
      -- The session that takes the key is the one of `p`, and it cannot open it.
      exact s.not_accepts hR hJ hsep hmem (answered_iff.mpr ⟨hurl, hsend⟩) haccepts
  · intro h
    obtain ⟨hinj, hnil, hcreates, hwrites⟩ := h
    refine run_ok_iff.mpr ⟨hinj, I.untilAttestation, I.attestation, I.key, s.world, s.params, _,
      ?_, s.waiting, s.ready, s.answered.notReset, (answered_iff.mp s.answered).2,
      accepts_wrapped hR hJ s.report s.wrapped ?_ s.keyBody hcreates hwrites, rfl⟩
    · rw [Interleaving.all, Interleaving.untilKey, hnil, List.append_assoc]
      rfl
    · rw [s.keyUrl]
      exact s.answered.notReset

/-! ### Recovery -/

/-- A reset that is acknowledged makes the server ready. -/
theorem step_reset {w : World R} {i : Input R} (hurl : i.req.url = "/reset")
    (hresponds : i.out.responds = true) : step J config w i = .inl { w with state := .ready } := by
  unfold step handle
  rw [if_pos hurl.symm, if_pos hresponds]

/-- When nothing goes wrong, an attestation request is answered with a report. -/
theorem answered_of_succeeds {config : Server.Config} (hJ : J.RoundTrips) {i : Input R}
    {nonce : UInt64} (hurl : "/reset" ≠ i.req.url)
    (hbody : i.req.body = J.attestationRequest.encode ⟨nonce⟩) (hout : i.out.Succeeds) :
    ∃ params, params.nonce = nonce ∧ Answered J config i params := by
  obtain ⟨key, hkey⟩ := hout.generated
  have hreport : ∃ report, getReport config i.out.firmware nonce (R.computePublicKey key)
      = .ok report := by
    by_cases hmock : config.mockMode = true
    · exact ⟨_, getReport_eq_ok.mpr (by rw [if_pos hmock])⟩
    · obtain ⟨r, hr⟩ := hout.reports (ReportData.mk nonce (R.computePublicKey key)).encode
      exact ⟨r, getReport_eq_ok.mpr (by rw [if_neg hmock]; exact hr)⟩
  refine ⟨⟨nonce, key⟩, rfl, hurl, ?_, hkey, hout.computes, hreport, hout.serializes,
    hout.responds⟩
  rw [hbody, hJ.attestationRequest]

/-- The peer of an answered request gets the report. -/
theorem reply_of_answered {w : World R} {i : Input R} {params : SecretInjectionParams R}
    (hready : w.state = .ready) (h : Answered J config i params) :
    ∃ report, reply J config w i = .response 200 (J.report.encode report) ∧
      getReport config i.out.firmware params.nonce (R.computePublicKey params.ephServerDhKey)
        = .ok report := by
  obtain ⟨report, hreport⟩ := h.report
  have hprep := prepareReport_eq_ok.mpr
    ⟨h.request, h.generated, h.computes, h.serializes, report, rfl, hreport⟩
  have hsend := sendReport_eq_ok.mpr ⟨_, hprep, h.responds, rfl⟩
  refine ⟨report, ?_, hreport⟩
  unfold reply handle
  rw [if_neg h.notReset, hready]
  simp only [hsend]
  by_cases hinj : config.noSecretInjection = true
  · simp only [hinj, if_true]
  · simp only [hinj, if_false, Bool.false_eq_true]

/-- A server URL whose path is the root: `reset` joins to `/reset`, and posting to the
URL itself is no reset. -/
theorem root_targets {url : Client.Url} (hpath : url.path = "/") (hbase : url.isBase = true) :
    ∃ endpoint, url.join "reset" = some endpoint ∧ endpoint.target = "/reset" ∧
      "/reset" ≠ url.target := by
  refine ⟨⟨"/reset", none, true⟩, ?_, rfl, ?_⟩
  · have hdir : Client.directory "/" ++ "reset" = "/reset" := by decide
    simp only [Client.Url.join, hbase, if_true, hpath, hdir]
  · unfold Client.Url.target
    rw [hpath]
    cases url.query with
    | none => decide
    | some query =>
        intro h
        have hchars := congrArg String.toList h
        have hreset : "/reset".toList = ['/', 'r', 'e', 's', 'e', 't'] := rfl
        have hquery : ("/" ++ "?").toList = ['/', '?'] := rfl
        simp only at hchars
        rw [String.toList_append, hreset, hquery] at hchars
        simp at hchars

/-- The rest of a session whose report the client has received. -/
structure Resumes (J : Json) (file : Option Bytes) (history : List (Input R))
    (url : Client.Url) (nonce : UInt64) (reset attestation : Input R) (outKey : Outside R)
    (report : AttestationReport) : Prop where
  /-- The report was the answer to the attestation request. -/
  received : ∃ w, run J ⟨false, false⟩ (.ok ()) file (history ++ [reset]) = .running w ∧
    reply J ⟨false, false⟩ w attestation = .response 200 (J.report.encode report)
  /-- Whatever key the client wraps for it ends in the file, and the server's run in `Ok`. -/
  delivers : ∀ (env : Client.Env R) (args : Client.Args) (wrapped : WrappedDiskKey),
    Client.wrapDiskKey env args nonce report = .ok wrapped →
      run J ⟨false, false⟩ (.ok ()) file
          (history ++ [reset, attestation, ⟨Client.keyRequest J url wrapped, outKey⟩])
        = .finished ⟨.ok (), some (Bytes.ofString args.diskKey)⟩ []
  /-- And a client with a key pair can wrap any key that AES-GCM takes. -/
  wraps : ∀ (env : Client.Env R) (args : Client.Args), env.generated.isSome →
    env.computes = true → (Bytes.ofString args.diskKey).length ≤ Ring.maxPlaintextLen →
      ∃ wrapped, Client.wrapDiskKey env args nonce report = .ok wrapped

/-- **Recovery by reset.**  Whatever a server with injection enabled was sent before, as
long as it runs, a reset, an attestation request and the key wrapped for the report
that comes back leave that key in the file. -/
theorem recovers (hR : R.Correct) (hJ : J.RoundTrips) {file : Option Bytes}
    {history : List (Input R)} {w : World R}
    (hrunning : run J ⟨false, false⟩ (.ok ()) file history = .running w)
    {url endpoint : Client.Url} (hpath : url.path = "/")
    (hjoin : url.join "reset" = some endpoint)
    {nonce : UInt64} (hnonce : nonce ≠ u64Max) {outReset outAttestation outKey : Outside R}
    (hreset : outReset.Succeeds) (hattestation : outAttestation.Succeeds)
    (hkey : outKey.Succeeds) :
    ∃ report, Resumes J file history url nonce ⟨Client.resetRequest endpoint, outReset⟩
      ⟨Client.attestationRequest J url nonce, outAttestation⟩ outKey report := by
  have hbase : url.isBase = true := by
    unfold Client.Url.join at hjoin
    by_cases hb : url.isBase = true
    · exact hb
    · rw [if_neg hb] at hjoin
      simp at hjoin
  obtain ⟨endpoint', hjoin', htarget, hurl⟩ := root_targets hpath hbase
  rw [hjoin, Option.some.injEq] at hjoin'
  rw [← hjoin'] at htarget
  let reset : Input R := ⟨Client.resetRequest endpoint, outReset⟩
  let attestation : Input R := ⟨Client.attestationRequest J url nonce, outAttestation⟩
  have hready : run J ⟨false, false⟩ (.ok ()) file (history ++ [reset])
      = .running { w with state := .ready } := by
    rw [run_listening] at hrunning ⊢
    exact Loop.run_snoc_running.mpr ⟨w, hrunning, step_reset htarget hreset.responds⟩
  obtain ⟨params, hparams, hanswered⟩ : ∃ params, params.nonce = nonce ∧
      Answered J ⟨false, false⟩ attestation params :=
    answered_of_succeeds hJ hurl rfl hattestation
  obtain ⟨report, hreply, hget⟩ := reply_of_answered
    (w := ({ w with state := .ready } : World R)) rfl hanswered
  have hreport := report_of_session hattestation.binds hget
  refine ⟨report, ⟨_, hready, hreply⟩, ?_, ?_⟩
  · intro env args wrapped hwrap
    rw [← hparams] at hwrap
    refine run_ok_iff.mpr ⟨rfl, history ++ [reset], attestation,
      ⟨Client.keyRequest J url wrapped, outKey⟩, _, params, _, ?_, hready, rfl, hurl,
      (answered_iff.mp hanswered).2,
      accepts_wrapped hR hJ hreport hwrap hurl rfl hkey.creates hkey.writes, rfl⟩
    rw [List.append_assoc]
    rfl
  · intro env args hgenerated hcomputes hlength
    obtain ⟨priv, hpriv⟩ := Option.isSome_iff_exists.mp hgenerated
    obtain ⟨secret, hagree, -⟩ := hR.agree_public priv params.ephServerDhKey
    obtain ⟨cipher, hcipher⟩ := aeadEnc_exists_of_works hR.toWorks secret hnonce hlength
    refine ⟨⟨cipher, R.computePublicKey priv⟩, Client.wrapDiskKey_eq_ok.mpr
      ⟨priv, secret, hpriv, hcomputes, ?_, hcipher, rfl⟩⟩
    rw [hreport]
    exact hagree

/-! ### A client alone with the server -/

/-- The client's environment when its answers come from the server. -/
def facing (J : Json) (config : Server.Config) (file : Option Bytes) (I : Interleaving R)
    (env : Client.Env R) : Client.Env R :=
  { env with
    sendReset := fun req =>
      answer J config (run J config (.ok ()) file I.before) req I.reset.out
    sendAttestation := fun req =>
      answer J config (run J config (.ok ()) file I.untilAttestation) req I.attestation.out
    sendKey := fun req =>
      answer J config (run J config (.ok ()) file I.untilKey) req I.key.out }

theorem facing_joins {file : Option Bytes} {I : Interleaving R} {env : Client.Env R}
    {posted : List Request}
    (h : posted = [I.reset.req, I.attestation.req, I.key.req]) :
    I.Joins J config (.ok ()) file (facing J config file I env) posted where
  posted := h
  reset := rfl
  attestation := rfl
  key := rfl

/-- The report of a session over nonce 0. -/
def toySessionReport : AttestationReport :=
  { genuineReport 0 with reportData := (ReportData.mk 0 Ring.toyKey).encode }

theorem toySessionReport_eq :
    getReport ⟨false, false⟩ .genuine 0 Ring.toyKey = .ok toySessionReport := by
  rw [getReport_eq_ok, if_neg (by decide)]
  unfold Firmware.genuine toySessionReport
  rfl

/-- The key `key`, as a client with nonce 0 wraps it for that session. -/
def toyWrapped : WrappedDiskKey :=
  match Client.wrapDiskKey (.toy toySessionReport) (.toy "key") 0 toySessionReport with
  | .ok wrapped => wrapped
  | .error _ => ⟨[], Ring.toyKey⟩

theorem toyWrapped_eq :
    Client.wrapDiskKey (.toy toySessionReport) (.toy "key") 0 toySessionReport
      = .ok toyWrapped := by
  decide +kernel

/-- Nothing goes wrong, and no key is generated. -/
def keyless : Outside Ring.toy :=
  { (Outside.smooth .genuine Ring.toyKey : Outside Ring.toy) with generated := none }

/-- A client with nonce 0 and disk key `key`, at a server that nobody else talks to. -/
def alone : Interleaving Ring.toy where
  before := []
  between₁ := []
  between₂ := []
  reset := ⟨⟨"/reset", []⟩, keyless⟩
  attestation := ⟨⟨"/", Json.toy.attestationRequest.encode ⟨0⟩⟩, .smooth .genuine Ring.toyKey⟩
  key := ⟨⟨"/", Json.toy.wrappedDiskKey.encode toyWrapped⟩, keyless⟩

/-- The request for the report is no wrapped key. -/
theorem attestation_not_wrapped {wrapped : WrappedDiskKey} :
    Json.toy.wrappedDiskKey.decode alone.attestation.req.body ≠ some wrapped := by
  have hnone : Json.toy.wrappedDiskKey.decode alone.attestation.req.body = none := by decide
  rw [hnone]
  simp

def aloneClient (config : Server.Config) : Client.Env Ring.toy :=
  facing Json.toy config none alone (.toy toySessionReport)

/-- The client succeeds there, whether the server wants a key or not. -/
theorem alone_succeeds (noSecretInjection : Bool) :
    ∃ t, Client.run Json.toy Crates.toy (aloneClient ⟨noSecretInjection, false⟩) (.toy "key")
        .none = (.ok (), t) ∧
      t.posted = [alone.reset.req, alone.attestation.req, alone.key.req] := by
  have h : ∀ off : Bool,
      (Client.run Json.toy Crates.toy (aloneClient ⟨off, false⟩) (.toy "key") .none).1 = .ok () ∧
      (Client.run Json.toy Crates.toy (aloneClient ⟨off, false⟩) (.toy "key") .none).2.posted
        = [alone.reset.req, alone.attestation.req, alone.key.req] := by decide +kernel
  exact ⟨_, Prod.ext (h noSecretInjection).1 rfl, (h noSecretInjection).2⟩

/-- Without injection the client succeeds and the server has no key. -/
theorem success_without_delivery :
    (∃ t, Client.run Json.toy Crates.toy (aloneClient ⟨true, false⟩) (.toy "key") .none
        = (.ok (), t) ∧
      alone.Joins Json.toy ⟨true, false⟩ (.ok ()) none (aloneClient ⟨true, false⟩) t.posted) ∧
    ∀ status, run Json.toy ⟨true, false⟩ (.ok ()) none alone.all = status →
      match status with
      | .running w => w.diskKeyFile = none
      | .finished e _ => e.result ≠ .ok () ∧ e.diskKeyFile = none := by
  refine ⟨?_, ?_⟩
  · obtain ⟨t, hrun, hposted⟩ := alone_succeeds true
    exact ⟨t, hrun, facing_joins hposted⟩
  · intro status hstatus
    cases status with
    | running w => exact (run_noInjection_running rfl hstatus).2
    | finished e rest => exact run_noInjection_finished rfl hstatus

theorem recovers_from_garbage :
    let out : Outside Ring.toy := .smooth .genuine Ring.toyKey
    ∃ report, Resumes Json.toy none [⟨⟨"/", []⟩, out⟩] .root 5
      ⟨Client.resetRequest ⟨"/reset", none, true⟩, out⟩
      ⟨Client.attestationRequest Json.toy .root 5, out⟩ out report := by
  let out : Outside Ring.toy := .smooth .genuine Ring.toyKey
  have hout : out.Succeeds := @Outside.smooth_succeeds Ring.toy .genuine Ring.toyKey
    Firmware.genuine_reports Firmware.genuine_binds
  have hrunning : run Json.toy ⟨false, false⟩ (.ok ()) none [⟨⟨"/", []⟩, out⟩]
      = .running (start none) := rfl
  exact recovers Ring.toy_ideal.correct Json.toy_roundTrips hrunning rfl (by decide) (by decide)
    hout hout hout

def strangerKey : Block 32 := Block.padded [1] (by decide)

/-- A request of another party, for which a key of its own is generated. -/
def stranger : Input Ring.toy :=
  ⟨⟨"/", Json.toy.attestationRequest.encode ⟨1⟩⟩, .smooth .genuine strangerKey⟩

/-- The same client, where the stranger comes between its last two requests. -/
def interrupted : Interleaving Ring.toy := { alone with between₂ := [stranger] }

def interruptedClient : Client.Env Ring.toy :=
  facing Json.toy ⟨false, false⟩ none interrupted (.toy toySessionReport)

theorem interrupted_succeeds :
    ∃ t, Client.run Json.toy Crates.toy interruptedClient (.toy "key") .none = (.ok (), t) ∧
      t.posted = [interrupted.reset.req, interrupted.attestation.req, interrupted.key.req] := by
  have h : (Client.run Json.toy Crates.toy interruptedClient (.toy "key") .none).1 = .ok () ∧
      (Client.run Json.toy Crates.toy interruptedClient (.toy "key") .none).2.posted
        = [interrupted.reset.req, interrupted.attestation.req, interrupted.key.req] := by
    decide +kernel
  obtain ⟨t, hrun⟩ := Effect.exists_of_fst h.1
  rw [hrun] at h
  exact ⟨t, hrun, h.2⟩

theorem alone_separate :
    alone.Separate Json.toy (aloneClient ⟨false, false⟩) (.toy "key") := by
  refine ⟨?_, ?_⟩
  · rintro u ⟨i, hi, -⟩
    exact absurd hi (by simp [alone])
  · rintro _ _ u ⟨i, hi, -⟩
    exact absurd hi (by simp [alone])

theorem interrupted_separate :
    interrupted.Separate Json.toy interruptedClient (.toy "key") := by
  refine ⟨?_, ?_⟩
  · rintro _ ⟨i, hi, k, priv, secret, n, hk, hpriv, hagree, -, rfl⟩ _
      ⟨k₀, priv₀, secret₀, n₀, hk₀, hpriv₀, hagree₀, -, rfl⟩
    obtain rfl : i = stranger := List.mem_singleton.mp hi
    cases hk
    cases hpriv
    cases hk₀
    cases hpriv₀
    rintro rfl
    rcases Ring.toy_ideal.agree_injective hagree₀ hagree with ⟨heq, -⟩ | ⟨heq, -⟩
    · exact absurd heq (by decide : strangerKey ≠ Ring.toyKey)
    · exact absurd heq (by decide : strangerKey ≠ Block.zero 32)
  · intro u₀ _ u _
    exact (Ring.toy_ideal.separatedOn Set.univ).sealedIn (Set.mem_univ u₀) _ u (Set.mem_univ u)

/-- The key arrives where the client is alone, and does not where the stranger comes between. -/
theorem delivered_alone :
    run Json.toy ⟨false, false⟩ (.ok ()) none alone.all
        = .finished ⟨.ok (), some (Bytes.ofString "key")⟩ [] ∧
      run Json.toy ⟨false, false⟩ (.ok ()) none interrupted.all
        ≠ .finished ⟨.ok (), some (Bytes.ofString "key")⟩ [] := by
  refine ⟨?_, ?_⟩
  · obtain ⟨t, hrun, hposted⟩ := alone_succeeds false
    exact (delivered_iff Ring.toy_ideal.correct Json.toy_roundTrips Json.toy_reportOnly hrun
      (facing_joins hposted) alone_separate Firmware.genuine_binds).mpr ⟨rfl, rfl, rfl, rfl⟩
  · obtain ⟨t, hrun, hposted⟩ := interrupted_succeeds
    intro hdelivered
    obtain ⟨-, hnobody, -⟩ := (delivered_iff Ring.toy_ideal.correct Json.toy_roundTrips
      Json.toy_reportOnly hrun (facing_joins hposted) interrupted_separate
      Firmware.genuine_binds).mp hdelivered
    exact absurd hnobody (by simp [interrupted])

/-! ### The session a lone client gets -/

def toySession : SecretInjectionParams Ring.toy := ⟨0, Ring.toyKey⟩

theorem toy_answered : Answered Json.toy ⟨false, false⟩ alone.attestation toySession where
  notReset := by decide
  request := Json.toy_roundTrips.attestationRequest _
  generated := rfl
  computes := rfl
  report := ⟨_, rfl⟩
  serializes := rfl
  responds := rfl

theorem toy_asked : step Json.toy ⟨false, false⟩ (start none) alone.attestation
    = .inl ⟨.waitingForSecretInjection toySession, none⟩ := by
  obtain ⟨hurl, hsend⟩ := answered_iff.mp toy_answered
  exact step_of_reported rfl hurl rfl hsend

/-- The server accepts there whatever anyone wraps for its report. -/
theorem toy_accepts {env : Client.Env Ring.toy} {args : Client.Args} {wrapped : WrappedDiskKey}
    (hwrap : Client.wrapDiskKey env args 0 toySessionReport = .ok wrapped) :
    Accepts Json.toy toySession ⟨⟨"/", Json.toy.wrappedDiskKey.encode wrapped⟩, keyless⟩
      (Bytes.ofString args.diskKey) := by
  have hdata : ReportData.ofBlock toySessionReport.reportData
      = ⟨toySession.nonce, Ring.toy.computePublicKey toySession.ephServerDhKey⟩ := by
    show ReportData.ofBlock (ReportData.mk 0 Ring.toyKey).encode = _
    exact ReportData.ofBlock_encode _
  have hsession : Client.wrapDiskKey env args toySession.nonce toySessionReport
      = .ok wrapped := hwrap
  have hurl : "/reset" ≠ "/" := by decide
  exact accepts_wrapped Ring.toy_ideal.correct Json.toy_roundTrips hdata hsession hurl rfl rfl rfl

end SnpGuard
