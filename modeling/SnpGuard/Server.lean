/-
The attestation server: `server_main.rs`.

The server is a loop over HTTP requests with one piece of state, which is either
`ready` or the key material of the report it sent last.  A request to `/reset`
makes it ready.  In `ready` any other request is taken for an attestation request,
and when it is answered its key material is kept; in `waitingForSecretInjection`
any other request is taken for the wrapped disk key, and the key material is used
up whether or not the key is accepted.  The loop ends when a key was written to
`disk_key.txt`, when a reset could not be acknowledged, or in a panic.

Every fallible call the handlers make is answered by `Outside`, one for each
request, so that a run is a list of requests with everything that went wrong while
they were handled.  `step_cases` says what one request can do, and is the only
place the branches of the loop are taken apart.
-/
import SnpGuard.Lib.Loop
import SnpGuard.Wire

namespace SnpGuard

namespace Server

/-! ### Requests, replies and the world -/

/-- A `tiny_http` request: the handlers look at nothing else of it. -/
structure Request where
  url : String
  body : Bytes
deriving DecidableEq

/-- What the peer gets: a response, or a connection that broke. -/
inductive Reply where
  | response (status : Nat) (body : Bytes)
  | broken
deriving DecidableEq

/-- `tiny_http` answers a request that is dropped without a response, by whatever path. -/
def Reply.dropped : Reply := .response 500 []

/-- What the calls made while one request is handled come back with. -/
structure Outside (R : Ring) where
  /-- `EphemeralPrivateKey::generate`. -/
  generated : Option R.PrivateKey
  /-- Whether `compute_public_key` succeeds. -/
  computes : Bool
  firmware : Firmware
  /-- Whether `serde_json::to_string` succeeds on the report. -/
  serializes : Bool
  /-- Whether `respond` succeeds. -/
  responds : Bool
  /-- Whether `File::create` succeeds. -/
  creates : Bool
  /-- How many bytes `write_all` wrote before it failed, if it failed. -/
  writeFailsAfter : Option Nat

variable {R : Ring}

/-- Nothing goes wrong, and the key generated is `key`. -/
def Outside.smooth (fw : Firmware) (key : R.PrivateKey) : Outside R where
  generated := some key
  computes := true
  firmware := fw
  serializes := true
  responds := true
  creates := true
  writeFailsAfter := none

/-- All firmware, file and network operations succeed. -/
structure Outside.Succeeds (out : Outside R) : Prop where
  generated : ∃ key, out.generated = some key
  computes : out.computes = true
  reports : ∀ data, ∃ r, out.firmware data = .ok r
  binds : out.firmware.Binds
  serializes : out.serializes = true
  responds : out.responds = true
  creates : out.creates = true
  writes : out.writeFailsAfter = none

theorem Outside.smooth_succeeds {fw : Firmware} (key : R.PrivateKey)
    (hfw : ∀ data, ∃ r, fw data = .ok r) (hbinds : fw.Binds) :
    (Outside.smooth fw key).Succeeds where
  generated := ⟨key, rfl⟩
  computes := rfl
  reports := hfw
  binds := hbinds
  serializes := rfl
  responds := rfl
  creates := rfl
  writes := rfl

/-- A request together with what the outside does while it is handled. -/
structure Input (R : Ring) where
  req : Request
  out : Outside R

/-- `Config`; the listen address matters only to `run`. -/
structure Config where
  noSecretInjection : Bool
  mockMode : Bool
deriving DecidableEq

structure SecretInjectionParams (R : Ring) where
  nonce : UInt64
  ephServerDhKey : R.PrivateKey

inductive ServerState (R : Ring) where
  | ready
  | waitingForSecretInjection (params : SecretInjectionParams R)

/-- The loop's `state` variable, and the content of `disk_key.txt` if there is one. -/
structure World (R : Ring) where
  state : ServerState R
  diskKeyFile : Option Bytes

/-- How the loop ended. -/
structure Exit where
  result : Outcome Whatever Unit
  diskKeyFile : Option Bytes

variable (J : Json) (config : Config)

/-! ### The handlers -/

/-- The report `send_report` asks for, by mode. -/
def getReport (fw : Firmware) (nonce : UInt64) (serverPublicKey : Block 32) :
    Outcome Whatever AttestationReport :=
  if config.mockMode then
    Outcome.context "failed to get mock attestation reort"
      (MockSNPAttestation.getReport nonce serverPublicKey)
  else
    Outcome.context "failed to request attestation report from secure processor"
      (SNPAttestation.getReport fw nonce serverPublicKey)

/-- `tiny_http::Header::from_bytes`: both parts must be ASCII. -/
def headerFromBytes (field value : Bytes) : Option (Bytes × Bytes) :=
  if (field ++ value).all (· < 128) then some (field, value) else none

/-- The header of the response. -/
def contentType : Outcome Whatever (Bytes × Bytes) :=
  match headerFromBytes (Bytes.ofString "Content-Type") (Bytes.ofString "application/json") with
  | some header => .ok header
  | none => Outcome.crash "should never happen"

/-- `send_report` up to the response: its JSON and the key material. -/
def prepareReport (i : Input R) : Outcome Whatever (Bytes × SecretInjectionParams R) := do
  let attReq ← Outcome.ofOption (J.attestationRequest.decode i.req.body)
    "failed to parse request body as json"
  let serverPrivateKey ← Outcome.ofOption i.out.generated
    "failed to generate private DH key for server"
  Outcome.ensure (i.out.computes = true) "failed to generate public DH key for server"
  let serverPublicKey := R.computePublicKey serverPrivateKey
  let attReport ← getReport config i.out.firmware attReq.nonce serverPublicKey
  Outcome.ensure (i.out.serializes = true) "failed to serialize attestation report as json"
  let _ ← contentType
  return (J.report.encode attReport, ⟨attReq.nonce, serverPrivateKey⟩)

/-- `send_report`, with what the peer gets. -/
def sendReport (i : Input R) : Outcome Whatever (SecretInjectionParams R) × Reply :=
  match prepareReport J config i with
  | .ok (attReportJson, params) =>
    if i.out.responds then (.ok params, .response 200 attReportJson)
    else (Outcome.fail "failed to send attestation report to client", .broken)
  | .error e => (.error e, .dropped)

/-- `process_injected_secret` up to the file: the unwrapped disk key. -/
def unwrapDiskKey (req : Request) (keyMaterial : SecretInjectionParams R) :
    Outcome Whatever Bytes := do
  let wrappedKey ← Outcome.ofOption (J.wrappedDiskKey.decode req.body) "failed to deserialize"
  let sharedSecret ← Outcome.ofOption
    (R.agreeEphemeral keyMaterial.ephServerDhKey wrappedKey.clientPublicKey)
    "failed to derive shared secret"
  let unwrappedDiskKey ← Outcome.context "failed to decrypt wrapped disk encryption key"
    (aeadDec R sharedSecret keyMaterial.nonce wrappedKey.wrappedDiskKey)
  let text ← Outcome.ofOption (Bytes.toString? unwrappedDiskKey)
    "failed to convert unwrapped disk encryption key to string"
  return Bytes.ofString text

/-- `File::create` and `write_all` on `./disk_key.txt`. -/
def writeKeyFile (out : Outside R) (key : Bytes) (file : Option Bytes) :
    Outcome Whatever Unit × Option Bytes :=
  if out.creates then
    match out.writeFailsAfter with
    | none => (.ok (), some key)
    | some n =>
      (Outcome.fail "failed to write disk encrpytion key to file ./disk_key.txt",
        some (key.take n))
  else
    (Outcome.fail "failed to create output file for disk encryption key at ./disk_key.txt", file)

/-- `process_injected_secret`, with what becomes of the file. -/
def processInjectedSecret (i : Input R) (keyMaterial : SecretInjectionParams R)
    (file : Option Bytes) : Outcome Whatever Unit × Option Bytes :=
  match unwrapDiskKey J i.req keyMaterial with
  | .ok key => writeKeyFile i.out key file
  | .error e => (.error e, file)

/-! ### The loop -/

/-- The body of the loop for one request. -/
def handle (w : World R) (i : Input R) : (World R ⊕ Exit) × Reply :=
  if "/reset" = i.req.url then
    if i.out.responds then
      (.inl { w with state := .ready }, .response 200 (Bytes.ofString "Ok"))
    else
      (.inr ⟨Outcome.fail "failed to ack reset request", w.diskKeyFile⟩, .broken)
  else
    match w.state with
    | .ready =>
      match sendReport J config i with
      | (.ok params, reply) =>
        if config.noSecretInjection then (.inl w, reply)
        else (.inl { w with state := .waitingForSecretInjection params }, reply)
      | (.error (.error _), reply) => (.inl w, reply)
      | (.error (.panicked msg), reply) => (.inr ⟨Outcome.crash msg, w.diskKeyFile⟩, reply)
    | .waitingForSecretInjection params =>
      -- The request is dropped without a response on every path through the handler, also when
      -- a panic unwinds it.
      match processInjectedSecret J i params w.diskKeyFile with
      | (.ok _, file) => (.inr ⟨.ok (), file⟩, .dropped)
      | (.error (.error _), file) => (.inl ⟨.ready, file⟩, .dropped)
      | (.error (.panicked msg), file) => (.inr ⟨Outcome.crash msg, file⟩, .dropped)

def step (w : World R) (i : Input R) : World R ⊕ Exit := (handle J config w i).1

/-- The reply to one request. -/
def reply (w : World R) (i : Input R) : Reply := (handle J config w i).2

/-- The state the loop starts in. -/
def start (file : Option Bytes) : World R := ⟨.ready, file⟩

/-- How far a run of the server got. -/
abbrev Status (R : Ring) := Loop.Status (World R) (Input R) Exit

/-- `run`: `listening` is what `tiny_http::Server::http` comes back with. -/
def run (listening : Except String Unit) (file : Option Bytes) (inputs : List (Input R)) :
    Status R :=
  match listening with
  | .ok () => Loop.run (step J config) (start file) inputs
  | .error e => .finished ⟨Outcome.fail ("failed to start http server: " ++ e), file⟩ inputs

variable {J config}

/-! ### What the handlers do -/

/-- The report asked for carries the nonce and the public key. -/
theorem getReport_eq_ok {fw : Firmware} {n : UInt64} {k : Block 32} {report : AttestationReport} :
    getReport config fw n k = .ok report ↔
      if config.mockMode then
        report = { AttestationReport.default with reportData := (ReportData.mk n k).encode }
      else
        fw (ReportData.mk n k).encode = .ok report := by
  unfold getReport
  by_cases hm : config.mockMode = true
  · rw [if_pos hm, if_pos hm, Outcome.context_eq_ok, MockSNPAttestation.getReport_eq,
      Except.ok.injEq, eq_comm]
  · rw [if_neg hm, if_neg hm, Outcome.context_eq_ok, SNPAttestation.getReport_eq_ok]

theorem getReport_isPanic (fw : Firmware) (n : UInt64) (k : Block 32) :
    (getReport config fw n k).isPanic = false := by
  unfold getReport
  by_cases hm : config.mockMode = true
  · simp [hm, MockSNPAttestation.getReport_eq]
  · simp [hm, SNPAttestation.getReport]

/-- A report that was asked for carries the nonce and the key, if the firmware binds them. -/
theorem getReport_reportData {fw : Firmware} (hfw : fw.Binds) {n : UInt64} {k : Block 32}
    {report : AttestationReport} (h : getReport config fw n k = .ok report) :
    report.reportData = (ReportData.mk n k).encode := by
  rw [getReport_eq_ok] at h
  by_cases hm : config.mockMode = true
  · rw [if_pos hm] at h
    rw [h]
  · rw [if_neg hm] at h
    exact hfw h

/-- The header is well formed. -/
@[simp] theorem contentType_eq : contentType
    = .ok (Bytes.ofString "Content-Type", Bytes.ofString "application/json") := by
  have hascii : (Bytes.ofString "Content-Type" ++ Bytes.ofString "application/json").all
      (· < 128) = true := by decide
  simp [contentType, headerFromBytes, hascii]

/-- **A report is sent for a nonce, with a fresh key, and carries both.** -/
theorem prepareReport_eq_ok {i : Input R} {json : Bytes} {params : SecretInjectionParams R} :
    prepareReport J config i = .ok (json, params) ↔
      J.attestationRequest.decode i.req.body = some ⟨params.nonce⟩ ∧
        i.out.generated = some params.ephServerDhKey ∧ i.out.computes = true ∧
        i.out.serializes = true ∧ ∃ report, json = J.report.encode report ∧
          getReport config i.out.firmware params.nonce
            (R.computePublicKey params.ephServerDhKey) = .ok report := by
  unfold prepareReport
  simp only [contentType_eq, Outcome.bind_ok, Outcome.ok_of_bind, Outcome.ofOption_eq_ok,
    Outcome.ensure_eq_ok, exists_const, Outcome.pure_eq_ok, Except.ok.injEq, Prod.mk.injEq]
  refine ⟨?_, ?_⟩
  · intro h
    obtain ⟨req, hreq, key, hkey, hcomp, report, hrep, hser, hjson, hparams⟩ := h
    subst hparams
    exact ⟨hreq, hkey, hcomp, hser, report, hjson.symm, hrep⟩
  · intro h
    obtain ⟨hreq, hkey, hcomp, hser, report, hjson, hrep⟩ := h
    exact ⟨_, hreq, _, hkey, hcomp, report, hrep, hser, hjson.symm, rfl⟩

/-- Preparing a report never panics. -/
theorem prepareReport_isPanic (i : Input R) : (prepareReport J config i).isPanic = false := by
  rw [Bool.eq_false_iff]
  intro h
  simp [prepareReport, Outcome.isPanic_bind, getReport_isPanic] at h

theorem sendReport_eq_ok {i : Input R} {params : SecretInjectionParams R} {r : Reply} :
    sendReport J config i = (.ok params, r) ↔
      ∃ json, prepareReport J config i = .ok (json, params) ∧ i.out.responds = true ∧
        r = .response 200 json := by
  unfold sendReport
  cases hp : prepareReport J config i with
  | error e => simp
  | ok pr =>
      obtain ⟨json, params'⟩ := pr
      by_cases hr : i.out.responds = true
      · simp only [hr, if_true, Prod.mk.injEq, Except.ok.injEq, true_and]
        refine ⟨?_, ?_⟩
        · intro h
          exact ⟨json, ⟨rfl, h.1⟩, h.2.symm⟩
        · intro h
          obtain ⟨json', ⟨rfl, hparams⟩, hreply⟩ := h
          exact ⟨hparams, hreply.symm⟩
      · simp [hr]

theorem sendReport_not_panicked {i : Input R} {msg : String} {r : Reply} :
    sendReport J config i ≠ (.error (.panicked msg), r) := by
  intro h
  unfold sendReport at h
  split at h
  · split at h <;> simp [Outcome.fail] at h
  · rename_i e hp
    simp only [Prod.mk.injEq, Except.error.injEq] at h
    rw [h.1] at hp
    have hpanic : (prepareReport J config i).isPanic = true := by rw [hp]; rfl
    rw [prepareReport_isPanic] at hpanic
    exact Bool.noConfusion hpanic

/-- **A disk key is unwrapped from a body that parses, with a public key that agrees,
and a ciphertext that opens to text.** -/
theorem unwrapDiskKey_eq_ok {req : Request} {params : SecretInjectionParams R} {key : Bytes} :
    unwrapDiskKey J req params = .ok key ↔
      ∃ wrapped secret, J.wrappedDiskKey.decode req.body = some wrapped ∧
        R.agreeEphemeral params.ephServerDhKey wrapped.clientPublicKey = some secret ∧
        aeadDec R secret params.nonce wrapped.wrappedDiskKey = .ok key ∧
        (Bytes.toString? key).isSome := by
  unfold unwrapDiskKey
  simp only [Outcome.ok_of_bind, Outcome.ofOption_eq_ok, Outcome.context_eq_ok,
    Outcome.pure_eq_ok, Except.ok.injEq]
  refine ⟨?_, ?_⟩
  · intro h
    obtain ⟨wrapped, hw, secret, hs, plain, hdec, text, htext, rfl⟩ := h
    rw [Bytes.ofString_of_toString? htext]
    exact ⟨wrapped, secret, hw, hs, hdec, by rw [htext]; rfl⟩
  · intro h
    obtain ⟨wrapped, secret, hw, hs, hdec, hutf8⟩ := h
    obtain ⟨text, htext⟩ := Option.isSome_iff_exists.mp hutf8
    exact ⟨wrapped, hw, secret, hs, key, hdec, text, htext, Bytes.ofString_of_toString? htext⟩

/-- **Unwrapping panics exactly when it decrypts under the largest nonce.** -/
theorem unwrapDiskKey_isPanic {req : Request} {params : SecretInjectionParams R} :
    (unwrapDiskKey J req params).isPanic = true ↔
      params.nonce = u64Max ∧ ∃ wrapped secret,
        J.wrappedDiskKey.decode req.body = some wrapped ∧
        R.agreeEphemeral params.ephServerDhKey wrapped.clientPublicKey = some secret ∧
        ∃ k, SessionKey R secret u64Max k := by
  unfold unwrapDiskKey
  simp only [Outcome.isPanic_bind, Outcome.isPanic_ofOption, Bool.false_eq_true, false_or,
    Outcome.isPanic_context, aeadDec_isPanic, Outcome.ofOption_eq_ok]
  refine ⟨?_, ?_⟩
  · intro h
    obtain ⟨wrapped, hw, secret, hs, h⟩ := h
    rcases h with ⟨hn, k, hk⟩ | ⟨plain, -, text, -, h⟩
    · rw [hn] at hk
      exact ⟨hn, wrapped, secret, hw, hs, k, hk⟩
    · simp [pure, Except.pure] at h
  · intro h
    obtain ⟨hn, wrapped, secret, hw, hs, k, hk⟩ := h
    refine ⟨wrapped, hw, secret, hs, Or.inl ⟨hn, k, ?_⟩⟩
    rw [hn]
    exact hk

theorem processInjectedSecret_eq_ok {i : Input R} {params : SecretInjectionParams R}
    {file file' : Option Bytes} :
    processInjectedSecret J i params file = (.ok (), file') ↔
      ∃ key, unwrapDiskKey J i.req params = .ok key ∧ i.out.creates = true ∧
        i.out.writeFailsAfter = none ∧ file' = some key := by
  unfold processInjectedSecret
  cases hu : unwrapDiskKey J i.req params with
  | error e => simp
  | ok key =>
      unfold writeKeyFile
      by_cases hc : i.out.creates = true
      · cases hw : i.out.writeFailsAfter with
        | none => simp [hc, eq_comm]
        | some n => simp [hc]
      · simp [hc]

theorem processInjectedSecret_panicked {i : Input R} {params : SecretInjectionParams R}
    {file file' : Option Bytes} {msg : String}
    (h : processInjectedSecret J i params file = (.error (.panicked msg), file')) :
    unwrapDiskKey J i.req params = .error (.panicked msg) ∧ file' = file := by
  unfold processInjectedSecret at h
  split at h
  · unfold writeKeyFile at h
    split at h
    · split at h <;> simp [Outcome.fail] at h
    · simp [Outcome.fail] at h
  · rename_i e hu
    simp only [Prod.mk.injEq, Except.error.injEq] at h
    rw [hu, h.1]
    exact ⟨rfl, h.2.symm⟩

/-! ### What one request does -/

/-- Everything a request can do in a state of the loop. -/
inductive StepCase (J : Json) (config : Config) (w : World R) (i : Input R) :
    World R ⊕ Exit → Prop
  /-- A reset that was acknowledged. -/
  | reset (hurl : "/reset" = i.req.url) (hresp : i.out.responds = true) :
      StepCase J config w i (.inl { w with state := .ready })
  /-- A reset that could not be acknowledged ends the server. -/
  | resetFailed (hurl : "/reset" = i.req.url) (hresp : i.out.responds = false) :
      StepCase J config w i
        (.inr ⟨Outcome.fail "failed to ack reset request", w.diskKeyFile⟩)
  /-- A report was sent and its key material is kept. -/
  | reported {params : SecretInjectionParams R} {r : Reply} (hurl : "/reset" ≠ i.req.url)
      (hstate : w.state = .ready) (hsend : sendReport J config i = (.ok params, r))
      (hinject : config.noSecretInjection = false) :
      StepCase J config w i (.inl { w with state := .waitingForSecretInjection params })
  /-- A report was sent and its key material is thrown away. -/
  | reportedOnly {params : SecretInjectionParams R} {r : Reply} (hurl : "/reset" ≠ i.req.url)
      (hstate : w.state = .ready) (hsend : sendReport J config i = (.ok params, r))
      (hinject : config.noSecretInjection = true) : StepCase J config w i (.inl w)
  /-- No report was sent. -/
  | notReported {e : Whatever} {r : Reply} (hurl : "/reset" ≠ i.req.url)
      (hstate : w.state = .ready) (hsend : sendReport J config i = (.error (.error e), r)) :
      StepCase J config w i (.inl w)
  /-- A disk key was accepted and written. -/
  | accepted {params : SecretInjectionParams R} {file : Option Bytes}
      (hurl : "/reset" ≠ i.req.url) (hstate : w.state = .waitingForSecretInjection params)
      (hproc : processInjectedSecret J i params w.diskKeyFile = (.ok (), file)) :
      StepCase J config w i (.inr ⟨.ok (), file⟩)
  /-- A disk key was refused or could not be written. -/
  | refused {params : SecretInjectionParams R} {file : Option Bytes} {e : Whatever}
      (hurl : "/reset" ≠ i.req.url) (hstate : w.state = .waitingForSecretInjection params)
      (hproc : processInjectedSecret J i params w.diskKeyFile = (.error (.error e), file)) :
      StepCase J config w i (.inl ⟨.ready, file⟩)
  /-- Decryption panicked. -/
  | panicked {params : SecretInjectionParams R} {msg : String}
      (hurl : "/reset" ≠ i.req.url) (hstate : w.state = .waitingForSecretInjection params)
      (hproc : unwrapDiskKey J i.req params = .error (.panicked msg)) :
      StepCase J config w i (.inr ⟨Outcome.crash msg, w.diskKeyFile⟩)

/-- **One request does one of eight things.** -/
theorem step_cases (w : World R) (i : Input R) :
    StepCase J config w i (step J config w i) := by
  unfold step handle
  by_cases hurl : "/reset" = i.req.url
  · rw [if_pos hurl]
    by_cases hresp : i.out.responds = true
    · rw [if_pos hresp]
      exact .reset hurl hresp
    · rw [if_neg hresp]
      exact .resetFailed hurl (by simpa using hresp)
  · rw [if_neg hurl]
    cases hstate : w.state with
    | ready =>
        rcases hsend : sendReport J config i with ⟨(e | msg) | params, r⟩
        · exact .notReported hurl hstate hsend
        · exact absurd hsend sendReport_not_panicked
        · by_cases hinj : config.noSecretInjection = true
          · simp only [hinj, if_true]
            exact .reportedOnly hurl hstate hsend hinj
          · simp only [hinj]
            exact .reported hurl hstate hsend (by simpa using hinj)
    | waitingForSecretInjection params =>
        rcases hproc : processInjectedSecret J i params w.diskKeyFile with
          ⟨(e | msg) | u, file⟩
        · simp only [hproc]
          exact .refused hurl hstate hproc
        · obtain ⟨hunwrap, hfile⟩ := processInjectedSecret_panicked hproc
          simp only [hproc, hfile]
          exact .panicked hurl hstate hunwrap
        · simp only [hproc]
          exact .accepted hurl hstate hproc

theorem step_case {w : World R} {i : Input R} {x : World R ⊕ Exit}
    (h : step J config w i = x) : StepCase J config w i x := h ▸ step_cases w i

end Server

end SnpGuard
