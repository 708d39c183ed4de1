/-
Runs of the attestation server.

The server accepts a disk key in one way only.  Some request found it `ready` and
was answered with a report; the very next request was not a reset and its body
unwrapped under that report's key material; injection is enabled and the file could
be written.  `run_ok_iff` is that statement for runs of any length, and rests on
`run_waiting`: the server waits for a key only right after it sent a report.

The same lemma locates the one panic of the server.  The nonce of a session is the
counter `aead_dec` starts at, and the peer chose it, so a session over the largest
nonce ends the server when a wrapped key arrives for it (`run_panics_iff`).  Together with
the resets that could not be acknowledged this is all that ends the server before a key was
accepted (`harmless_iff`).
-/
import Mathlib.Data.List.Infix
import SnpGuard.Server

namespace SnpGuard.Server

variable {R : Ring} {J : Json} {config : Config}

/-- A run of a server that could listen is a run of its loop. -/
theorem run_listening (file : Option Bytes) (inputs : List (Input R)) :
    run J config (.ok ()) file inputs = Loop.run (step J config) (start file) inputs := rfl

/-! ### When the server waits -/

/-- The server keeps key material only after a report it sent from `ready`. -/
theorem step_waiting {w w' : World R} {i : Input R} {params : SecretInjectionParams R}
    (h : step J config w i = .inl w')
    (hw : w'.state = .waitingForSecretInjection params) :
    w.state = .ready ∧ "/reset" ≠ i.req.url ∧ config.noSecretInjection = false ∧
      (sendReport J config i).1 = .ok params ∧ w'.diskKeyFile = w.diskKeyFile := by
  have hcase := step_case h
  cases hcase with
  | reset hurl hresp => simp at hw
  | reported hurl hstate hsend hinject =>
      simp only [ServerState.waitingForSecretInjection.injEq] at hw
      subst hw
      exact ⟨hstate, hurl, hinject, by rw [hsend], rfl⟩
  | reportedOnly hurl hstate hsend hinject => rw [hstate] at hw; simp at hw
  | notReported hurl hstate hsend => rw [hstate] at hw; simp at hw
  | refused hurl hstate hproc => simp at hw

/-- **A waiting server got its key material from the request before.** -/
theorem run_waiting {file : Option Bytes} {inputs : List (Input R)} {w : World R}
    {params : SecretInjectionParams R}
    (h : run J config (.ok ()) file inputs = .running w)
    (hw : w.state = .waitingForSecretInjection params) :
    ∃ front p u, inputs = front ++ [p] ∧ run J config (.ok ()) file front = .running u ∧
      u.state = .ready ∧ "/reset" ≠ p.req.url ∧ config.noSecretInjection = false ∧
      (sendReport J config p).1 = .ok params := by
  rw [run_listening] at h
  rcases List.eq_nil_or_concat inputs with rfl | ⟨front, p, rfl⟩
  · simp only [Loop.run_nil, Loop.Status.running.injEq] at h
    rw [← h] at hw
    simp [start] at hw
  · rw [List.concat_eq_append] at h ⊢
    obtain ⟨u, hrun, hstep⟩ := Loop.run_snoc_running.mp h
    obtain ⟨hready, hurl, hinj, hsend, -⟩ := step_waiting hstep hw
    exact ⟨front, p, u, rfl, hrun, hready, hurl, hinj, hsend⟩

/-- A report sent from `ready` makes an injecting server wait. -/
theorem step_of_reported {w : World R} {p : Input R} {params : SecretInjectionParams R}
    (hready : w.state = .ready) (hurl : "/reset" ≠ p.req.url)
    (hinj : config.noSecretInjection = false) (hsend : (sendReport J config p).1 = .ok params) :
    step J config w p = .inl ⟨.waitingForSecretInjection params, w.diskKeyFile⟩ := by
  obtain ⟨res, r, hpair⟩ : ∃ res r, sendReport J config p = (res, r) := ⟨_, _, rfl⟩
  rw [hpair] at hsend
  simp only at hsend
  subst hsend
  unfold step handle
  simp only [if_neg hurl, hready, hpair, hinj, Bool.false_eq_true, if_false]

/-- What it takes for a request to be answered with a report. -/
structure Answered (J : Json) (config : Config) (p : Input R)
    (params : SecretInjectionParams R) : Prop where
  notReset : "/reset" ≠ p.req.url
  request : J.attestationRequest.decode p.req.body = some ⟨params.nonce⟩
  generated : p.out.generated = some params.ephServerDhKey
  computes : p.out.computes = true
  report : ∃ report, getReport config p.out.firmware params.nonce
    (R.computePublicKey params.ephServerDhKey) = .ok report
  serializes : p.out.serializes = true
  responds : p.out.responds = true

theorem answered_iff {p : Input R} {params : SecretInjectionParams R} :
    Answered J config p params ↔
      "/reset" ≠ p.req.url ∧ (sendReport J config p).1 = .ok params := by
  refine ⟨?_, ?_⟩
  · intro h
    obtain ⟨report, hreport⟩ := h.report
    have hprep := prepareReport_eq_ok.mpr
      ⟨h.request, h.generated, h.computes, h.serializes, report, rfl, hreport⟩
    have hsend := sendReport_eq_ok.mpr ⟨_, hprep, h.responds, rfl⟩
    exact ⟨h.notReset, by rw [hsend]⟩
  · intro h
    obtain ⟨hurl, hok⟩ := h
    have hsend : sendReport J config p = (.ok params, (sendReport J config p).2) := by
      rw [← hok]
    obtain ⟨json, hprep, hresponds, -⟩ := sendReport_eq_ok.mp hsend
    obtain ⟨hreq, hgen, hcomp, hser, report, -, hreport⟩ := prepareReport_eq_ok.mp hprep
    exact ⟨hurl, hreq, hgen, hcomp, ⟨report, hreport⟩, hser, hresponds⟩

/-! ### Acceptance -/

/-- What it takes for a request to be accepted under key material. -/
structure Accepts (J : Json) (params : SecretInjectionParams R) (q : Input R) (key : Bytes) :
    Prop where
  notReset : "/reset" ≠ q.req.url
  unwraps : ∃ wrapped secret, J.wrappedDiskKey.decode q.req.body = some wrapped ∧
    R.agreeEphemeral params.ephServerDhKey wrapped.clientPublicKey = some secret ∧
    aeadDec R secret params.nonce wrapped.wrappedDiskKey = .ok key
  text : (Bytes.toString? key).isSome
  creates : q.out.creates = true
  writes : q.out.writeFailsAfter = none

theorem step_of_accepts {w : World R} {params : SecretInjectionParams R} {q : Input R}
    {key : Bytes} (hw : w.state = .waitingForSecretInjection params)
    (h : Accepts J params q key) : step J config w q = .inr ⟨.ok (), some key⟩ := by
  obtain ⟨wrapped, secret, hdecode, hagree, hdec⟩ := h.unwraps
  have hunwrap : unwrapDiskKey J q.req params = .ok key :=
    unwrapDiskKey_eq_ok.mpr ⟨wrapped, secret, hdecode, hagree, hdec, h.text⟩
  have hproc : processInjectedSecret J q params w.diskKeyFile = (.ok (), some key) :=
    processInjectedSecret_eq_ok.mpr ⟨key, hunwrap, h.creates, h.writes, rfl⟩
  unfold step handle
  simp only [if_neg h.notReset, hw, hproc]

/-- The loop returns `Ok` only by accepting a disk key. -/
theorem step_ok {w : World R} {q : Input R} {file : Option Bytes}
    (h : step J config w q = .inr ⟨.ok (), file⟩) :
    ∃ params key, w.state = .waitingForSecretInjection params ∧ Accepts J params q key ∧
      file = some key := by
  have hcase := step_case h
  generalize hres : (⟨.ok (), file⟩ : Exit) = e at hcase
  cases hcase with
  | resetFailed hurl hresp => simp [Outcome.fail] at hres
  | @accepted params file' hurl hstate hproc =>
      simp only [Exit.mk.injEq, true_and] at hres
      subst hres
      obtain ⟨key, hunwrap, hcreates, hwrites, rfl⟩ := processInjectedSecret_eq_ok.mp hproc
      obtain ⟨wrapped, secret, hdecode, hagree, hdec, htext⟩ := unwrapDiskKey_eq_ok.mp hunwrap
      exact ⟨params, key, hstate, ⟨hurl, ⟨wrapped, secret, hdecode, hagree, hdec⟩, htext,
        hcreates, hwrites⟩, rfl⟩
  | panicked hurl hstate hproc => simp [Outcome.crash] at hres

/-- **When the server's run returns `Ok`.**  Injection is enabled, and the last
request it looked at is accepted under the key material of a report that the request
directly before it was answered with from `ready`. -/
theorem run_ok_iff {file file' : Option Bytes} {inputs rest : List (Input R)} :
    run J config (.ok ()) file inputs = .finished ⟨.ok (), file'⟩ rest ↔
      config.noSecretInjection = false ∧ ∃ front p q u params key,
        inputs = front ++ p :: q :: rest ∧
        run J config (.ok ()) file front = .running u ∧ u.state = .ready ∧
        "/reset" ≠ p.req.url ∧ (sendReport J config p).1 = .ok params ∧
        Accepts J params q key ∧ file' = some key := by
  refine ⟨?_, ?_⟩
  · intro h
    rw [run_listening] at h
    obtain ⟨before, q, w, hsplit, hrun, hstep⟩ := Loop.run_finished h
    obtain ⟨params, key, hw, haccepts, hfile⟩ := step_ok hstep
    obtain ⟨front, p, u, rfl, hfront, hready, hurl, hinj, hsend⟩ := run_waiting hrun hw
    refine ⟨hinj, front, p, q, u, params, key, ?_, hfront, hready, hurl, hsend, haccepts, hfile⟩
    rw [hsplit, List.append_assoc]
    rfl
  · intro h
    obtain ⟨hinj, front, p, q, u, params, key, rfl, hfront, hready, hurl, hsend, haccepts,
      rfl⟩ := h
    rw [run_listening] at hfront ⊢
    rw [Loop.run_append_running hfront,
      Loop.run_cons_inl (step_of_reported hready hurl hinj hsend),
      Loop.run_cons_inr (step_of_accepts rfl haccepts)]

/-! ### Without injection -/

/-- Without injection the server is always `ready` and leaves the file alone. -/
theorem step_noInjection {w w' : World R} {i : Input R} (hinj : config.noSecretInjection = true)
    (hw : w.state = .ready) (h : step J config w i = .inl w') :
    w'.state = .ready ∧ w'.diskKeyFile = w.diskKeyFile := by
  have hcase := step_case h
  cases hcase with
  | reset hurl hresp => exact ⟨rfl, rfl⟩
  | reported hurl hstate hsend hinject => rw [hinj] at hinject; exact absurd hinject (by simp)
  | reportedOnly hurl hstate hsend hinject => exact ⟨hw, rfl⟩
  | notReported hurl hstate hsend => exact ⟨hw, rfl⟩
  | refused hurl hstate hproc => simp [hw] at hstate

theorem run_noInjection_running {file : Option Bytes} {inputs : List (Input R)} {w : World R}
    (hinj : config.noSecretInjection = true)
    (h : run J config (.ok ()) file inputs = .running w) :
    w.state = .ready ∧ w.diskKeyFile = file := by
  refine Loop.invariant (I := fun w : World R => w.state = .ready ∧ w.diskKeyFile = file)
    ⟨rfl, rfl⟩ ?_ h
  intro u i v hu hstep
  obtain ⟨hready, hfile⟩ := step_noInjection hinj hu.1 hstep
  exact ⟨hready, hfile.trans hu.2⟩

/-- **Without injection no run returns `Ok` or touches the file.** -/
theorem run_noInjection_finished {file : Option Bytes} {inputs rest : List (Input R)} {e : Exit}
    (hinj : config.noSecretInjection = true)
    (h : run J config (.ok ()) file inputs = .finished e rest) :
    e.result ≠ .ok () ∧ e.diskKeyFile = file := by
  rw [run_listening] at h
  obtain ⟨front, i, u, -, hrun, hstep⟩ := Loop.run_finished h
  obtain ⟨hready, hfile⟩ := run_noInjection_running hinj hrun
  have hcase := step_case hstep
  cases hcase with
  | resetFailed hurl hresp => exact ⟨by simp, hfile⟩
  | accepted hurl hstate hproc => simp [hready] at hstate
  | panicked hurl hstate hproc => exact ⟨by simp, hfile⟩

/-- **Acceptance, over all runs.**  The server's run returns `Ok` exactly when injection
is enabled and its last request is an acceptable wrapped key that directly follows the
attestation request it belongs to, and then the file holds that key.  With injection
disabled no run returns `Ok` or changes the file. -/
theorem returns_ok_iff (J : Json) (config : Config) (listening : Except String Unit)
    (file file' : Option Bytes) (inputs rest : List (Input R)) :
    (run J config listening file inputs = .finished ⟨.ok (), file'⟩ rest ↔
      listening = .ok () ∧ config.noSecretInjection = false ∧ ∃ front p q u params key,
        inputs = front ++ p :: q :: rest ∧
        run J config listening file front = .running u ∧ u.state = .ready ∧
        "/reset" ≠ p.req.url ∧ (sendReport J config p).1 = .ok params ∧
        Accepts J params q key ∧ file' = some key) ∧
    match run J { config with noSecretInjection := true } listening file inputs with
    | .running w => w.diskKeyFile = file
    | .finished e _ => e.result ≠ .ok () ∧ e.diskKeyFile = file := by
  refine ⟨?_, ?_⟩
  · cases listening with
    | error e => simp [run]
    | ok u =>
        have h := @run_ok_iff R J config file file' inputs rest
        simpa using h
  · cases listening with
    | error e => simp [run]
    | ok u =>
        cases hrun : run J { config with noSecretInjection := true } (.ok u) file inputs with
        | running w => exact (run_noInjection_running rfl hrun).2
        | finished e rest' => exact run_noInjection_finished rfl hrun

/-! ### Panics -/

/-- A wrapped key that the server gets as far as decrypting. -/
structure Decrypts (J : Json) (params : SecretInjectionParams R) (q : Input R) : Prop where
  notReset : "/reset" ≠ q.req.url
  reaches : ∃ wrapped secret, J.wrappedDiskKey.decode q.req.body = some wrapped ∧
    R.agreeEphemeral params.ephServerDhKey wrapped.clientPublicKey = some secret ∧
    ∃ k, SessionKey R secret params.nonce k

/-- A step panics exactly when it decrypts in a session over the largest nonce. -/
theorem step_panics_iff {w : World R} {q : Input R} :
    (∃ msg file, step J config w q = .inr ⟨Outcome.crash msg, file⟩) ↔
      ∃ params, w.state = .waitingForSecretInjection params ∧ params.nonce = u64Max ∧
        Decrypts J params q := by
  refine ⟨?_, ?_⟩
  · intro h
    obtain ⟨msg, file, hstep⟩ := h
    have hcase := step_case hstep
    generalize hres : (⟨Outcome.crash msg, file⟩ : Exit) = e at hcase
    cases hcase with
    | resetFailed hurl hresp => simp [Outcome.crash, Outcome.fail] at hres
    | accepted hurl hstate hproc => simp [Outcome.crash] at hres
    | @panicked params msg' hurl hstate hproc =>
        have hpanic : (unwrapDiskKey J q.req params).isPanic = true := by rw [hproc]; rfl
        obtain ⟨hn, wrapped, secret, hdecode, hagree, k, hk⟩ := unwrapDiskKey_isPanic.mp hpanic
        exact ⟨params, hstate, hn, hurl, wrapped, secret, hdecode, hagree, k, by rw [hn]; exact hk⟩
  · intro h
    obtain ⟨params, hstate, hn, hdec⟩ := h
    obtain ⟨wrapped, secret, hdecode, hagree, k, hk⟩ := hdec.reaches
    rw [hn] at hk
    have hpanic : (unwrapDiskKey J q.req params).isPanic = true :=
      unwrapDiskKey_isPanic.mpr ⟨hn, wrapped, secret, hdecode, hagree, k, hk⟩
    rcases hu : unwrapDiskKey J q.req params with (e | msg) | key
    · rw [hu] at hpanic; simp [Outcome.isPanic] at hpanic
    · refine ⟨msg, w.diskKeyFile, ?_⟩
      have hproc : processInjectedSecret J q params w.diskKeyFile
          = (.error (.panicked msg), w.diskKeyFile) := by
        unfold processInjectedSecret
        rw [hu]
      unfold step handle
      simp only [if_neg hdec.notReset, hstate, hproc]
    · rw [hu] at hpanic; simp at hpanic

/-- **When the server's run panics.**  A request is answered from `ready` with a report
over the largest nonce, and the request directly after it is a wrapped key that the
server gets as far as decrypting. -/
theorem run_panics_iff {file : Option Bytes} {inputs : List (Input R)} :
    (∃ msg file' rest,
        run J config (.ok ()) file inputs = .finished ⟨Outcome.crash msg, file'⟩ rest) ↔
      config.noSecretInjection = false ∧ ∃ front p q rest u params,
        inputs = front ++ p :: q :: rest ∧
        run J config (.ok ()) file front = .running u ∧ u.state = .ready ∧
        "/reset" ≠ p.req.url ∧ (sendReport J config p).1 = .ok params ∧
        params.nonce = u64Max ∧ Decrypts J params q := by
  refine ⟨?_, ?_⟩
  · intro h
    obtain ⟨msg, file', rest, hrun⟩ := h
    rw [run_listening] at hrun
    obtain ⟨before, q, w, hsplit, hbefore, hstep⟩ := Loop.run_finished hrun
    obtain ⟨params, hw, hn, hdec⟩ := step_panics_iff.mp ⟨msg, file', hstep⟩
    obtain ⟨front, p, u, rfl, hfront, hready, hurl, hinj, hsend⟩ := run_waiting hbefore hw
    refine ⟨hinj, front, p, q, rest, u, params, ?_, hfront, hready, hurl, hsend, hn, hdec⟩
    rw [hsplit, List.append_assoc]
    rfl
  · intro h
    obtain ⟨hinj, front, p, q, rest, u, params, rfl, hfront, hready, hurl, hsend, hn, hdec⟩ := h
    obtain ⟨msg, file', hpanic⟩ := step_panics_iff.mpr
      ⟨params, (rfl : (⟨.waitingForSecretInjection params, u.diskKeyFile⟩ : World R).state = _),
        hn, hdec⟩
    refine ⟨msg, file', rest, ?_⟩
    rw [run_listening] at hfront ⊢
    rw [Loop.run_append_running hfront,
      Loop.run_cons_inl (step_of_reported hready hurl hinj hsend), Loop.run_cons_inr hpanic]

/-- A session over the largest nonce that got as far as decryption: the server was ready,
answered an attestation request for that nonce, and the request directly after it is a
wrapped key that parses, agrees with the session's key and derives a key. -/
structure TopNonceSession (J : Json) (config : Config) (file : Option Bytes)
    (inputs front : List (Input R)) (p q : Input R) (rest : List (Input R)) (u : World R)
    (params : SecretInjectionParams R) : Prop where
  split : inputs = front ++ p :: q :: rest
  before : run J config (.ok ()) file front = .running u
  ready : u.state = .ready
  answered : Answered J config p params
  topNonce : params.nonce = u64Max
  decrypts : Decrypts J params q

/-- **When the server does not panic.**  Its run over any requests is free of panics
exactly when injection is disabled, or no session over the nonce `2 ^ 64 - 1` gets as
far as decryption. -/
theorem never_panics_iff (J : Json) (config : Config) (listening : Except String Unit)
    (file : Option Bytes) (inputs : List (Input R)) :
    (∀ msg file' rest,
        run J config listening file inputs ≠ .finished ⟨Outcome.crash msg, file'⟩ rest) ↔
      listening ≠ .ok () ∨ config.noSecretInjection = true ∨
        ∀ front p q rest u params,
          ¬ TopNonceSession J config file inputs front p q rest u params := by
  cases listening with
  | error e => simp [run, Outcome.fail, Outcome.crash]
  | ok u =>
      have hiff := @run_panics_iff R J config file inputs
      refine ⟨?_, ?_⟩
      · intro h
        by_cases hinj : config.noSecretInjection = true
        · exact Or.inr (Or.inl hinj)
        · refine Or.inr (Or.inr ?_)
          intro front p q rest w params hs
          obtain ⟨hurl, hsend⟩ := answered_iff.mp hs.answered
          obtain ⟨msg, file', rest', hrun⟩ := hiff.mpr ⟨by simpa using hinj, front, p, q, rest, w,
            params, hs.split, hs.before, hs.ready, hurl, hsend, hs.topNonce, hs.decrypts⟩
          exact h msg file' rest' hrun
      · intro h msg file' rest hrun
        obtain ⟨hinj, front, p, q, rest', w, params, hsplit, hbefore, hready, hurl, hsend, htop,
          hdec⟩ := hiff.mp ⟨msg, file', rest, hrun⟩
        rcases h with h | h | h
        · exact h rfl
        · rw [h] at hinj
          exact Bool.noConfusion hinj
        · exact h front p q rest' w params
            ⟨hsplit, hbefore, hready, answered_iff.mpr ⟨hurl, hsend⟩, htop, hdec⟩

/-- An attestation request over the largest nonce and then an empty wrapped key. -/
def topNonceRequests : List (Input Ring.toy) :=
  [⟨⟨"/", Json.toy.attestationRequest.encode ⟨u64Max⟩⟩, .smooth .toy Ring.toyKey⟩,
   ⟨⟨"/", Json.toy.wrappedDiskKey.encode ⟨[], Ring.toyKey⟩⟩, .smooth .toy Ring.toyKey⟩]

theorem panics_on_topNonce : run Json.toy ⟨false, false⟩ (.ok ()) none topNonceRequests
    = .finished ⟨Outcome.crash "attempt to add with overflow", none⟩ [] := by
  rfl

/-! ### Requests that end the server -/

/-- A request that does not end the server against its will: a reset can be acknowledged, and
a wrapped key is not decrypted in a session over the largest nonce. -/
structure Harmless (J : Json) (w : World R) (i : Input R) : Prop where
  acknowledged : "/reset" = i.req.url → i.out.responds = true
  counts : ∀ params, w.state = .waitingForSecretInjection params → params.nonce = u64Max →
    ¬ Decrypts J params i

/-- **A step that ends the loop without an injection is a reset that was not acknowledged, or
a panic.** -/
theorem harmless_iff {w : World R} {i : Input R} :
    Harmless J w i ↔ ∀ e, step J config w i = .inr e → e.result = .ok () := by
  refine ⟨?_, ?_⟩
  · intro h e hstep
    have hcase := step_case hstep
    cases hcase with
    | resetFailed hurl hresp =>
        rw [h.acknowledged hurl] at hresp
        exact Bool.noConfusion hresp
    | accepted hurl hstate hproc => rfl
    | panicked hurl hstate hproc =>
        obtain ⟨params, hw, htop, hdec⟩ := step_panics_iff.mp ⟨_, _, hstep⟩
        exact absurd hdec (h.counts params hw htop)
  · intro h
    refine ⟨?_, ?_⟩
    · intro hurl
      by_contra hresp
      have hstep : step J config w i
          = .inr ⟨Outcome.fail "failed to ack reset request", w.diskKeyFile⟩ := by
        unfold step handle
        rw [if_pos hurl, if_neg hresp]
      exact Outcome.fail_ne_ok _ _ (h _ hstep)
    · intro params hw htop hdec
      obtain ⟨msg, file, hstep⟩ := step_panics_iff.mpr ⟨params, hw, htop, hdec⟩
      exact Outcome.crash_ne_ok _ _ (h _ hstep)

/-- One of the requests was an injection that succeeded. -/
def Injected (J : Json) (config : Config) (file : Option Bytes) (inputs : List (Input R)) :
    Prop :=
  ∃ before q after w params key, inputs = before ++ q :: after ∧
    run J config (.ok ()) file before = .running w ∧
    w.state = .waitingForSecretInjection params ∧ Accepts J params q key

theorem injected_iff {file : Option Bytes} {inputs : List (Input R)} :
    Injected J config file inputs ↔ ∃ file' rest,
      run J config (.ok ()) file inputs = .finished ⟨.ok (), file'⟩ rest := by
  refine ⟨?_, ?_⟩
  · intro h
    obtain ⟨before, q, after, w, params, key, rfl, hrun, hw, haccepts⟩ := h
    refine ⟨some key, after, ?_⟩
    rw [run_listening] at hrun ⊢
    rw [Loop.run_append_running hrun, Loop.run_cons_inr (step_of_accepts hw haccepts)]
  · intro h
    obtain ⟨file', rest, hrun⟩ := h
    rw [run_listening] at hrun
    obtain ⟨before, q, w, hsplit, hbefore, hstep⟩ := Loop.run_finished hrun
    obtain ⟨params, key, hw, haccepts, -⟩ := step_ok hstep
    exact ⟨before, q, rest, w, params, key, hsplit, hbefore, hw, haccepts⟩

/-- After each request the server goes on to the next one, in one of the two states of the
loop, as long as no injection has succeeded. -/
def KeepsServing (J : Json) (config : Config) (file : Option Bytes) (inputs : List (Input R)) :
    Prop :=
  ∀ front, front <+: inputs → ¬ Injected J config file front →
    ∃ w, run J config (.ok ()) file front = .running w

/-- **When the server keeps serving.**  Whatever the requests and whichever replies fail, the
server goes on until an injection succeeds exactly if every request is harmless in the state
that it finds. -/
theorem keepsServing_iff (J : Json) (config : Config) (file : Option Bytes)
    (inputs : List (Input R)) :
    KeepsServing J config file inputs ↔ ∀ front i back w, inputs = front ++ i :: back →
      run J config (.ok ()) file front = .running w → Harmless J w i := by
  refine ⟨?_, ?_⟩
  · intro h front i back w hinputs hfront
    have hends : ∀ e, step J config w i = .inr e → e.result = .ok () := by
      intro e hstep
      have hfinished : run J config (.ok ()) file (front ++ [i]) = .finished e [] :=
        Loop.run_snoc_finished.mpr ⟨w, hfront, hstep⟩
      have hprefix : front ++ [i] <+: inputs := ⟨back, by rw [hinputs]; simp⟩
      by_cases hinjected : Injected J config file (front ++ [i])
      · obtain ⟨file', rest, hok⟩ := injected_iff.mp hinjected
        rw [hfinished, Loop.Status.finished.injEq] at hok
        rw [hok.1]
      · obtain ⟨w', hrunning⟩ := h _ hprefix hinjected
        rw [hfinished] at hrunning
        exact absurd hrunning (by simp)
    exact harmless_iff.mpr hends
  · intro h front hprefix hinjected
    obtain ⟨back, rfl⟩ := hprefix
    cases hrun : run J config (.ok ()) file front with
    | running w => exact ⟨w, rfl⟩
    | finished e rest =>
        obtain ⟨before, i, w, hsplit, hbefore, hstep⟩ := Loop.run_finished hrun
        have hharmless : Harmless J w i :=
          h before i (rest ++ back) w (by rw [hsplit, List.append_assoc]; rfl) hbefore
        obtain ⟨result, file'⟩ := e
        have hok : result = .ok () := harmless_iff.mp hharmless _ hstep
        subst hok
        exact absurd (injected_iff.mpr ⟨file', rest, hrun⟩) hinjected

/-- The same failed reply to an attestation request and to a reset. -/
def unanswered : Outside Ring.toy := { Outside.smooth .toy Ring.toyKey with responds := false }

/-- A report that cannot be delivered is no reason to stop, a reset that cannot be
acknowledged is. -/
theorem reset_ends_server :
    KeepsServing Json.toy ⟨false, false⟩ none
        [⟨⟨"/", Json.toy.attestationRequest.encode ⟨7⟩⟩, unanswered⟩] ∧
      run Json.toy ⟨false, false⟩ (.ok ()) none [⟨⟨"/reset", []⟩, unanswered⟩]
        = .finished ⟨Outcome.fail "failed to ack reset request", none⟩ [] ∧
      ¬ KeepsServing Json.toy ⟨false, false⟩ none [⟨⟨"/reset", []⟩, unanswered⟩] := by
  have hends : run Json.toy ⟨false, false⟩ (.ok ()) none [⟨⟨"/reset", []⟩, unanswered⟩]
      = .finished ⟨Outcome.fail "failed to ack reset request", none⟩ [] := rfl
  refine ⟨?_, hends, ?_⟩
  · intro front hprefix _
    rcases List.prefix_cons_iff.mp hprefix with rfl | ⟨front, rfl, hrest⟩
    · exact ⟨_, rfl⟩
    · rw [List.prefix_nil] at hrest
      subst hrest
      exact ⟨_, rfl⟩
  · intro h
    have hinjected : ¬ Injected Json.toy ⟨false, false⟩ none [⟨⟨"/reset", []⟩, unanswered⟩] := by
      rw [injected_iff, hends]
      simp
    obtain ⟨w, hw⟩ := h _ (List.prefix_refl _) hinjected
    rw [hends] at hw
    exact absurd hw (by simp)

end SnpGuard.Server
