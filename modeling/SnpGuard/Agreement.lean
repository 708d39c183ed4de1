/-
Agreement between a server and its honest clients.

One guest runs the attestation server, and starts it again when it returned.  The
network belongs to an adversary: it hands the server any request and any honest client
any report, in any order and as often as it likes, within two limits.  A report that
passes a signature check is one that the guest's firmware issued to the server, and a
ciphertext that somebody can open was either sent by an honest client or made from a
secret the adversary knows.

The invariant says where everything came from: the key of the session that is open and
of every session that ended was generated by the server and by nobody else
(`Inv.fresh`), every report names a nonce and a key of the server's (`Inv.issued`), and
every released key belongs to an issued report (`Inv.released`).  A ciphertext made with
an honest client's key opens under a secret the adversary does not know, so it is the
one that client sent, and it opens in one session only (`accepted_agrees`).
-/
import SnpGuard.Lib.Lts
import SnpGuard.Delivery
import SnpGuard.Parties

namespace SnpGuard.Agreement

open Server

variable {R : Ring} {C : Crates} {J : Json} {ι : Type}

/-- A request that ended a run of the server in `Ok`, and the world it came upon. -/
structure Acceptance (R : Ring) where
  world : World R
  input : Input R
  file : Option Bytes

structure State (R : Ring) (ι : Type) where
  /-- The server, unless it returned or panicked. -/
  server : Option (World R)
  /-- The keys the server generated. -/
  generated : Set R.PrivateKey
  /-- The reports the firmware issued to the server, with nonce and session key. -/
  issued : Set (UInt64 × R.PrivateKey × AttestationReport)
  /-- What each honest client released, and for which report. -/
  released : ι → Option (AttestationReport × WrappedDiskKey)
  accepted : List (Acceptance R)

/-- What the server's handling of one request adds to the state. -/
def State.handled (s : State R ι) (J : Json) (w : World R) (i : Input R)
    (server : Option (World R)) : State R ι where
  server := server
  generated := s.generated ∪ {k | i.out.generated = some k}
  issued := s.issued ∪ {e | Parties.Issues J w i e.1 e.2.1 e.2.2}
  released := s.released
  accepted := s.accepted

variable (C J)

/-- What the adversary can have the server receive; it may know every plaintext. -/
abbrev Sendable (P : Parties R ι) (s : State R ι) (i : Input R) : Prop :=
  P.Sendable J (P.knowledge (Parties.sent s.released) Set.univ) s.generated i

inductive Step (P : Parties R ι) : State R ι → Unit → State R ι → Prop
  /-- The server handles a request and goes on. -/
  | serves {s : State R ι} {w w' : World R} {i : Input R} (hserver : s.server = some w)
      (hsend : Sendable J P s i) (hstep : Server.step J Parties.serverConfig w i = .inl w') :
      Step P s () (s.handled J w i (some w'))
  /-- The server handles a request and is done: by accepting it, or in an error. -/
  | ends {s : State R ι} {w : World R} {i : Input R} {e : Exit} (hserver : s.server = some w)
      (hsend : Sendable J P s i) (hstep : Server.step J Parties.serverConfig w i = .inr e)
      (herror : e.result ≠ .ok ()) : Step P s () (s.handled J w i none)
  | accepts {s : State R ι} {w : World R} {i : Input R} {file : Option Bytes}
      (hserver : s.server = some w) (hsend : Sendable J P s i)
      (hstep : Server.step J Parties.serverConfig w i = .inr ⟨.ok (), file⟩) :
      Step P s () { s.handled J w i none with accepted := s.accepted ++ [⟨w, i, file⟩] }
  /-- The server is started again. -/
  | restarts {s : State R ι} (file : Option Bytes) (hserver : s.server = none) :
      Step P s () { s with server := some (start file) }
  /-- An honest client verifies a report and sends its wrapped key. -/
  | releases {s : State R ι} {c : ι} {report : AttestationReport}
      {wrapped : WrappedDiskKey} (hfirst : s.released c = none)
      (hunforged : ∀ family cert, verifyReportSignature C family report cert = .ok () →
        ∃ n k, (n, k, report) ∈ s.issued)
      (hrelease : P.Releases C c report wrapped)
      {released : ι → Option (AttestationReport × WrappedDiskKey)}
      (hnew : released c = some (report, wrapped))
      (hothers : ∀ c', c' ≠ c → released c' = s.released c') :
      Step P s () { s with released := released }

/-- The guest, its honest clients and the adversary. -/
def system (P : Parties R ι) : Lts (State R ι) Unit where
  init s := (∃ file, s.server = some (start file)) ∧ s.generated = ∅ ∧ s.issued = ∅ ∧
    (∀ c, s.released c = none) ∧ s.accepted = []
  step := Step C J P

/-! ### The invariant -/

variable {C J}

/-- The key of the session that an acceptance belongs to. -/
def Acceptance.sessionKey (a : Acceptance R) : Option R.PrivateKey :=
  match a.world.state with
  | .ready => none
  | .waitingForSecretInjection params => some params.ephServerDhKey

/-- If the key that was accepted is honest client `c`'s, then `c` released it for the report
of this very session, and the file holds `c`'s disk key. -/
structure AgreesWith (C : Crates) (P : Parties R ι) (s : State R ι) (a : Acceptance R)
    (params : SecretInjectionParams R) (wrapped : WrappedDiskKey) (c : ι)
    (report : AttestationReport) : Prop where
  released : s.released c = some (report, wrapped)
  releases : P.Releases C c report wrapped
  reportData : ReportData.ofBlock report.reportData
    = ⟨params.nonce, R.computePublicKey params.ephServerDhKey⟩
  issued : (params.nonce, params.ephServerDhKey, report) ∈ s.issued
  file : a.file = some (Bytes.ofString (P.diskKey c))

/-- What an acceptance says about the honest clients. -/
structure Agreed (C : Crates) (J : Json) (P : Parties R ι) (s : State R ι) (a : Acceptance R)
    (params : SecretInjectionParams R) (wrapped : WrappedDiskKey) : Prop where
  session : a.world.state = .waitingForSecretInjection params
  generated : params.ephServerDhKey ∈ s.generated
  message : J.wrappedDiskKey.decode a.input.req.body = some wrapped
  agrees : ∀ c, wrapped.clientPublicKey = R.computePublicKey (P.priv c) →
    ∃ report, AgreesWith C P s a params wrapped c report

structure Inv (C : Crates) (J : Json) (P : Parties R ι) (s : State R ι) : Prop where
  /-- What the server generated is nobody else's. -/
  fresh : ∀ k ∈ s.generated, k ∉ P.adversaryKeys ∧ ∀ c, k ≠ P.priv c
  /-- The open session has a key of the server's that no acceptance has used. -/
  session : ∀ w params, s.server = some w → w.state = .waitingForSecretInjection params →
    params.ephServerDhKey ∈ s.generated ∧
      ∀ a ∈ s.accepted, a.sessionKey ≠ some params.ephServerDhKey
  /-- An issued report carries its nonce and the public half of its key. -/
  issued : ∀ n k report, (n, k, report) ∈ s.issued →
    k ∈ s.generated ∧ ReportData.ofBlock report.reportData = ⟨n, R.computePublicKey k⟩
  released : ∀ c report wrapped, s.released c = some (report, wrapped) →
    P.Releases C c report wrapped ∧ ∃ n k, (n, k, report) ∈ s.issued
  accepted : ∀ a ∈ s.accepted, ∃ params wrapped, Agreed C J P s a params wrapped
  distinct : s.accepted.Pairwise fun a b => a.sessionKey ≠ b.sessionKey

variable {P : Parties R ι}

/-- More was generated, issued and released. -/
structure State.Le (s s' : State R ι) : Prop where
  generated : s.generated ⊆ s'.generated
  issued : s.issued ⊆ s'.issued
  released : ∀ c x, s.released c = some x → s'.released c = some x

theorem State.le_handled (s : State R ι) (w : World R) (i : Input R) (server : Option (World R)) :
    s.Le (s.handled J w i server) where
  generated := Set.subset_union_left
  issued := Set.subset_union_left
  released _ _ h := h

theorem Agreed.mono {s s' : State R ι} (hle : s.Le s') {a : Acceptance R}
    {params : SecretInjectionParams R} {wrapped : WrappedDiskKey}
    (h : Agreed C J P s a params wrapped) : Agreed C J P s' a params wrapped where
  session := h.session
  generated := hle.generated h.generated
  message := h.message
  agrees := by
    intro c hc
    obtain ⟨report, hagrees⟩ := h.agrees c hc
    exact ⟨report, hle.released _ _ hagrees.released, hagrees.releases, hagrees.reportData,
      hle.issued hagrees.issued, hagrees.file⟩

theorem Inv.accepted_mono {s s' : State R ι} (hI : Inv C J P s) (hle : s.Le s')
    {a : Acceptance R} (ha : a ∈ s.accepted) :
    ∃ params wrapped, Agreed C J P s' a params wrapped := by
  obtain ⟨params, wrapped, hagreed⟩ := hI.accepted a ha
  exact ⟨params, wrapped, hagreed.mono hle⟩

theorem Agreed.sessionKey {s : State R ι} {a : Acceptance R} {params : SecretInjectionParams R}
    {wrapped : WrappedDiskKey} (h : Agreed C J P s a params wrapped) :
    a.sessionKey = some params.ephServerDhKey := by
  unfold Acceptance.sessionKey
  rw [h.session]

/-! ### What one step preserves -/

/-- **An accepted key of an honest client is the one it released for this session.** -/
theorem accepted_agrees (hR : R.Ideal) {s : State R ι} (hI : Inv C J P s) {w : World R}
    {i : Input R} {file : Option Bytes} (hserver : s.server = some w)
    (hsend : Sendable J P s i)
    (hstep : Server.step J Parties.serverConfig w i = .inr ⟨.ok (), file⟩) :
    ∃ params wrapped, Agreed C J P s ⟨w, i, file⟩ params wrapped := by
  obtain ⟨params, key, hw, haccepts, hfile⟩ := step_ok hstep
  obtain ⟨hgenerated, -⟩ := hI.session w params hserver hw
  obtain ⟨hadversary, hclients⟩ := hI.fresh _ hgenerated
  obtain ⟨wrapped, secret, hdecode, hagree, hdec⟩ := haccepts.unwraps
  refine ⟨params, wrapped, hw, hgenerated, hdecode, ?_⟩
  intro c hc
  rw [hc] at hagree
  -- The adversary holds neither key, so somebody honest sent the ciphertext.
  have hsecret : ¬ (P.knowledge (Parties.sent s.released) Set.univ).KnowsSecret secret :=
    P.not_knowsSecret hR hadversary hagree
  have hopen : (hybrid R).unwrap secret params.nonce wrapped.wrappedDiskKey = some key :=
    toOption_eq_some.mpr hdec
  obtain ⟨c', report, wrapped', hreleased, hcipher⟩ :=
    (hsend.cipher wrapped hdecode).opened hopen hsecret
  obtain ⟨hreleases, n, k, hissued⟩ := hI.released c' report wrapped' hreleased
  obtain ⟨-, hdata⟩ := hI.issued n k report hissued
  obtain ⟨secret', hagree', henc, hpub⟩ := hreleases.sealed
  -- It opens under one secret and one nonce, and the secret belongs to one pair of keys.
  rw [hcipher] at hopen
  obtain ⟨rfl, hnonce, hkey⟩ :=
    (hybrid_ideal hR).opens_only (toOption_eq_some.mpr henc) hopen
  rw [hdata] at hagree'
  rcases hR.agree_injective hagree' hagree with ⟨heq, -⟩ | ⟨heq, hpubs⟩
  · exact absurd heq (hclients c')
  · have hclient : c = c' := P.priv_injective (hR.computePublicKey_injective hpubs)
    subst hclient
    have hsame : wrapped' = wrapped := by
      obtain ⟨cipher, pub⟩ := wrapped
      obtain ⟨cipher', pub'⟩ := wrapped'
      simp only at hcipher hpub hc
      rw [hcipher, hpub, hc]
    have hn : n = params.nonce := by
      rw [hnonce, ← hreleases.nonce, hdata]
    rw [hsame] at hreleased hreleases
    rw [hn, ← heq] at hdata hissued
    exact ⟨report, hreleased, hreleases, hdata, hissued, by rw [hfile, hkey]⟩

/-- What handling a request preserves, whatever becomes of the server. -/
theorem Inv.handled {s : State R ι} (hI : Inv C J P s) {w : World R} {i : Input R}
    (hsend : Sendable J P s i) {server : Option (World R)}
    (hsession : ∀ w' params, server = some w' → w'.state = .waitingForSecretInjection params →
      i.out.generated = some params.ephServerDhKey) :
    Inv C J P (s.handled J w i server) where
  fresh := by
    intro k hk
    rcases hk with hk | hk
    · exact hI.fresh k hk
    · exact (hsend.fresh k hk).2
  session := by
    intro w' params hw' hstate
    have hgen := hsession w' params hw' hstate
    refine ⟨Or.inr hgen, ?_⟩
    intro a ha hkey
    obtain ⟨params', wrapped, hagreed⟩ := hI.accepted a ha
    rw [hagreed.sessionKey, Option.some.injEq] at hkey
    exact (hsend.fresh _ hgen).1 (hkey ▸ hagreed.generated)
  issued := by
    intro n k report hissued
    rcases hissued with hissued | hissued
    · obtain ⟨hk, hdata⟩ := hI.issued n k report hissued
      exact ⟨Or.inl hk, hdata⟩
    · exact ⟨Or.inr hissued.generated, report_of_session hsend.binds hissued.report⟩
  released := by
    intro c report wrapped hreleased
    obtain ⟨hreleases, n, k, hissued⟩ := hI.released c report wrapped hreleased
    exact ⟨hreleases, n, k, Or.inl hissued⟩
  accepted := by
    intro a ha
    exact hI.accepted_mono (s.le_handled w i server) ha
  distinct := hI.distinct

theorem Inv.step (hR : R.Ideal) {s s' : State R ι} {u : Unit} (hI : Inv C J P s)
    (h : Step C J P s u s') : Inv C J P s' := by
  cases h with
  | @serves w w' i hserver hsend hstep =>
      refine hI.handled hsend ?_
      intro w'' params hw'' hstate
      rw [Option.some.injEq] at hw''
      rw [← hw''] at hstate
      obtain ⟨-, hurl, -, hok, -⟩ := step_waiting hstep hstate
      exact (answered_iff.mpr ⟨hurl, hok⟩).generated
  | ends hserver hsend hstep herror =>
      refine hI.handled hsend ?_
      intro w'' params hw''
      simp at hw''
  | @accepts w i file hserver hsend hstep =>
      have hhandled : Inv C J P (s.handled J w i none) :=
        hI.handled hsend (by intro w'' params hw''; simp at hw'')
      obtain ⟨params, wrapped, hagreed⟩ := accepted_agrees hR hI hserver hsend hstep
      obtain ⟨-, hunused⟩ := hI.session w params hserver hagreed.session
      refine ⟨hhandled.fresh, by intro w'' params hw''; simp [State.handled] at hw'',
        hhandled.issued, hhandled.released, ?_, ?_⟩
      · intro a ha
        have hle : s.Le (s.handled J w i none) := s.le_handled w i none
        rcases List.mem_append.mp ha with ha | ha
        · refine hI.accepted_mono ?_ ha
          exact ⟨hle.generated, hle.issued, hle.released⟩
        · rw [List.mem_singleton.mp ha]
          refine ⟨params, wrapped, hagreed.mono ?_⟩
          exact ⟨hle.generated, hle.issued, hle.released⟩
      · refine List.pairwise_append.mpr ⟨hI.distinct, List.pairwise_singleton _ _, ?_⟩
        intro a ha b hb
        rw [List.mem_singleton.mp hb, hagreed.sessionKey]
        exact hunused a ha
  | restarts file hserver =>
      refine ⟨hI.fresh, ?_, hI.issued, hI.released, ?_, hI.distinct⟩
      · intro w params hw hstate
        rw [Option.some.injEq] at hw
        rw [← hw] at hstate
        simp [start] at hstate
      · intro a ha
        refine hI.accepted_mono ?_ ha
        exact ⟨subset_rfl, subset_rfl, fun _ _ h => h⟩
  | @releases c report wrapped hfirst hunforged hrelease released hnew hothers =>
      refine ⟨hI.fresh, hI.session, hI.issued, ?_, ?_, hI.distinct⟩
      · intro c' report' wrapped' hreleased
        by_cases hc : c' = c
        · subst hc
          simp only [hnew, Option.some.injEq, Prod.mk.injEq] at hreleased
          obtain ⟨rfl, rfl⟩ := hreleased
          obtain ⟨cert, hsigned⟩ := hrelease.signed
          exact ⟨hrelease, hunforged _ cert hsigned⟩
        · simp only [hothers c' hc] at hreleased
          exact hI.released c' report' wrapped' hreleased
      · intro a ha
        refine hI.accepted_mono ?_ ha
        refine ⟨subset_rfl, subset_rfl, ?_⟩
        intro c' x hx
        have hc : c' ≠ c := by
          intro hc
          rw [hc, hfirst] at hx
          simp at hx
        show released c' = some x
        rw [hothers c' hc]
        exact hx

/-! ### Every interleaving -/

theorem reachable_inv (hR : R.Ideal) {s : State R ι} (h : (system C J P).Reachable s) :
    Inv C J P s := by
  refine h.invariant ?_ ?_
  · intro s hs
    obtain ⟨⟨file, hserver⟩, hgenerated, hissued, hreleased, haccepted⟩ := hs
    refine ⟨?_, ?_, ?_, ?_, ?_, ?_⟩
    · rw [hgenerated]
      simp
    · intro w params hw hstate
      rw [hserver, Option.some.injEq] at hw
      rw [← hw] at hstate
      simp [start] at hstate
    · rw [hissued]
      simp
    · intro c report wrapped h
      rw [hreleased c] at h
      simp at h
    · rw [haccepted]
      simp
    · rw [haccepted]
      exact List.Pairwise.nil
  · intro s u s' _ hI hstep
    exact hI.step hR hstep

/-- **Injective agreement.**  In every interleaving: when the server accepted a key that
carries honest client `c`'s public key, `c` had verified a report with the nonce and the
key of the very session that accepted it, issued for that session; the file holds `c`'s
disk key; and no other session accepted a message made with `c`'s key. -/
theorem injective_agreement (hR : R.Ideal) {s : State R ι} (h : (system C J P).Reachable s)
    {earlier later : List (Acceptance R)} {a : Acceptance R}
    (ha : s.accepted = earlier ++ a :: later) :
    ∃ params wrapped, a.world.state = .waitingForSecretInjection params ∧
      J.wrappedDiskKey.decode a.input.req.body = some wrapped ∧
      ∀ c, wrapped.clientPublicKey = R.computePublicKey (P.priv c) →
        (∃ report, AgreesWith C P s a params wrapped c report) ∧
        ∀ b ∈ earlier ++ later, ∀ wrapped',
          J.wrappedDiskKey.decode b.input.req.body = some wrapped' →
            wrapped'.clientPublicKey ≠ R.computePublicKey (P.priv c) := by
  have hI := reachable_inv hR h
  have hmem : ∀ b, b = a ∨ b ∈ earlier ++ later → b ∈ s.accepted := by
    intro b hb
    rw [ha]
    simp only [List.mem_append, List.mem_cons] at hb ⊢
    tauto
  obtain ⟨params, wrapped, hagreed⟩ := hI.accepted a (hmem a (Or.inl rfl))
  refine ⟨params, wrapped, hagreed.session, hagreed.message, ?_⟩
  intro c hc
  obtain ⟨report, hreport⟩ := hagreed.agrees c hc
  refine ⟨⟨report, hreport⟩, ?_⟩
  intro b hb wrapped' hdecode hc'
  obtain ⟨params', wrapped'', hagreed'⟩ := hI.accepted b (hmem b (Or.inr hb))
  have hsame : wrapped'' = wrapped' :=
    Option.some.inj (hagreed'.message.symm.trans hdecode)
  subst hsame
  obtain ⟨report', hreport'⟩ := hagreed'.agrees c hc'
  -- The client released one key, so both sessions have the key its report names.
  have hreports : report' = report := by
    have hboth := hreport'.released
    rw [hreport.released, Option.some.injEq, Prod.mk.injEq] at hboth
    exact hboth.1.symm
  have hkeys : params'.ephServerDhKey = params.ephServerDhKey := by
    have hdata := hreport'.reportData
    rw [hreports, hreport.reportData, ReportData.mk.injEq] at hdata
    exact hR.computePublicKey_injective hdata.2.symm
  have hne : b.sessionKey ≠ a.sessionKey := by
    have hdistinct := hI.distinct
    rw [ha, List.pairwise_append] at hdistinct
    obtain ⟨-, hlater, hcross⟩ := hdistinct
    rcases List.mem_append.mp hb with hb | hb
    · exact hcross b hb a (by simp)
    · exact ((List.pairwise_cons.mp hlater).1 b hb).symm
  rw [hagreed'.sessionKey, hagreed.sessionKey, hkeys] at hne
  exact hne rfl

/-! ### One client and nobody else -/

def toyParties : Parties Ring.toy Unit where
  nonce _ := 0
  priv _ := Block.zero 32
  expected _ := .toy
  diskKey _ := "key"
  adversaryKeys := ∅
  priv_injective _ := rfl
  honest _ h := h

theorem toy_releases : toyParties.Releases Crates.toy () toySessionReport toyWrapped where
  verified := by
    have hok : (verifyReceived Crates.toy .toy .toy toySessionReport
        (Client.reportDataValidator 0) fun _ => none).1 = .ok () := by decide +kernel
    obtain ⟨cache, hcache⟩ := Effect.exists_of_fst hok
    exact ⟨.toy, fun _ => none, cache, hcache⟩
  wraps := ⟨.toy toySessionReport, .toy "key", rfl, rfl, toyWrapped_eq⟩

/-- The key of the toy session is nobody else's. -/
theorem toy_fresh {k : Block 32} (h : some Ring.toyKey = some k) :
    k ∉ toyParties.adversaryKeys ∧ ∀ c, k ≠ toyParties.priv c := by
  rw [Option.some.injEq] at h
  subst h
  have hne : Ring.toyKey ≠ Block.zero 32 := by decide
  exact ⟨fun hk => hk, fun _ => hne⟩

theorem toy_issues : Parties.Issues Json.toy (start none) alone.attestation toySession.nonce
    toySession.ephServerDhKey toySessionReport where
  ready := rfl
  notReset := toy_answered.notReset
  request := toy_answered.request
  generated := toy_answered.generated
  computes := rfl
  report := toySessionReport_eq

/-- The key request comes at any later time, when the client has sent it. -/
theorem toy_injected : Server.step Json.toy Parties.serverConfig
    ⟨.waitingForSecretInjection toySession, none⟩ alone.key
      = .inr ⟨.ok (), some (Bytes.ofString "key")⟩ :=
  step_of_accepts rfl (toy_accepts toyWrapped_eq)

theorem toy_message : Json.toy.wrappedDiskKey.decode alone.key.req.body = some toyWrapped := by
  have hbody : alone.key.req.body = Json.toy.wrappedDiskKey.encode toyWrapped := rfl
  rw [hbody]
  exact Json.toy_roundTrips.wrappedDiskKey toyWrapped

/-- The run of a client alone with the server. -/
theorem toy_reachable : ∃ s : State Ring.toy Unit,
    (system Crates.toy Json.toy toyParties).Reachable s ∧
      s.accepted = [⟨⟨.waitingForSecretInjection toySession, none⟩, alone.key,
        some (Bytes.ofString "key")⟩] := by
  let waiting : World Ring.toy := ⟨.waitingForSecretInjection toySession, none⟩
  let initial : State Ring.toy Unit := ⟨some (start none), ∅, ∅, fun _ => none, []⟩
  let asked : State Ring.toy Unit :=
    initial.handled Json.toy (start none) alone.attestation (some waiting)
  let released : State Ring.toy Unit :=
    { asked with released := fun _ => some (toySessionReport, toyWrapped) }
  have hattestation : Sendable Json.toy toyParties initial alone.attestation := by
    refine ⟨?_, ?_, Firmware.genuine_binds⟩
    · intro wrapped hdecode
      exact absurd hdecode attestation_not_wrapped
    · intro k hk
      exact ⟨fun h => h, toy_fresh hk⟩
  have hissued : (toySession.nonce, toySession.ephServerDhKey, toySessionReport)
      ∈ asked.issued := Or.inr toy_issues
  have hsent : toyWrapped.wrappedDiskKey ∈ Parties.sent released.released :=
    ⟨(), toySessionReport, toyWrapped, rfl, rfl⟩
  have hkey : Sendable Json.toy toyParties released alone.key := by
    refine ⟨?_, ?_, Firmware.genuine_binds⟩
    · intro wrapped hdecode
      rw [toy_message, Option.some.injEq] at hdecode
      rw [← hdecode]
      exact Or.inl hsent
    · intro k hk
      exact absurd hk (by simp [alone, keyless])
  refine ⟨_, @Lts.Reachable.step _ _ _ released _ () (@Lts.Reachable.step _ _ _ asked _ ()
    (@Lts.Reachable.step _ _ _ initial _ () (.init ?_) ?_) ?_) (.accepts rfl hkey toy_injected),
    rfl⟩
  · exact ⟨⟨none, rfl⟩, rfl, rfl, fun _ => rfl, rfl⟩
  · exact .serves rfl hattestation toy_asked
  · exact .releases rfl (fun _ _ _ => ⟨_, _, hissued⟩) toy_releases rfl
      (fun c' hc' => absurd rfl hc')

/-- The client alone with the server agrees with it. -/
theorem agreement_alone :
    ∃ (s : State Ring.toy Unit) (a : Acceptance Ring.toy),
      (system Crates.toy Json.toy toyParties).Reachable s ∧ s.accepted = [a] ∧
        ∃ params wrapped report, AgreesWith Crates.toy toyParties s a params wrapped () report := by
  obtain ⟨s, hreachable, haccepted⟩ := toy_reachable
  obtain ⟨params, wrapped, hsession, hmessage, hagrees⟩ :=
    @injective_agreement _ _ _ _ _ Ring.toy_ideal s hreachable [] [] _ haccepted
  have hclient : wrapped.clientPublicKey = Ring.toy.computePublicKey (toyParties.priv ()) := by
    simp only [toy_message, Option.some.injEq] at hmessage
    rw [← hmessage]
    decide +kernel
  obtain ⟨⟨report, hreport⟩, -⟩ := hagrees () hclient
  exact ⟨s, _, hreachable, haccepted, params, wrapped, report, hreport⟩

end SnpGuard.Agreement
