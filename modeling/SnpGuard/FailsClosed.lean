/-
What the client gives away, whatever it is answered.

A run of the client posts at most three requests, and only the third one has something to
do with the disk key.  Before it, the report that came back was verified; the key is wrapped
for whoever is named in that report (`run_posts`).  Up to that point the disk key has not
been looked at, so two runs that differ in nothing but the key cannot be told apart by then,
and not at all if they end before (`run_twice`).  Server, key distribution service and files
answer whatever they like.
-/
import SnpGuard.Completeness

namespace SnpGuard.Client

variable {R : Ring} {J : Json} {C : Crates} {env : Env R} {args : Args}

/-! ### Up to the key -/

/-- The requests of a run that does not get to the key. -/
def Asks (J : Json) (posted : List Server.Request) : Prop :=
  ∃ resetEndpoint url nonce,
    posted <+: [resetRequest resetEndpoint, attestationRequest J url nonce]

theorem post_leaves {send : Server.Request → HttpResult} {req : Server.Request} {msg : String}
    {s : Traces} {P : Traces → Prop} (h : P { s with posted := s.posted ++ [req] }) :
    (post send req msg).Leaves s P := by
  unfold Effect.Leaves post
  cases send req with
  | failed => exact h
  | response status body => exact h

/-- Dumping posts nothing. -/
theorem dumpReport_leaves {report : AttestationReport} {s : Traces} {P : Traces → Prop}
    (h : ∀ dump, P { s with dump }) : (dumpReport J env args report).Leaves s P := by
  unfold Effect.Leaves dumpReport
  cases args.dumpReport with
  | none => exact h s.dump
  | some path =>
      by_cases hcreates : env.dumpCreates = true
      · simp only [hcreates, if_true]
        cases env.dumpFailsAfter with
        | none => exact h _
        | some n => exact h _
      · simp only [hcreates]
        exact h s.dump

/-- Phase 1 asks, and that is all it posts. -/
theorem phase1_leaves (t : Traces) :
    (phase1 J C env args).Leaves t fun t' =>
      ∃ posted, t'.posted = t.posted ++ posted ∧ Asks J posted := by
  have hnone : ∀ t' : Traces, t'.posted = t.posted →
      ∃ posted, t'.posted = t.posted ++ posted ∧ Asks J posted := by
    intro t' h
    exact ⟨[], by rw [h, List.append_nil], .root, .root, 0, List.nil_prefix⟩
  have hone : ∀ resetEndpoint (t' : Traces), t'.posted = t.posted ++ [resetRequest resetEndpoint] →
      ∃ posted, t'.posted = t.posted ++ posted ∧ Asks J posted := by
    intro resetEndpoint t' h
    exact ⟨_, h, resetEndpoint, .root, 0, ⟨_, rfl⟩⟩
  have htwo : ∀ resetEndpoint url nonce (t' : Traces),
      t'.posted = t.posted ++ [resetRequest resetEndpoint, attestationRequest J url nonce] →
      ∃ posted, t'.posted = t.posted ++ posted ∧ Asks J posted := by
    intro resetEndpoint url nonce t' h
    exact ⟨_, h, resetEndpoint, url, nonce, List.prefix_rfl⟩
  unfold phase1
  refine Effect.leaves_bind (Effect.leaves_lift (P := fun t' => t'.posted = t.posted) rfl) hnone ?_
  intro expected t₁ h₁
  refine Effect.leaves_bind (Effect.leaves_lift h₁) hnone ?_
  intro buffer t₂ h₂
  refine Effect.leaves_bind (Effect.leaves_lift h₂) hnone ?_
  intro url t₃ h₃
  refine Effect.leaves_bind (Effect.leaves_lift h₃) hnone ?_
  intro resetEndpoint t₄ h₄
  refine Effect.leaves_bind (post_leaves
    (P := fun t' => t'.posted = t.posted ++ [resetRequest resetEndpoint]) ?_)
    (hone resetEndpoint) ?_
  · rw [h₄]
  intro _ t₅ h₅
  refine Effect.leaves_bind (post_leaves (P := fun t' => t'.posted = t.posted ++
    [resetRequest resetEndpoint, attestationRequest J url (Bytes.u64OfLE buffer)]) ?_)
    (htwo _ _ _) ?_
  · rw [h₅, List.append_assoc]
    rfl
  intro body t₆ h₆
  refine Effect.leaves_bind (Effect.leaves_lift h₆) (htwo _ _ _) ?_
  intro report t₇ h₇
  refine Effect.leaves_bind (dumpReport_leaves fun _ => h₇) (htwo _ _ _) ?_
  intro _ t₈ h₈
  refine Effect.leaves_bind (Effect.leaves_zoom fun _ => h₈) (htwo _ _ _) ?_
  intro _ t₉ h₉
  exact Effect.leaves_pure (htwo _ _ _ _ h₉)

/-! ### The key -/

/-- What speaks for posting `wrapped`: the report that was received passed verification with
this run's nonce in front of its report data, and the key is wrapped for the 32 bytes that
follow there. -/
structure Justified (J : Json) (C : Crates) (env : Env R) (args : Args) (cache : Folder)
    (resetEndpoint : Url) (v : Verified) (wrapped : WrappedDiskKey) : Prop where
  verified : ∃ expected cert, Received J C env args expected resetEndpoint v ∧
    (lookupVcek C env.vcek v.report expected.vmDescription.hostCpuFamily cache).1 = .ok cert ∧
    checkAgainst C expected v.report cert (reportDataValidator v.nonce) = .ok ()
  fresh : Bytes.u64OfLE (Block.slice v.report.reportData.bytes 0 8 (by simp)) = v.nonce
  sealed : ∃ priv secret, env.generated = some priv ∧
    R.agreeEphemeral priv (Block.slice v.report.reportData.bytes 8 32 (by simp)) = some secret ∧
    aeadEnc R secret v.nonce (Bytes.ofString args.diskKey) = .ok wrapped.wrappedDiskKey ∧
    wrapped.clientPublicKey = R.computePublicKey priv

/-- What a run returns once the wrapped key is posted. -/
def keyAnswer (env : Env R) (req : Server.Request) : Outcome UserError Unit :=
  match env.sendKey req with
  | .failed => Outcome.fail (.whatever "failed to send wrapped disk key")
  | .response _ _ => .ok ()

/-- A run that gets to post the wrapped key. -/
structure Posts (J : Json) (C : Crates) (env : Env R) (args : Args) (t : Traces)
    (resetEndpoint : Url) (v : Verified) (t₁ : Traces) (wrapped : WrappedDiskKey) : Prop where
  phase1 : phase1 J C env args t = (.ok v, t₁)
  asked : t₁.posted = t.posted ++ [resetRequest resetEndpoint, attestationRequest J v.url v.nonce]
  justified : Justified J C env args t.cache resetEndpoint v wrapped
  run : run J C env args t = (keyAnswer env (keyRequest J v.url wrapped),
    { t₁ with posted := t₁.posted ++ [keyRequest J v.url wrapped] })

/-- A run that ends before: it has posted requests for a report, and nothing else. -/
structure Ends (J : Json) (C : Crates) (env : Env R) (args : Args) (t : Traces) : Prop where
  failed : ∃ e, (run J C env args t).1 = .error e
  asked : ∃ posted, (run J C env args t).2.posted = t.posted ++ posted ∧ Asks J posted

theorem post_key (req : Server.Request) (t : Traces) :
    (post env.sendKey req "failed to send wrapped disk key" >>= fun _ =>
        (pure () : Effect Traces UserError Unit)) t
      = (keyAnswer env req, { t with posted := t.posted ++ [req] }) := by
  unfold keyAnswer
  cases hsend : env.sendKey req with
  | failed =>
      have hpost : post env.sendKey req "failed to send wrapped disk key" t
          = (Outcome.fail (.whatever "failed to send wrapped disk key"),
              { t with posted := t.posted ++ [req] }) := by
        simp [post, hsend]
      exact Effect.bind_of_error hpost
  | response status body =>
      have hpost : post env.sendKey req "failed to send wrapped disk key" t
          = (.ok body, { t with posted := t.posted ++ [req] }) := by
        simp [post, hsend]
      exact Effect.bind_of_ok hpost

/-- A run after a wrapping that fails. -/
theorem run_of_unwrapped {t t₁ : Traces} {v : Verified} {f : Failure UserError}
    (hphase : phase1 J C env args t = (.ok v, t₁))
    (hwrap : wrapDiskKey env args v.nonce v.report = .error f) :
    run J C env args t = (.error f, t₁) := by
  unfold run
  rw [Effect.bind_of_ok hphase, phase2, hwrap]
  rfl

/-- A run after a wrapping that succeeds. -/
theorem run_of_wrapped {t t₁ : Traces} {v : Verified} {wrapped : WrappedDiskKey}
    (hphase : phase1 J C env args t = (.ok v, t₁))
    (hwrap : wrapDiskKey env args v.nonce v.report = .ok wrapped) :
    run J C env args t = (keyAnswer env (keyRequest J v.url wrapped),
      { t₁ with posted := t₁.posted ++ [keyRequest J v.url wrapped] }) := by
  unfold run
  rw [Effect.bind_of_ok hphase, phase2, hwrap]
  exact post_key _ t₁

/-- Once the key is wrapped, the run posts it and was right to. -/
theorem posts_of_wrapped {t t₁ : Traces} {v : Verified} {wrapped : WrappedDiskKey}
    (hphase : phase1 J C env args t = (.ok v, t₁))
    (hwrap : wrapDiskKey env args v.nonce v.report = .ok wrapped) :
    ∃ resetEndpoint, Posts J C env args t resetEndpoint v t₁ wrapped := by
  obtain ⟨expected, resetEndpoint, cache, hreceived, hverify, rfl⟩ := phase1_eq_ok.mp hphase
  obtain ⟨cert, hlookup, hmet, hsig⟩ := verifyReceived_eq_ok.mp hverify
  have hcheck : checkAgainst C expected v.report cert (reportDataValidator v.nonce) = .ok () :=
    checkAgainst_eq_ok.mpr ⟨hmet, hsig⟩
  obtain ⟨priv, secret, hpriv, -, hsecret, hseal, hpub⟩ := wrapDiskKey_eq_ok.mp hwrap
  refine ⟨resetEndpoint, hphase, rfl, ⟨⟨expected, cert, hreceived, ?_, hcheck⟩, ?_,
    ⟨priv, secret, hpriv, hsecret, hseal, hpub⟩⟩, run_of_wrapped hphase hwrap⟩
  · rw [hlookup]
  · exact (reportDataValidator_eq_ok.mp (hmet.reportData _ rfl)).symm

/-- **A run ends without the key, or posts it for a good reason.** -/
theorem run_posts (t : Traces) :
    Ends J C env args t ∨
      ∃ resetEndpoint v t₁ wrapped, Posts J C env args t resetEndpoint v t₁ wrapped := by
  have hasks : (phase1 J C env args).Leaves t _ := phase1_leaves t
  rcases hphase : phase1 J C env args t with ⟨e | v, t₁⟩
  · have hrun : run J C env args t = (.error e, t₁) := Effect.bind_of_error hphase
    rw [Effect.Leaves, hphase] at hasks
    exact .inl ⟨⟨e, by rw [hrun]⟩, by rw [hrun]; exact hasks⟩
  · cases hwrap : wrapDiskKey env args v.nonce v.report with
    | error f =>
        have hrun := run_of_unwrapped hphase hwrap
        rw [Effect.Leaves, hphase] at hasks
        exact .inl ⟨⟨f, by rw [hrun]⟩, by rw [hrun]; exact hasks⟩
    | ok wrapped =>
        obtain ⟨resetEndpoint, hposts⟩ := posts_of_wrapped hphase hwrap
        exact .inr ⟨resetEndpoint, v, t₁, wrapped, hposts⟩

/-! ### Two runs -/

/-- A disk key that AES-256-GCM can seal; the kernel hands no longer one to a process. -/
structure DiskKey where
  text : String
  fits : (Bytes.ofString text).length ≤ Ring.maxPlaintextLen

def Args.withKey (args : Args) (k : DiskKey) : Args := { args with diskKey := k.text }

/-- Whether wrapping works out does not depend on what is wrapped. -/
theorem aeadEnc_alike
    (hseal : ∀ k n aad p, p.length ≤ Ring.maxPlaintextLen →
      ∃ c t, R.sealInPlace k n aad p = some (c, t)) (secret : Bytes) (nonce : UInt64) :
    (∃ f, ∀ p, aeadEnc R secret nonce p = .error f) ∨
      ∀ p, p.length ≤ Ring.maxPlaintextLen → ∃ w, aeadEnc R secret nonce p = .ok w := by
  unfold aeadEnc
  cases Outcome.context "failed to derive AES key from shared secret"
      (deriveKeys R secret nonce) with
  | error f => exact .inl ⟨f, fun _ => rfl⟩
  | ok aesKey =>
      cases hunbound : R.unboundKey aesKey with
      | none => exact .inl ⟨_, fun _ => by rw [Outcome.bind_ok, hunbound]; rfl⟩
      | some k =>
          cases Outcome.context "failed to encrpyt data"
              (CounterNonceSequence.advance ⟨nonce⟩) with
          | error f => exact .inl ⟨f, fun _ => by rw [Outcome.bind_ok, hunbound]; rfl⟩
          | ok next =>
              refine .inr fun p hp => ?_
              obtain ⟨c, t, hsealed⟩ := hseal k next.1 [] p hp
              refine ⟨c ++ t, ?_⟩
              rw [Outcome.bind_ok, hunbound, Outcome.ofOption_some, Outcome.bind_ok,
                Outcome.bind_ok]
              show (Outcome.ofOption (R.sealInPlace k next.1 [] p) _ >>= _) = _
              rw [hsealed]
              rfl

/-- Two keys are both wrapped, with the same public key beside them, or neither is. -/
theorem wrapDiskKey_alike
    (hseal : ∀ k n aad p, p.length ≤ Ring.maxPlaintextLen →
      ∃ c t, R.sealInPlace k n aad p = some (c, t)) (args : Args) (k k' : DiskKey)
    (nonce : UInt64) (report : AttestationReport) :
    (∃ f, wrapDiskKey env (args.withKey k) nonce report = .error f ∧
        wrapDiskKey env (args.withKey k') nonce report = .error f) ∨
      ∃ w w', wrapDiskKey env (args.withKey k) nonce report = .ok w ∧
        wrapDiskKey env (args.withKey k') nonce report = .ok w' ∧
        w'.clientPublicKey = w.clientPublicKey := by
  unfold wrapDiskKey
  cases env.generated with
  | none => exact .inl ⟨_, rfl, rfl⟩
  | some priv =>
      by_cases hcomputes : env.computes = true
      · simp only [hcomputes, Outcome.ofOption_some, Outcome.bind_ok, Outcome.ensure_of]
        cases R.agreeEphemeral priv (ReportData.ofBlock report.reportData).serverPublicKey with
        | none => exact .inl ⟨_, rfl, rfl⟩
        | some secret =>
            simp only [Outcome.ofOption_some, Outcome.bind_ok]
            rcases aeadEnc_alike hseal secret nonce with hfails | hseals
            · obtain ⟨f, hfails⟩ := hfails
              rw [hfails, hfails]
              rcases f with e | msg
              · exact .inl ⟨_, rfl, rfl⟩
              · exact .inl ⟨_, rfl, rfl⟩
            · obtain ⟨w, hw⟩ := hseals _ k.fits
              obtain ⟨w', hw'⟩ := hseals _ k'.fits
              refine .inr ⟨⟨w, R.computePublicKey priv⟩, ⟨w', R.computePublicKey priv⟩, ?_, ?_, rfl⟩
              · show (Outcome.context _ (aeadEnc R secret nonce (Bytes.ofString k.text)) >>= _) = _
                rw [hw]
                rfl
              · show (Outcome.context _ (aeadEnc R secret nonce (Bytes.ofString k'.text)) >>= _) = _
                rw [hw']
                rfl
      · simp only [Outcome.ofOption_some, Outcome.bind_ok, Outcome.ensure, hcomputes]
        exact .inl ⟨_, rfl, rfl⟩

/-- **Two runs with different keys** end in the same way, or both post their keys after the
same requests, with the same dump and the same cache, and differ in the ciphertext alone. -/
theorem run_twice
    (hseal : ∀ k n aad p, p.length ≤ Ring.maxPlaintextLen →
      ∃ c t, R.sealInPlace k n aad p = some (c, t)) (args : Args) (k k' : DiskKey) (t : Traces) :
    (Ends J C env (args.withKey k) t ∧
        run J C env (args.withKey k') t = run J C env (args.withKey k) t) ∨
      ∃ resetEndpoint v t₁ w w', Posts J C env (args.withKey k) t resetEndpoint v t₁ w ∧
        Posts J C env (args.withKey k') t resetEndpoint v t₁ w' ∧
        w'.clientPublicKey = w.clientPublicKey := by
  have hphase : phase1 J C env (args.withKey k') t = phase1 J C env (args.withKey k) t := rfl
  rcases hrun : phase1 J C env (args.withKey k) t with ⟨e | v, t₁⟩
  · have h : run J C env (args.withKey k) t = (.error e, t₁) := Effect.bind_of_error hrun
    have h' : run J C env (args.withKey k') t = (.error e, t₁) :=
      Effect.bind_of_error (hphase.trans hrun)
    have hposts : Ends J C env (args.withKey k) t ∨ _ := run_posts t
    rcases hposts with hends | hposts
    · exact .inl ⟨hends, by rw [h, h']⟩
    · obtain ⟨_, _, _, _, hposts⟩ := hposts
      rw [hposts.phase1] at hrun
      simp at hrun
  · rcases wrapDiskKey_alike hseal args k k' v.nonce v.report with hfails | hwraps
    · obtain ⟨f, hf, hf'⟩ := hfails
      have h := run_of_unwrapped hrun hf
      have h' := run_of_unwrapped (hphase.trans hrun) hf'
      have hasks : (phase1 J C env (args.withKey k)).Leaves t _ := phase1_leaves t
      rw [Effect.Leaves, hrun] at hasks
      exact .inl ⟨⟨⟨f, by rw [h]⟩, by rw [h]; exact hasks⟩, by rw [h, h']⟩
    · obtain ⟨w, w', hw, hw', hpub⟩ := hwraps
      obtain ⟨resetEndpoint, hposts⟩ := posts_of_wrapped hrun hw
      obtain ⟨resetEndpoint', hposts'⟩ := posts_of_wrapped (hphase.trans hrun) hw'
      obtain ⟨_, _, hreceived, -, -⟩ := hposts.justified.verified
      obtain ⟨_, _, hreceived', -, -⟩ := hposts'.justified.verified
      have hendpoint := hreceived.endpoint.symm.trans hreceived'.endpoint
      rw [Option.some.injEq] at hendpoint
      rw [← hendpoint] at hposts'
      exact .inr ⟨resetEndpoint, v, t₁, w, w', hposts, hposts', hpub⟩

/-- **The client fails closed.**  Whatever it is answered, it posts a wrapped disk key only
for a report that was verified under this run's nonce, wrapped for the key in that report;
and until then two runs that differ in the disk key alone are the same. -/
theorem fails_closed
    (hseal : ∀ k n aad p, p.length ≤ Ring.maxPlaintextLen →
      ∃ c t, R.sealInPlace k n aad p = some (c, t)) (J : Json) (C : Crates) (env : Env R)
    (args : Args) (t : Traces) :
    (Ends J C env args t ∨
        ∃ resetEndpoint v t₁ wrapped, Posts J C env args t resetEndpoint v t₁ wrapped) ∧
      ∀ k k' : DiskKey,
        (Ends J C env (args.withKey k) t ∧
            run J C env (args.withKey k') t = run J C env (args.withKey k) t) ∨
          ∃ resetEndpoint v t₁ w w', Posts J C env (args.withKey k) t resetEndpoint v t₁ w ∧
            Posts J C env (args.withKey k') t resetEndpoint v t₁ w' ∧
            w'.clientPublicKey = w.clientPublicKey :=
  ⟨run_posts t, fun k k' => run_twice hseal args k k' t⟩

/-! ### Two keys that are posted -/

/-- The wrapping of a key of at most 16 bytes, with the toy's private key and nonce. -/
theorem toy_wraps (r : AttestationReport) (key : String)
    (hkey : (Bytes.ofString key).length ≤ 16) :
    ∃ w, wrapDiskKey (Env.toy r) (Args.toy key) 0 r = .ok w := by
  have hfits : (Bytes.ofString key).length ≤ Ring.maxPlaintextLen := by
    unfold Ring.maxPlaintextLen
    omega
  obtain ⟨secret, hsecret⟩ : ∃ secret, Ring.toy.agreeEphemeral (Block.zero 32)
      (ReportData.ofBlock r.reportData).serverPublicKey = some secret := ⟨_, rfl⟩
  obtain ⟨c, hc⟩ := aeadEnc_exists Ring.toy_ideal secret (by decide : (0 : UInt64) ≠ u64Max) hfits
  exact ⟨⟨c, Block.zero 32⟩,
    wrapDiskKey_eq_ok.mpr ⟨Block.zero 32, secret, rfl, rfl, hsecret, hc, rfl⟩⟩

/-- For a genuine report two keys are posted, beside the same public key. -/
theorem fails_closed_genuine :
    ∃ resetEndpoint v t₁ w w',
      Posts Json.toy Crates.toy (.toy (genuineReport 0)) (.toy "key") .none resetEndpoint v t₁ w ∧
      Posts Json.toy Crates.toy (.toy (genuineReport 0)) (.toy "other") .none resetEndpoint v t₁
        w' ∧
      w'.clientPublicKey = w.clientPublicKey := by
  have hcase := ClientCase.toy 0 "key"
  obtain ⟨v, t₁, hphase⟩ := (client_past_verification Amd.toy_laws hcase).mpr ⟨rfl, rfl, rfl, rfl⟩
  obtain ⟨_, _, hreceived, -, -⟩ := hcase.received
  obtain ⟨_, _, _, hreceived', -, -⟩ := phase1_eq_ok.mp hphase
  obtain ⟨-, rfl⟩ := hreceived.unique hreceived'
  obtain ⟨w, hwrap⟩ := toy_wraps (genuineReport 0) "key" (by decide)
  have hrun := run_of_wrapped hphase hwrap
  have h := (fails_closed Ring.toy_ideal.seal_exists Json.toy Crates.toy
    (.toy (genuineReport 0)) (.toy "key") .none).2 ⟨"key", by decide⟩ ⟨"other", by decide⟩
  rcases h with ⟨hends, -⟩ | hposts
  · obtain ⟨e, he⟩ := hends.failed
    have hok : (run Json.toy Crates.toy (.toy (genuineReport 0)) (.toy "key") .none).1 = .ok () := by
      rw [hrun]
      rfl
    exact absurd (he.symm.trans hok) (by simp)
  · exact hposts

end SnpGuard.Client
