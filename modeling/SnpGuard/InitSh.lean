/-
The passphrase of an encrypted boot: `init.sh`.

`boot_encrypted` starts the server, and when that returned `Ok` it reads the file the
server wrote into a variable and echoes the variable to `cryptsetup`.  The disk key that a
client wraps for a report gets from its argument to the file of the server that sent the
report, unchanged for every string (`file_of_injection`).  From the file on it passes through
the shell, so `cryptsetup` reads it exactly when the shell prints it as it is
(`passphrase_iff`).
-/
import SnpGuard.Delivery
import SnpGuard.Lib.Shell

namespace SnpGuard.InitSh

open Server

variable {R : Ring} {J : Json} {config : Server.Config}

/-- `boot_encrypted` up to `luksOpen`: the passphrase that `cryptsetup` reads, if the
script gets there.  The script stops when `/bin/server` or `cat` fails. -/
def bootEncrypted (dash : Shell.Dash) (server : Exit) : Option Bytes :=
  match server.result with
  | .ok () => server.diskKeyFile.map (Shell.line dash)
  | .error _ => none

/-- The script gets there only when the server returned `Ok`. -/
theorem bootEncrypted_ok {dash : Shell.Dash} {server : Exit} {passphrase : Bytes}
    (h : bootEncrypted dash server = some passphrase) : server.result = .ok () := by
  unfold bootEncrypted at h
  split at h
  · assumption
  · simp at h

/-- A client's last two requests, at the server that it received the report from. -/
structure Injection (J : Json) (config : Server.Config) (env : Client.Env R) (args : Client.Args)
    (p i : Input R) : Prop where
  binds : p.out.firmware.Binds
  /-- The report is the answer to the first, and the second is the key that is wrapped for it. -/
  wraps : ∃ nonce report wrapped, p.req.body = J.attestationRequest.encode ⟨nonce⟩ ∧
    (sendReport J config p).2 = .response 200 (J.report.encode report) ∧
    Client.wrapDiskKey env args nonce report = .ok wrapped ∧
    i.req.body = J.wrappedDiskKey.encode wrapped

/-- **What the server accepts of a client is in the file, byte for byte.** -/
theorem file_of_injection (hR : R.Correct) (hJ : J.RoundTrips) {env : Client.Env R}
    {args : Client.Args} {front : List (Input R)} {p i : Input R}
    (hinjection : Injection J config env args p i) {file file' : Option Bytes}
    (hrun : run J config (.ok ()) file (front ++ [p, i]) = .finished ⟨.ok (), file'⟩ []) :
    file' = some (Bytes.ofString args.diskKey) := by
  obtain ⟨nonce, report, wrapped, hrequest, hreply, hwrap, hbody⟩ := hinjection.wraps
  obtain ⟨-, front', p', i', u, params, key, hsplit, -, -, hurl, hsend, haccepts, rfl⟩ :=
    run_ok_iff.mp hrun
  obtain ⟨-, hlast⟩ := List.append_inj' hsplit rfl
  simp only [List.cons.injEq, and_true] at hlast
  obtain ⟨rfl, rfl⟩ := hlast
  have hanswered := answered_iff.mpr ⟨hurl, hsend⟩
  -- The session is the one of the client's report.
  obtain ⟨json, hprepare, -, hjson⟩ := sendReport_eq_ok.mp (Prod.ext hsend hreply)
  rw [Reply.response.injEq] at hjson
  obtain ⟨-, -, -, -, report', hreport', hget⟩ := prepareReport_eq_ok.mp hprepare
  rw [← hjson.2] at hreport'
  obtain rfl : report = report' := by
    rw [← Option.some.injEq, ← hJ.report report, hreport', hJ.report]
  have hnonce : params.nonce = nonce := by
    have hdecode := hanswered.request
    rw [hrequest, hJ.attestationRequest, Option.some.injEq] at hdecode
    exact (AttestationRequest.mk.inj hdecode).symm
  rw [← hnonce] at hwrap
  -- In it the server opens what the client sealed.
  obtain ⟨priv, secret, -, hpub, -, hagree, hcipher⟩ :=
    wrapped_for_session hR (report_of_session hinjection.binds hget) hwrap
  obtain ⟨received, secret', hdecode, hagree', hdec⟩ := haccepts.unwraps
  rw [hbody, hJ.wrappedDiskKey, Option.some.injEq] at hdecode
  rw [← hdecode, hpub, hagree, Option.some.injEq] at hagree'
  rw [← hdecode, ← hagree', (aeadDec_iff_of_works hR.toWorks).mpr hcipher, Except.ok.injEq] at hdec
  rw [hdec]

/-- **Where the passphrase is the disk key.**  When the server's run ended `Ok` on the key
that a client wrapped for its report, what `cryptsetup` reads is that client's disk key exactly
when the key is one line, not `-n`, and has no escape sequence of `echo` in it. -/
theorem passphrase_iff (hR : R.Correct) (hJ : J.RoundTrips) (dash : Shell.Dash)
    {env : Client.Env R} {args : Client.Args} (hargv : 0 ∉ Bytes.ofString args.diskKey)
    {front : List (Input R)} {p i : Input R} (hinjection : Injection J config env args p i)
    {file : Option Bytes} {server : Exit}
    (hrun : run J config (.ok ()) file (front ++ [p, i]) = .finished server [])
    (hok : server.result = .ok ()) :
    bootEncrypted dash server = some (Bytes.ofString args.diskKey) ↔
      Shell.Verbatim dash (Bytes.ofString args.diskKey) := by
  obtain ⟨result, written⟩ := server
  simp only at hok
  subst hok
  have hwritten := file_of_injection hR hJ hinjection hrun
  subst hwritten
  show some (Shell.line dash (Bytes.ofString args.diskKey)) = _ ↔ _
  rw [Option.some.injEq]
  exact Shell.line_eq_iff hargv

/-! ### Two disk keys -/

/-- A disk key is injected where a client is alone with the server. -/
theorem toy_injection (diskKey : String)
    (hwraps : (Client.wrapDiskKey (.toy toySessionReport) (.toy diskKey) 0
      toySessionReport).toOption.isSome = true) :
    ∃ i, Injection Json.toy ⟨false, false⟩ (.toy toySessionReport) (.toy diskKey)
        alone.attestation i ∧
      run Json.toy ⟨false, false⟩ (.ok ()) none ([] ++ [alone.attestation, i])
        = .finished ⟨.ok (), some (Bytes.ofString diskKey)⟩ [] := by
  obtain ⟨wrapped, hsome⟩ := Option.isSome_iff_exists.mp hwraps
  have hwrap := toOption_eq_some.mp hsome
  refine ⟨⟨⟨"/", Json.toy.wrappedDiskKey.encode wrapped⟩, keyless⟩,
    ⟨Firmware.genuine_binds, 0, toySessionReport, wrapped, rfl, rfl, hwrap, rfl⟩, ?_⟩
  rw [run_listening]
  exact (Loop.run_cons_inl toy_asked _).trans
    (Loop.run_cons_inr (step_of_accepts rfl (toy_accepts hwrap)) _)

/-- The key `key` reaches `cryptsetup`. -/
theorem passphrase_of_key :
    ∃ i server, run Json.toy ⟨false, false⟩ (.ok ()) none ([] ++ [alone.attestation, i])
        = .finished server [] ∧
      bootEncrypted ⟨true⟩ server = some (Bytes.ofString "key") := by
  obtain ⟨i, hinjection, hrun⟩ := toy_injection "key" (by decide +kernel)
  have hverbatim : Shell.Verbatim ⟨true⟩ (Bytes.ofString "key") :=
    ⟨by decide, by decide, Shell.not_hasEscape_of_not_mem (by decide)⟩
  exact ⟨i, _, hrun, (passphrase_iff Ring.toy_ideal.correct Json.toy_roundTrips ⟨true⟩ (by decide)
    hinjection hrun rfl).mpr hverbatim⟩

/-- A backslash and a `t` become a tab. -/
theorem passphrase_altered :
    ∃ i server, Injection Json.toy ⟨false, false⟩ (.toy toySessionReport) (.toy "a\\tb")
        alone.attestation i ∧
      run Json.toy ⟨false, false⟩ (.ok ()) none ([] ++ [alone.attestation, i])
        = .finished server [] ∧
      server.result = .ok () ∧ bootEncrypted ⟨false⟩ server = some (Bytes.ofString "a\tb") ∧
      Bytes.ofString "a\tb" ≠ Bytes.ofString "a\\tb" := by
  obtain ⟨i, hinjection, hrun⟩ := toy_injection "a\\tb" (by decide +kernel)
  refine ⟨i, _, hinjection, hrun, rfl, ?_, by decide⟩
  show some (Shell.line ⟨false⟩ (Bytes.ofString "a\\tb")) = _
  decide

end SnpGuard.InitSh
