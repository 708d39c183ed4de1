/-
The verdict of the integrity workflow: `attest-verity.sh`.

The script fetches a report with `scp`, which records the VM's host key, and has
`verify_report` check it with the fingerprint of that key as report data.  Whoever runs it
looks at the exit status.  A failed fetch or verification ends in status 1 with the host key
removed, but `usage` ends in a bare `exit`, so a call with a flag too much or without a config
file ends in status 0 (`verdict_iff`).  What `scp`, `ssh-keygen` and `verify_report` come back
with is arbitrary.
-/
import SnpGuard.Lib.ArgLoop
import SnpGuard.Lib.Words
import SnpGuard.VerifyReport

namespace SnpGuard.AttestVerity

open ArgLoop Words

/-! ### The programs it calls -/

/-- A character of a fingerprint in base64. -/
def isBase64 (c : Char) : Bool := c.isAlphanum || c == '+' || c == '/'

/-- A host key, as `ssh-keygen -l` shows it. -/
structure HostKey where
  bits : Nat
  fingerprint : List Char
  base64 : fingerprint ≠ [] ∧ fingerprint.all isBase64 = true
  comment : List Char

/-- Its line. -/
def HostKey.line (k : HostKey) : List Char :=
  (toString k.bits).toList ++ ' ' :: (("SHA256".toList ++ ':' :: k.fingerprint) ++ ' ' :: k.comment)

/-- What `clap` makes of the arguments of `verify_report`. -/
inductive Parsed where
  | args (a : VerifyReport.Args)
  /-- Help or the version is printed, in status 0. -/
  | info
  /-- The arguments are rejected, in status 2. -/
  | error

/-- A colon in front of the first slash, as in `user@host:path`. -/
def hasHost (word : String) : Bool := (word.toList.takeWhile (· != '/')).contains ':'

/-- What the script finds around it.  The paths it makes of its own location are words. -/
structure World where
  isFile : String → Bool
  /-- The host keys in `known_hosts`, if there is such a file. -/
  knownHosts : Option (List HostKey)
  hostsFile : String
  /-- Pathname expansion at the time of `scp`, and of `verify_report`. -/
  atFetch : Expansion
  atVerify : Expansion
  /-- Whether `scp` succeeds, and the host keys that it records. -/
  scp : List String → Bool × List HostKey
  /-- Whether `scp` takes a word for a path on another host. -/
  remote : String → Bool
  remote_hasHost : ∀ {word}, remote word = true → hasHost word = true
  /-- The keys that `ssh-keygen` lists. -/
  listed : List HostKey → List HostKey
  listed_sub : ∀ {keys k}, k ∈ listed keys → k ∈ keys
  /-- The arguments of `verify_report`, and whether its `run` succeeds on them. -/
  clap : List String → Parsed
  verifies : VerifyReport.Args → Bool

/-- A word that is read as an option; a dash alone is a value. -/
def isOption (word : String) : Bool := word.toList.head? == some '-' && word != "-"

/-- A request for help or for the version. -/
def isInfo (word : String) : Bool :=
  word == "--help" || word == "--version" || "-h".toList.isPrefixOf word.toList ||
    "-V".toList.isPrefixOf word.toList

/-- `clap` on the derived parser of `verify_report`. -/
structure ClapLaws (clap : List String → Parsed) : Prop where
  /-- An option takes the word behind it for its value; that is no option itself. -/
  input : ∀ {pre post : List String} {a}, clap (pre ++ "--input" :: post) = .args a →
    ∃ value rest, post = value :: rest ∧ isOption value = false ∧ a.input = value
  reportData : ∀ {pre post : List String} {a}, clap (pre ++ "--report-data" :: post) = .args a →
    ∃ value rest, post = value :: rest ∧ isOption value = false ∧ a.reportData = value
  /-- Help and version are printed on request only. -/
  info : ∀ {argv}, clap argv = .info → ∃ word ∈ argv, isInfo word = true

/-! ### The script -/

structure Options where
  vmConfig : String
  host : String
  port : String
  user : String
  outReport : String

def Options.initial : Options where
  vmConfig := ""
  host := "localhost"
  port := "2222"
  user := "ubuntu"
  outReport := "build/verity/attestation_report.json"

def inReport : String := "/etc/report.json"

def assign : String → Option (String → Options → Options)
  | "-vm-config" => some fun v o => { o with vmConfig := v }
  | "-host" => some fun v o => { o with host := v }
  | "-port" => some fun v o => { o with port := v }
  | "-user" => some fun v o => { o with user := v }
  | "-out" => some fun v o => { o with outReport := v }
  | _ => none

def flags : Flags Options := ⟨fun _ => none, assign⟩

variable (w : World)

/-- The arguments of `scp`; nothing is quoted. -/
def scpArgs (o : Options) : List String :=
  ["-o", "StrictHostKeyChecking=no", "-o", "UserKnownHostsFile=" ++ w.hostsFile, "-P"] ++
    w.atFetch.unquoted o.port ++ w.atFetch.unquoted (o.user ++ "@" ++ o.host ++ ":" ++ inReport) ++
    w.atFetch.unquoted o.outReport

def nul : Char := Char.ofNat 0

/-- `$(ssh-keygen -lf $SSH_HOSTS_FILE | awk '{ print $2 }' | cut -d ":" -f 2)`. -/
def fingerprint (keys : List HostKey) : String :=
  String.ofList (Shell.substitution nul '\n'
    ((keys.map fun k => cutSecond (awkSecond k.line)).flatMap (· ++ ['\n'])))

/-- The arguments of `verify_report`; nothing is quoted. -/
def verifyReportArgs (o : Options) (keys : List HostKey) : List String :=
  "--input" :: (w.atVerify.unquoted o.outReport ++ "--vm-definition" ::
    (w.atVerify.unquoted o.vmConfig ++ "--report-data" :: w.atVerify.unquoted (fingerprint keys)))

/-- The exit status of `verify_report`. -/
def verifyStatus (argv : List String) : Nat :=
  match w.clap argv with
  | .args a => if w.verifies a then 0 else 1
  | .info => 0
  | .error => 2

/-- How the script ends: its status, `known_hosts`, and how it called the two programs. -/
structure Exit where
  status : Nat
  knownHosts : Option (List HostKey)
  scp : Option (List String)
  verifyReport : Option (List String)

/-- `usage`: it ends in `exit`, which passes on the status of the last `echo`. -/
def usage : Exit := ⟨0, w.knownHosts, none, none⟩

/-- The script after its argument loop. -/
def attest (o : Options) : Exit :=
  if w.isFile o.vmConfig then
    let fetch := scpArgs w o
    let (fetched, keys) := w.scp fetch
    if fetched then
      let verify := verifyReportArgs w o (w.listed keys)
      if verifyStatus w verify = 0 then ⟨0, some keys, fetch, verify⟩
      else ⟨1, none, fetch, verify⟩
    else ⟨1, none, fetch, none⟩
  else usage w

/-- The script.  `set -e` ends it where a `shift` fails. -/
def run (args : List String) : Exit :=
  match flags.read args .initial with
  | .done o => attest w o
  | .unknown => usage w
  | .missing _ => ⟨1, w.knownHosts, none, none⟩

/-! ### Its verdict -/

/-- `verify_report` was run on the report just fetched, with the fingerprint of a host key
that was recorded, and succeeded.  `scp` copies to the last word, where that names no host. -/
def Vouched (e : Exit) : Prop :=
  ∃ fetch verify a k, e.scp = some fetch ∧ (w.scp fetch).1 = true ∧ e.verifyReport = some verify ∧
    w.clap verify = .args a ∧ w.verifies a = true ∧ fetch.getLast? = some a.input ∧
    w.remote a.input = false ∧ k ∈ (w.scp fetch).2 ∧ a.reportData = String.ofList k.fingerprint

/-- The fetch failed, or the verification did. -/
def Failed (e : Exit) : Prop :=
  (∃ fetch, e.scp = some fetch ∧ (w.scp fetch).1 = false) ∨
    ∃ verify, e.verifyReport = some verify ∧ verifyStatus w verify ≠ 0

structure Sound (e : Exit) : Prop where
  vouched : e.status = 0 → Vouched w e
  removed : Failed w e → e.knownHosts = none

/-- The arguments lead to `usage`. -/
def Usage (args : List String) : Prop :=
  flags.read args .initial = .unknown ∨
    ∃ o, flags.read args .initial = .done o ∧ w.isFile o.vmConfig = false

/-- `verify_report` is asked for a verification, and of the report that was fetched: what
`$OUT_REPORT` comes to begins, for `verify_report`, with the local path in which it ends for
`scp`. -/
def Asked (o : Options) : Prop :=
  (w.scp (scpArgs w o)).1 = true →
    w.clap (verifyReportArgs w o (w.listed (w.scp (scpArgs w o)).2)) ≠ .info ∧
      ∀ a, w.clap (verifyReportArgs w o (w.listed (w.scp (scpArgs w o)).2)) = .args a →
        w.verifies a = true →
        ∃ target, (scpArgs w o).getLast? = some target ∧ w.remote target = false ∧
          (w.atVerify.unquoted o.outReport).head? = some target

/-- A path that is one word and no option. -/
def SimplePath (path : String) : Prop := Plain path.toList ∧ isOption path = false

instance (path : String) : Decidable (SimplePath path) := inferInstanceAs (Decidable (_ ∧ _))

/-- And that `scp` takes for no host. -/
def SimpleTarget (path : String) : Prop := SimplePath path ∧ hasHost path = false

instance (path : String) : Decidable (SimpleTarget path) := inferInstanceAs (Decidable (_ ∧ _))

/-! ### The fingerprint -/

theorem isBase64_plain {c : Char} (h : isBase64 c = true) :
    isBlank c = false ∧ isPattern c = false ∧ c ≠ ':' ∧ c ≠ nul := by
  have hne : ∀ {d : Char}, isBase64 d = false → c ≠ d := by
    rintro d hd rfl
    simp [h] at hd
  refine ⟨?_, ?_, hne (by decide), hne (by decide)⟩
  · unfold isBlank
    simp only [Bool.or_eq_false_iff, beq_eq_false_iff_ne]
    exact ⟨⟨hne (by decide), hne (by decide)⟩, hne (by decide)⟩
  · unfold isPattern
    simp only [Bool.or_eq_false_iff, beq_eq_false_iff_ne]
    exact ⟨⟨⟨hne (by decide), hne (by decide)⟩, hne (by decide)⟩, hne (by decide)⟩

theorem HostKey.isBase64_of_mem {k : HostKey} {c : Char} (hc : c ∈ k.fingerprint) :
    isBase64 c = true := List.all_eq_true.mp k.base64.2 c hc

theorem HostKey.noOption (k : HostKey) :
    isOption (String.ofList k.fingerprint) = false := by
  unfold isOption
  rw [String.toList_ofList, Bool.and_eq_false_iff, beq_eq_false_iff_ne]
  refine .inl fun h => ?_
  have hbase64 := k.isBase64_of_mem (List.mem_of_head? h)
  exact absurd hbase64 (by decide)

theorem toString_nat_plain (n : Nat) :
    (toString n).toList ≠ [] ∧ ∀ c ∈ (toString n).toList, isBlank c = false := by
  have htext : (toString n).toList = Nat.toDigits 10 n := Nat.toList_repr
  rw [htext]
  refine ⟨Nat.toDigits_ne_nil, fun c hc => ?_⟩
  have hdigit := Nat.isDigit_of_mem_toDigits (by decide) (by decide) hc
  exact (isBase64_plain (by simp [isBase64, Char.isAlphanum, hdigit])).1

/-- The two filters find the fingerprint in the line. -/
theorem HostKey.cut_line (k : HostKey) : cutSecond (awkSecond k.line) = k.fingerprint := by
  have hfield : ∀ c ∈ "SHA256".toList ++ ':' :: k.fingerprint, isBlank c = false := by
    intro c hc
    rw [List.mem_append, List.mem_cons] at hc
    rcases hc with hc | rfl | hc
    · have hall : "SHA256".toList.all (fun c => !isBlank c) = true := by decide
      simpa using List.all_eq_true.mp hall c hc
    · rfl
    · exact (isBase64_plain (k.isBase64_of_mem hc)).1
  have hcolon : ':' ∉ k.fingerprint := fun h => (isBase64_plain (k.isBase64_of_mem h)).2.2.1 rfl
  unfold HostKey.line
  rw [awkSecond_of_words (toString_nat_plain k.bits) ⟨by simp, hfield⟩,
    cutSecond_of_colon (by decide) hcolon]

/-- Unquoted, the fingerprint is one word for every key that is listed. -/
theorem unquoted_fingerprint (keys : List HostKey) :
    w.atVerify.unquoted (fingerprint keys) = keys.map fun k => String.ofList k.fingerprint := by
  have hlines : (keys.map fun k => cutSecond (awkSecond k.line)) = keys.map HostKey.fingerprint :=
    List.map_congr_left fun k _ => k.cut_line
  have hplain : ∀ l ∈ keys.map HostKey.fingerprint, ∀ c ∈ l, isBase64 c = true := by
    intro l hl c hc
    obtain ⟨k, -, rfl⟩ := List.mem_map.mp hl
    exact k.isBase64_of_mem hc
  have hnul : nul ∉ (keys.map HostKey.fingerprint).flatMap (· ++ ['\n']) := by
    intro hmem
    obtain ⟨l, hl, hc⟩ := List.mem_flatMap.mp hmem
    rw [List.mem_append, List.mem_singleton] at hc
    rcases hc with hc | hc
    · exact (isBase64_plain (hplain l hl nul hc)).2.2.2 rfl
    · exact absurd hc (by decide)
  have hwords : words (fingerprint keys).toList = keys.map HostKey.fingerprint := by
    unfold fingerprint
    rw [String.toList_ofList, hlines, words_substitution hnul]
    refine words_flatMap_lines fun l hl => ⟨?_, ?_⟩
    · obtain ⟨k, -, rfl⟩ := List.mem_map.mp hl
      exact k.base64.1
    · exact fun c hc => (isBase64_plain (hplain l hl c hc)).1
  rw [w.atVerify.unquoted_of_words hwords
    fun l hl c hc => (isBase64_plain (hplain l hl c hc)).2.1, List.map_map]
  rfl

/-! ### What `verify_report` is given -/

section Clap

variable {w} {o : Options} {keys : List HostKey} {a : VerifyReport.Args}

/-- It reads the first word that the path comes to. -/
theorem clap_input (hclap : ClapLaws w.clap) (h : w.clap (verifyReportArgs w o keys) = .args a) :
    (w.atVerify.unquoted o.outReport).head? = some a.input := by
  have hargv : w.clap ([] ++ "--input" :: _) = .args a := h
  obtain ⟨value, rest, hpost, hoption, hinput⟩ := hclap.input hargv
  cases hout : w.atVerify.unquoted o.outReport with
  | nil =>
      -- Nothing is left of the path, and the next option takes its place.
      rw [hout, List.nil_append, List.cons.injEq] at hpost
      rw [← hpost.1] at hoption
      exact absurd hoption (by decide)
  | cons word words =>
      rw [hout, List.cons_append, List.cons.injEq] at hpost
      rw [List.head?_cons, hpost.1, hinput]

/-- It compares with the fingerprint of one of the keys. -/
theorem clap_reportData (hclap : ClapLaws w.clap)
    (h : w.clap (verifyReportArgs w o keys) = .args a) :
    ∃ k ∈ keys, a.reportData = String.ofList k.fingerprint := by
  have hsplit : verifyReportArgs w o keys
      = ("--input" :: (w.atVerify.unquoted o.outReport ++ "--vm-definition" ::
          w.atVerify.unquoted o.vmConfig)) ++ "--report-data" ::
            keys.map fun k => String.ofList k.fingerprint := by
    unfold verifyReportArgs
    rw [unquoted_fingerprint]
    simp
  rw [hsplit] at h
  obtain ⟨value, rest, hpost, -, hdata⟩ := hclap.reportData h
  have hmem : value ∈ keys.map fun k => String.ofList k.fingerprint :=
    hpost ▸ List.mem_cons_self
  obtain ⟨k, hk, rfl⟩ := List.mem_map.mp hmem
  exact ⟨k, hk, hdata⟩

theorem verifyStatus_eq_zero {argv : List String} :
    verifyStatus w argv = 0 ↔
      w.clap argv = .info ∨ ∃ a, w.clap argv = .args a ∧ w.verifies a = true := by
  unfold verifyStatus
  cases hparsed : w.clap argv with
  | args a => simp
  | info => simp
  | error => simp

end Clap

/-! ### The verdict -/

/-- How the script ends after its argument loop. -/
theorem attest_cases (o : Options) :
    (w.isFile o.vmConfig = false ∧ attest w o = usage w) ∨
    (w.isFile o.vmConfig = true ∧ (w.scp (scpArgs w o)).1 = false ∧
      attest w o = ⟨1, none, scpArgs w o, none⟩) ∨
    (w.isFile o.vmConfig = true ∧ (w.scp (scpArgs w o)).1 = true ∧
      ∃ verify, verify = verifyReportArgs w o (w.listed (w.scp (scpArgs w o)).2) ∧
        ((verifyStatus w verify ≠ 0 ∧ attest w o = ⟨1, none, scpArgs w o, verify⟩) ∨
          (verifyStatus w verify = 0 ∧
            attest w o = ⟨0, some (w.scp (scpArgs w o)).2, scpArgs w o, verify⟩))) := by
  cases hfile : w.isFile o.vmConfig with
  | false => exact .inl ⟨rfl, by simp [attest, hfile]⟩
  | true =>
      cases hfetched : (w.scp (scpArgs w o)).1 with
      | false => exact .inr (.inl ⟨rfl, rfl, by simp [attest, hfile, hfetched]⟩)
      | true =>
          refine .inr (.inr ⟨rfl, rfl, _, rfl, ?_⟩)
          by_cases hstatus :
              verifyStatus w (verifyReportArgs w o (w.listed (w.scp (scpArgs w o)).2)) = 0
          · exact .inr ⟨hstatus, by simp [attest, hfile, hfetched, hstatus]⟩
          · exact .inl ⟨hstatus, by simp [attest, hfile, hfetched, hstatus]⟩

variable {w}

/-- `usage` ends in status 0 without a verification. -/
theorem not_sound_usage : ¬ Sound w (usage w) := by
  intro h
  obtain ⟨fetch, _, _, _, hscp, -⟩ := h.vouched rfl
  simp [usage] at hscp

/-- Where nothing was called, nothing failed. -/
theorem sound_of_status {e : Exit} (hstatus : e.status ≠ 0)
    (hremoved : e.knownHosts = none ∨ (e.scp = none ∧ e.verifyReport = none)) : Sound w e where
  vouched h := absurd h hstatus
  removed h := by
    rcases hremoved with hremoved | ⟨hscp, hverify⟩
    · exact hremoved
    · rcases h with ⟨_, h, -⟩ | ⟨_, h, -⟩
      · simp [hscp] at h
      · simp [hverify] at h

/-- A verification that succeeds is one of the report that was fetched, exactly when it was
asked for. -/
theorem sound_verified_iff (hclap : ClapLaws w.clap) {o : Options}
    (hfetched : (w.scp (scpArgs w o)).1 = true)
    (hstatus : verifyStatus w (verifyReportArgs w o (w.listed (w.scp (scpArgs w o)).2)) = 0) :
    Sound w ⟨0, some (w.scp (scpArgs w o)).2, scpArgs w o,
        verifyReportArgs w o (w.listed (w.scp (scpArgs w o)).2)⟩ ↔ Asked w o := by
  refine ⟨?_, ?_⟩
  · intro h _
    obtain ⟨_, _, a, k, hscp, -, hverify, hparsed, -, hlast, hlocal, -, -⟩ := h.vouched rfl
    cases hscp
    cases hverify
    refine ⟨by simp [hparsed], ?_⟩
    intro _ _ _
    exact ⟨a.input, hlast, hlocal, clap_input hclap hparsed⟩
  · intro h
    obtain ⟨hinfo, hsame⟩ := h hfetched
    obtain ⟨a, hparsed, hverifies⟩ :=
      (verifyStatus_eq_zero.mp hstatus).resolve_left hinfo
    obtain ⟨target, hlast, hlocal, hhead⟩ := hsame a hparsed hverifies
    have htarget : a.input = target := by
      rw [← Option.some.injEq, ← clap_input hclap hparsed, hhead]
    rw [← htarget] at hlast hlocal
    obtain ⟨k, hk, hdata⟩ := clap_reportData hclap hparsed
    refine ⟨fun _ => ?_, ?_⟩
    · exact ⟨_, _, a, k, rfl, hfetched, rfl, hparsed, hverifies, hlast, hlocal, w.listed_sub hk,
        hdata⟩
    · rintro (⟨_, hscp, hfailed⟩ | ⟨_, hverify, hfailed⟩)
      · cases hscp
        simp [hfetched] at hfailed
      · cases hverify
        exact absurd hstatus hfailed

/-- The second half of `verdict_iff`'s condition, after the argument loop. -/
theorem sound_attest_iff (hclap : ClapLaws w.clap) (o : Options) :
    Sound w (attest w o) ↔ w.isFile o.vmConfig = true ∧ Asked w o := by
  rcases attest_cases w o with ⟨hfile, heq⟩ | ⟨hfile, hfetched, heq⟩ |
    ⟨hfile, hfetched, _, rfl, ⟨hstatus, heq⟩ | ⟨hstatus, heq⟩⟩
  · rw [heq]
    simp [not_sound_usage, hfile]
  · rw [heq]
    refine iff_of_true (sound_of_status (by simp) (.inl rfl)) ⟨hfile, ?_⟩
    intro h
    simp [hfetched] at h
  · rw [heq]
    refine iff_of_true (sound_of_status (by simp) (.inl rfl)) ⟨hfile, fun _ => ⟨?_, ?_⟩⟩
    · exact fun hinfo => hstatus (verifyStatus_eq_zero.mpr (.inl hinfo))
    · exact fun a hparsed hverifies =>
        absurd (verifyStatus_eq_zero.mpr (.inr ⟨a, hparsed, hverifies⟩)) hstatus
  · rw [heq, sound_verified_iff hclap hfetched hstatus]
    simp [hfile]

/-! ### Simple paths -/

theorem isOption_of_isInfo {word : String} (h : isInfo word = true) :
    isOption word = true := by
  have hprefix : ∀ {c : Char}, ['-', c].isPrefixOf word.toList = true →
      isOption word = true := by
    intro c h
    obtain ⟨rest, hrest⟩ := List.isPrefixOf_iff_prefix.mp h
    have hne : word ≠ "-" := by
      rintro rfl
      simpa using congrArg List.length hrest
    simp [isOption, ← hrest, hne]
  unfold isInfo at h
  simp only [Bool.or_eq_true, beq_iff_eq] at h
  rcases h with ((rfl | rfl) | h) | h
  · decide
  · decide
  · exact hprefix h
  · exact hprefix h

theorem scpArgs_getLast {o : Options} (h : SimplePath o.outReport) :
    (scpArgs w o).getLast? = some o.outReport := by
  unfold scpArgs
  rw [w.atFetch.unquoted_of_plain h.1, List.getLast?_concat]

theorem remote_of_simple {path : String} (h : SimpleTarget path) : w.remote path = false := by
  rw [← Bool.not_eq_true]
  intro hremote
  have hhost := w.remote_hasHost hremote
  rw [h.2] at hhost
  cases hhost

/-- Paths that are words, no options and on no other host are never taken for anything else. -/
theorem asked_of_simple (hclap : ClapLaws w.clap) {o : Options} (hout : SimpleTarget o.outReport)
    (hconfig : SimplePath o.vmConfig) : Asked w o := by
  intro _
  refine ⟨?_, ?_⟩
  · intro hinfo
    obtain ⟨word, hword, hasked⟩ := hclap.info hinfo
    have hoption := isOption_of_isInfo hasked
    rw [verifyReportArgs, unquoted_fingerprint, w.atVerify.unquoted_of_plain hout.1.1,
      w.atVerify.unquoted_of_plain hconfig.1] at hword
    simp only [List.mem_cons, List.mem_append, List.mem_map, List.not_mem_nil, or_false] at hword
    rcases hword with rfl | rfl | rfl | rfl | rfl | ⟨k, -, rfl⟩
    · exact absurd hasked (by decide)
    · exact absurd hoption (by simp [hout.1.2])
    · exact absurd hasked (by decide)
    · exact absurd hoption (by simp [hconfig.2])
    · exact absurd hasked (by decide)
    · exact absurd hoption (by simp [k.noOption])
  · intro a _ _
    refine ⟨o.outReport, scpArgs_getLast hout.1, remote_of_simple hout, ?_⟩
    rw [w.atVerify.unquoted_of_plain hout.1.1, List.head?_cons]

/-- **Status 0 stands for a verification exactly when the arguments do not lead to `usage`, no
path comes apart into options of its own, and the report is fetched to a local one.** -/
theorem verdict_iff (hclap : ClapLaws w.clap) (args : List String) :
    (Sound w (run w args) ↔
      ¬ Usage w args ∧ ∀ o, flags.read args .initial = .done o → Asked w o) ∧
    ∀ o, flags.read args .initial = .done o → SimpleTarget o.outReport → SimplePath o.vmConfig →
      Asked w o := by
  refine ⟨?_, fun o _ hout hconfig => asked_of_simple hclap hout hconfig⟩
  unfold run Usage
  cases hread : flags.read args .initial with
  | unknown => simp [not_sound_usage]
  | missing o =>
      have hsound : Sound w ⟨1, w.knownHosts, none, none⟩ :=
        sound_of_status (by simp) (.inr ⟨rfl, rfl⟩)
      simp [hsound]
  | done o => simp [sound_attest_iff hclap o]

/-! ### A VM with one host key -/

def toyArgs (input config data : String) : VerifyReport.Args :=
  ⟨input, data, ⟨config, none, none, none⟩⟩

/-- The three options of the script, in its order, and nothing else. -/
def toyClap (argv : List String) : Parsed :=
  match argv with
  | ["--input", input, "--vm-definition", config, "--report-data", data] =>
    if isOption input || isOption config || isOption data then .error
    else .args (toyArgs input config data)
  | _ => if argv.any isInfo then .info else .error

theorem toyClap_args {argv : List String} {a : VerifyReport.Args} (h : toyClap argv = .args a) :
    ∃ input config data,
      argv = ["--input", input, "--vm-definition", config, "--report-data", data] ∧
        isOption input = false ∧ isOption config = false ∧ isOption data = false ∧
          a = toyArgs input config data := by
  unfold toyClap at h
  split at h
  · rename_i input config data
    split at h
    · cases h
    · rename_i hplain
      cases h
      simp only [Bool.or_eq_true, not_or, Bool.not_eq_true] at hplain
      exact ⟨input, config, data, rfl, hplain.1.1, hplain.1.2, hplain.2, rfl⟩
  · split at h <;> cases h

/-- An option is the first of two words, or stands behind them. -/
theorem option_or_behind {pre post rest : List String} {option flag value : String}
    (hoption : isOption option = true) (hvalue : isOption value = false)
    (h : pre ++ option :: post = flag :: value :: rest) :
    (option = flag ∧ post = value :: rest) ∨ ∃ pre', pre' ++ option :: post = rest := by
  rcases pre with _ | ⟨_, _ | ⟨_, pre⟩⟩
  · rw [List.nil_append, List.cons.injEq] at h
    exact .inl h
  · rw [List.singleton_append, List.cons.injEq, List.cons.injEq] at h
    rw [h.2.1, hvalue] at hoption
    cases hoption
  · rw [List.cons_append, List.cons_append, List.cons.injEq, List.cons.injEq] at h
    exact .inr ⟨pre, h.2.2⟩

/-- In accepted arguments, an option stands at one of three places. -/
theorem toyClap_option {pre post : List String} {option : String} {a : VerifyReport.Args}
    (hoption : isOption option = true) (h : toyClap (pre ++ option :: post) = .args a) :
    (option = "--input" ∧ ∃ rest, post = a.input :: rest ∧ isOption a.input = false) ∨
    option = "--vm-definition" ∨
    (option = "--report-data" ∧ post = [a.reportData] ∧ isOption a.reportData = false) := by
  obtain ⟨input, config, data, hargv, hinput, hconfig, hdata, rfl⟩ := toyClap_args h
  obtain ⟨heq, hpost⟩ | ⟨pre, hargv⟩ := option_or_behind hoption hinput hargv
  · exact .inl ⟨heq, _, hpost, hinput⟩
  obtain ⟨heq, -⟩ | ⟨pre, hargv⟩ := option_or_behind hoption hconfig hargv
  · exact .inr (.inl heq)
  obtain ⟨heq, hpost⟩ | ⟨pre, hargv⟩ := option_or_behind hoption hdata hargv
  · exact .inr (.inr ⟨heq, hpost, hdata⟩)
  · simp at hargv

theorem toyClap_laws : ClapLaws toyClap where
  input h := by
    obtain ⟨-, rest, hpost, hvalue⟩ | hother | ⟨hother, -⟩ := toyClap_option (by decide) h
    · exact ⟨_, rest, hpost, hvalue, rfl⟩
    · exact absurd hother (by decide)
    · exact absurd hother (by decide)
  reportData h := by
    obtain ⟨hother, -⟩ | hother | ⟨-, hpost, hvalue⟩ := toyClap_option (by decide) h
    · exact absurd hother (by decide)
    · exact absurd hother (by decide)
    · exact ⟨_, [], hpost, hvalue, rfl⟩
  info {argv} h := by
    unfold toyClap at h
    split at h
    · split at h <;> cases h
    · split at h
      · rename_i hany
        exact List.any_eq_true.mp hany
      · cases h

def HostKey.toy : HostKey := ⟨256, "Zm9v".toList, by decide, "[localhost]:2222 (ED25519)".toList⟩

/-- `scp` records one key, and every verification succeeds. -/
def World.toy : World where
  isFile path := path == "vm.toml"
  knownHosts := none
  hostsFile := "/root/snp-guard/build/known_hosts"
  atFetch := Expansion.noFiles
  atVerify := Expansion.noFiles
  scp _ := (true, [HostKey.toy])
  remote := hasHost
  remote_hasHost h := h
  listed keys := keys
  listed_sub h := h
  clap := toyClap
  verifies _ := true

/-- With a config file the verdict is that of `verify_report`. -/
theorem verdict_iff_toy :
    (run .toy ["-vm-config", "vm.toml"]).status = 0 ∧
      Sound .toy (run .toy ["-vm-config", "vm.toml"]) := by
  have hread : flags.read ["-vm-config", "vm.toml"] .initial
      = .done { Options.initial with vmConfig := "vm.toml" } := rfl
  have hverdict : _ ∧ _ := verdict_iff (w := .toy) toyClap_laws ["-vm-config", "vm.toml"]
  refine ⟨by decide +kernel, hverdict.1.mpr ⟨?_, ?_⟩⟩
  · rintro (h | ⟨o, h, hfile⟩)
    · simp [hread] at h
    · rw [hread, End.done.injEq] at h
      subst h
      exact absurd hfile (by decide)
  · intro o h
    have ho := h
    rw [hread, End.done.injEq] at ho
    subst ho
    exact hverdict.2 _ h (by decide) (by decide)

/-- A config file that is not there ends in status 0, and nothing was verified. -/
theorem verdict_missing_config :
    ClapLaws World.toy.clap ∧ (run .toy ["-vm-config", "missing.toml"]).status = 0 ∧
      (run .toy ["-vm-config", "missing.toml"]).verifyReport = none ∧
      ¬ Sound .toy (run .toy ["-vm-config", "missing.toml"]) := by
  have hrun : run .toy ["-vm-config", "missing.toml"] = usage .toy := rfl
  rw [hrun]
  exact ⟨toyClap_laws, rfl, rfl, not_sound_usage⟩

end SnpGuard.AttestVerity
