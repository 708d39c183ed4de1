/-
The launcher's reading of the VM config: `launch.sh`.

`launch.sh -load-config` takes the boot components, the kernel command line and the guest
policy from the file that the verifier computes the launch digest from.  The verifier
parses TOML; the launcher greps for one line per key.  `loadConfig_agrees` says for which
files the two read the same: those where the keys are written the plain way that the
launcher looks for, on the only line of the file that looks like it.
-/
import SnpGuard.Expected
import SnpGuard.Lib.Regex
import SnpGuard.Lib.Shell
import SnpGuard.Lib.Toml.Plain

namespace SnpGuard.Launch

open Perl Toml

/-! ### The script -/

/-- White space as far as ASCII goes. -/
def asciiSpace (c : Char) : Bool := c == ' ' || (9 ≤ c.toNat && c.toNat ≤ 13)

/-- What `\s` matches; outside ASCII, the locale says. -/
structure Spaces where
  space : Char → Bool
  ascii : ∀ c, c.toNat < 128 → space c = asciiSpace c

/-- Nothing else is white space in the `C` locale. -/
def Spaces.posix : Spaces where
  space := asciiSpace
  ascii _ _ := rfl

variable (S : Spaces)

def isQuote (c : Char) : Bool := c == quote

/-- `"\K[^"]*(?=")`. -/
def quotedValue : Regex :=
  .seq (.one isQuote) (.seq .keep (.seq (.many fun c => !isQuote c) (.ahead (.one isQuote))))

/-- `\K[^"\s]+`. -/
def bareValue : Regex := .seq .keep (.some fun c => !isQuote c && !S.space c)

/-- `\s*$key\s*=\s*(?:..)`. -/
def assignment (key : List Char) : Regex :=
  .seq (.many S.space) (.seq (.literal key) (.seq (.many S.space) (.seq (.one (· == '='))
    (.seq (.many S.space) (.alt quotedValue (bareValue S))))))

/-- The expression that `parse_value_for_key` greps for. -/
def pattern (key : String) : Regex := .seq .bol (assignment S key.toList)

def nul : Char := Char.ofNat 0

/-- `parse_value_for_key`. -/
def parseValueForKey (key file : String) : String :=
  String.ofList (Shell.substitution nul '\n'
    ((grepOnly (pattern S key) file.toList).flatMap (· ++ ['\n'])))

/-- The variables that `-load-config` may set. -/
structure Vars where
  smp : String
  uefiCode : String
  kernelFile : String
  initrdFile : String
  append : String
  sevPolicy : String
deriving DecidableEq

/-- Their values before the options are read. -/
def Vars.initial : Vars where
  smp := "1"
  uefiCode := ""
  kernelFile := ""
  initrdFile := ""
  append := ""
  sevPolicy := ""

/-- A variable that is still empty is read from the file. -/
def orLoad (current key file : String) : String :=
  if current = "" then parseValueForKey S key file else current

/-- The script from `if [ -f "$TOML_CONFIG" ]` on to its `fi`. -/
def loadConfig (tomlConfig : Option String) (vars : Vars) : Vars :=
  match tomlConfig with
  | none => vars
  | some file =>
    { smp := orLoad S vars.smp "vcpu_count" file
      uefiCode := orLoad S vars.uefiCode "ovmf_file" file
      kernelFile := orLoad S vars.kernelFile "kernel_file" file
      initrdFile := orLoad S vars.initrdFile "initrd_file" file
      append := orLoad S vars.append "kernel_cmdline" file
      sevPolicy := orLoad S vars.sevPolicy "guest_policy" file }

/-- No option has set a variable that the digest or the policy depends on. -/
structure Vars.Unset (vars : Vars) : Prop where
  uefiCode : vars.uefiCode = ""
  kernelFile : vars.kernelFile = ""
  initrdFile : vars.initrdFile = ""
  append : vars.append = ""
  sevPolicy : vars.sevPolicy = ""

theorem Vars.initial_unset : Vars.initial.Unset := ⟨rfl, rfl, rfl, rfl, rfl⟩

/-- A number as C writes it. -/
def cNumber (t : List Char) : Option Nat :=
  match t with
  | [] => none
  | '0' :: 'x' :: ds => if !ds.isEmpty && ds.all (isDigit 16) then some (number 16 ds) else none
  | '0' :: ds => if ds.all (isDigit 8) then some (number 8 ds) else none
  | ds => if ds.all (isDigit 10) then some (number 10 ds) else none

/-! ### The two readers -/

/-- `toml::from_str` makes `d` of a document.  The minimum TCB version, a table of its
own, is left out. -/
structure Describes (doc : Document) (d : VMDescription) : Prop where
  wellFormed : doc.WellFormed
  hostCpuFamily : doc.Assigns "host_cpu_family".toList (.string d.hostCpuFamily.display.toList)
  vcpuCount : doc.Assigns "vcpu_count".toList (.integer d.vcpuCount.toNat)
  ovmfFile : doc.Assigns "ovmf_file".toList (.string d.ovmfFile.toList)
  guestFeatures : doc.Assigns "guest_features".toList (.integer d.guestFeatures.toNat)
  kernelFile : doc.Assigns "kernel_file".toList (.string d.kernelFile.toList)
  initrdFile : doc.Assigns "initrd_file".toList (.string d.initrdFile.toList)
  kernelCmdline : doc.Assigns "kernel_cmdline".toList (.string d.kernelCmdline.toList)
  platformInfo : doc.Assigns "platform_info".toList (.integer d.platformInfo.bits.toNat)
  guestPolicy : doc.Assigns "guest_policy".toList (.integer d.guestPolicy.bits.toNat)
  familyId : ∃ s, doc.Assigns "family_id".toList (.string s) ∧
    s.map Char.toLower = (Bytes.hexEncode d.familyId.bytes).toList
  imageId : ∃ s, doc.Assigns "image_id".toList (.string s) ∧
    s.map Char.toLower = (Bytes.hexEncode d.imageId.bytes).toList

/-- The launcher boots what the verifier measures, under the policy that it expects. -/
structure Agrees (vars : Vars) (d : VMDescription) : Prop where
  ovmfFile : vars.uefiCode = d.measurementArgs.ovmfFile
  kernelFile : some vars.kernelFile = d.measurementArgs.kernelFile
  initrdFile : some vars.initrdFile = d.measurementArgs.initrdFile
  append : (if vars.append ≠ "" then some vars.append else none) = d.measurementArgs.append
  guestPolicy : cNumber vars.sevPolicy.toList = some d.guestPolicy.bits.toNat

/-! ### What the launcher's expression takes -/

variable {S}

theorem space_of_isWs {c : Char} (h : isWs c = true) : S.space c = true := by
  rcases isWs_iff.mp h with rfl | rfl
  · rw [S.ascii _ (by decide)]
    rfl
  · rw [S.ascii _ (by decide)]
    rfl

/-- Visible ASCII characters are no white space. -/
theorem not_space {c : Char} (hlo : 33 ≤ c.toNat) (hhi : c.toNat < 128) : S.space c = false := by
  rw [S.ascii c hhi]
  by_contra hspace
  simp only [asciiSpace, Bool.not_eq_false, Bool.or_eq_true, beq_iff_eq, Bool.and_eq_true,
    decide_eq_true_eq] at hspace
  rcases hspace with rfl | ⟨_, h⟩
  · exact absurd hlo (by decide)
  · omega

theorem first_space {w rest : List Char} (hw : Ws w) (hrest : ∀ c ∈ rest.head?, S.space c = false)
    (taken : List Char) (atStart : Bool) :
    (Regex.many S.space).first ⟨atStart, taken, w ++ rest⟩
      = some ⟨atStart && w.isEmpty, taken ++ w, rest⟩ :=
  Regex.first_many hrest taken atStart fun c hc => space_of_isWs (hw c hc)

/-- Where the value begins, the key, the `=` and the white space have been taken. -/
theorem first_assignment {k body text : List Char} (hne : k ≠ [])
    (hk : ∀ c ∈ k.head?, S.space c = false) (hbody : ∀ c ∈ body.head?, S.space c = false)
    (htext : Assigning k body text) {c : Cursor}
    (hvalue : ∀ taken,
      (Regex.alt quotedValue (bareValue S)).first ⟨false, taken, body⟩ = some c) :
    (Regex.seq .bol (assignment S k)).first ⟨true, [], text⟩ = some c := by
  obtain ⟨w, w', w'', hw, hw', hw'', rfl⟩ := htext
  have hkey : ∀ d ∈ (k ++ (w' ++ '=' :: (w'' ++ body))).head?, S.space d = false := by
    intro d hd
    obtain ⟨a, k, rfl⟩ := List.exists_cons_of_ne_nil hne
    exact hk d hd
  have hequals : ∀ d ∈ ('=' :: (w'' ++ body)).head?, S.space d = false :=
    Text.forall_head (not_space (by decide) (by decide))
  have hbol := Regex.first_bol [] (w ++ (k ++ (w' ++ '=' :: (w'' ++ body))))
  refine Regex.first_seq hbol ?_
  refine Regex.first_seq (first_space hw hkey _ _) ?_
  refine Regex.first_seq (Regex.first_literal k _ _ hne _) ?_
  refine Regex.first_seq (first_space hw' hequals _ _) ?_
  refine Regex.first_seq (Regex.first_one (by decide) _ _ _) ?_
  refine Regex.first_seq (first_space hw'' hbody _ _) ?_
  exact hvalue _

/-- Of a quoted value, what is inside the quotes. -/
theorem first_quotedValue {s : List Char} (hs : quote ∉ s) (taken rest : List Char) :
    quotedValue.first ⟨false, taken, quote :: (s ++ quote :: rest)⟩
      = some ⟨false, s, quote :: rest⟩ := by
  have hall : ∀ c ∈ s, (!isQuote c) = true := by
    intro c hc
    have hne : c ≠ quote := fun h => hs (h ▸ hc)
    simpa [isQuote] using hne
  have hend : ∀ c ∈ (quote :: rest).head?, (!isQuote c) = false :=
    Text.forall_head (by decide)
  have hmany : (Regex.many fun c => !isQuote c).first ⟨false, [], s ++ quote :: rest⟩
      = some ⟨false, s, quote :: rest⟩ := Regex.first_many hend [] false hall
  refine Regex.first_seq (Regex.first_one (by decide) _ _ _) ?_
  refine Regex.first_seq (Regex.first_keep _ _ _) ?_
  refine Regex.first_seq hmany ?_
  exact Regex.first_ahead (Regex.first_one (by decide) _ _ _)

/-- Of a value without quotes, what comes before white space. -/
theorem first_bareValue {t rest : List Char} (hne : t ≠ [])
    (ht : ∀ c ∈ t, isQuote c = false ∧ S.space c = false)
    (hrest : ∀ c ∈ rest.head?, S.space c = true) (taken : List Char) :
    (Regex.alt quotedValue (bareValue S)).first ⟨false, taken, t ++ rest⟩
      = some ⟨false, t, rest⟩ := by
  obtain ⟨a, t, rfl⟩ := List.exists_cons_of_ne_nil hne
  have hall : ∀ c ∈ a :: t, (!isQuote c && !S.space c) = true := by
    intro c hc
    obtain ⟨hquote, hspace⟩ := ht c hc
    rw [hquote, hspace]
    rfl
  have hend : ∀ c ∈ rest.head?, (!isQuote c && !S.space c) = false := by
    intro c hc
    rw [hrest c hc, Bool.not_true, Bool.and_false]
  have hquoted : quotedValue.run ⟨false, taken, a :: (t ++ rest)⟩ = [] :=
    Regex.run_seq_eq_nil (Regex.run_one_eq_nil (ht a (by simp)).1 _ _ _)
  refine Regex.first_alt_right hquoted ?_
  refine Regex.first_seq (Regex.first_keep _ _ _) ?_
  exact Regex.first_some hend (hall a (by simp)) (fun c hc => hall c (by simp [hc])) _ _

/-! ### What the launcher reads of a document -/

/-- The keys of the string that are measured. -/
def stringKeys : List String := ["ovmf_file", "kernel_file", "initrd_file", "kernel_cmdline"]

def policyKey : String := "guest_policy"

theorem keys_bare : ∀ key ∈ policyKey :: stringKeys, BareKey key.toList := by
  decide

theorem keys_head {key : String} (hkey : key ∈ policyKey :: stringKeys) :
    ∀ c ∈ key.toList.head?, S.space c = false := by
  have hvisible : ∀ key ∈ policyKey :: stringKeys,
      (key.toList.head?.all fun c => 33 ≤ c.toNat && c.toNat < 128) = true := by decide
  intro c hc
  have hkey := hvisible key hkey
  rw [Option.mem_def.mp hc, Option.all_some, Bool.and_eq_true, decide_eq_true_eq,
    decide_eq_true_eq] at hkey
  exact not_space hkey.1 hkey.2

/-- The only line of a text that has the form that `parse_value_for_key` looks for. -/
def OnlyLine (S : Spaces) (key : String) (doc : Document) : Prop :=
  (Text.lines doc.text).countP (Matches (pattern S key)) ≤ 1

/-- **What the launcher makes of a line is what it reads of the file**, when no other line
has the form that it looks for. -/
theorem parseValueForKey_of_line {text line s rest : List Char} {key : String}
    (hmem : line ∈ Text.lines text) (hs : nul ∉ s ∧ '\n' ∉ s)
    (honly : (Text.lines text).countP (Matches (pattern S key)) ≤ 1)
    (hmatch : (pattern S key).first ⟨true, [], line⟩ = some ⟨false, s, rest⟩) :
    parseValueForKey S key (String.ofList text) = String.ofList s := by
  have hmatches : Matches (pattern S key) line := by
    show ((pattern S key).first ⟨true, [], line⟩).isSome = true
    rw [hmatch]
    rfl
  have hgrep : grepOnly (pattern S key) text = if s = [] then [] else [s] := by
    have hsame := grepOnly_of_unique honly hmem hmatches
    exact hsame.trans (onlyMatching_of_first hmatch)
  unfold parseValueForKey
  rw [String.toList_ofList, hgrep]
  by_cases hnil : s = []
  · subst hnil
    rfl
  · rw [if_neg hnil]
    show String.ofList (Shell.substitution nul '\n' (s ++ ['\n'] ++ [])) = _
    rw [List.append_nil, Shell.substitution_line hs.1 hs.2 (by decide)]

/-- The same for a line of a document, which may end in a carriage return. -/
theorem parseValueForKey_of_first {doc : Document} {key : String} {l : Line} {s : List Char}
    (hl : l ∈ doc) (hline : '\n' ∉ l.text) (hne : l.text ≠ [])
    (hs : nul ∉ s ∧ '\n' ∉ s) (honly : OnlyLine S key doc)
    (hfirst : ∀ cr, cr = [] ∨ cr = ['\r'] → ∃ rest,
      (pattern S key).first ⟨true, [], l.text ++ cr⟩ = some ⟨false, s, rest⟩) :
    parseValueForKey S key (String.ofList doc.text) = String.ofList s := by
  obtain ⟨cr, hcr, hmem⟩ := Document.mem_lines hline hne hl
  obtain ⟨rest, hmatch⟩ := hfirst cr hcr
  exact parseValueForKey_of_line hmem hs honly hmatch

/-- A key whose line is written plainly is read as TOML reads it. -/
theorem parse_quoted {doc : Document} {key : String} (hkey : key ∈ stringKeys) {l : Line}
    (hl : l ∈ doc) {s body : List Char} (hq : Quoted s body)
    (hs : ∀ c ∈ s, isNonEol c = true) (htext : Assigning key.toList body l.text)
    (honly : OnlyLine S key doc) :
    parseValueForKey S key (String.ofList doc.text) = String.ofList s := by
  obtain ⟨hquote, -, trailer, htrailer, rfl⟩ := hq
  have hmem : key ∈ policyKey :: stringKeys := List.mem_cons_of_mem _ hkey
  have hbare : BareKey key.toList := keys_bare key hmem
  have hbody : '\n' ∉ quote :: (s ++ quote :: trailer) := by
    have hq : '\n' ≠ quote := by decide
    simp [hq, not_newline_of_nonEol hs, htrailer.not_newline]
  have hnul : nul ∉ s := by
    intro h
    exact absurd (hs nul h) (by decide)
  refine parseValueForKey_of_first hl (htext.not_newline hbare hbody) htext.ne_nil
    ⟨hnul, not_newline_of_nonEol hs⟩ honly ?_
  intro cr _
  refine ⟨quote :: (trailer ++ cr), ?_⟩
  have hhead : ∀ c ∈ (quote :: (s ++ quote :: trailer) ++ cr).head?, S.space c = false :=
    Text.forall_head (not_space (by decide) (by decide))
  refine first_assignment hbare.1 (keys_head hmem) hhead (htext.append cr) ?_
  intro taken
  have hvalue := first_quotedValue hquote taken (trailer ++ cr)
  rw [List.cons_append, List.append_assoc]
  exact Regex.first_alt_left hvalue

/-- A visible text without quotes is read up to the white space behind it, whatever it means
in TOML. -/
theorem parse_bare {doc : Document} {key : String} (hkey : key ∈ policyKey :: stringKeys)
    {l : Line} (hl : l ∈ doc) {t trailer : List Char} (hne : t ≠ [])
    (ht : ∀ c ∈ t, 33 ≤ c.toNat ∧ c.toNat < 128 ∧ c ≠ quote) (htrailer : Trailer trailer)
    (hspaced : ∀ c ∈ trailer.head?, isWs c = true)
    (htext : Assigning key.toList (t ++ trailer) l.text) (honly : OnlyLine S key doc) :
    parseValueForKey S key (String.ofList doc.text) = String.ofList t := by
  have hbare : BareKey key.toList := keys_bare key hkey
  have hplain : ∀ c ∈ t, isQuote c = false ∧ S.space c = false := by
    intro c hc
    obtain ⟨hlo, hhi, hquote⟩ := ht c hc
    exact ⟨by simpa [isQuote] using hquote, not_space hlo hhi⟩
  have hout : ∀ c : Char, c.toNat < 33 → c ∉ t := by
    intro c hc hmem
    have hlo := (ht c hmem).1
    omega
  have hbody : '\n' ∉ t ++ trailer := by
    simp [hout '\n' (by decide), htrailer.not_newline]
  refine parseValueForKey_of_first hl (htext.not_newline hbare hbody) htext.ne_nil
    ⟨hout nul (by decide), hout '\n' (by decide)⟩ honly ?_
  intro cr hcr
  refine ⟨trailer ++ cr, ?_⟩
  have hrest : ∀ c ∈ (trailer ++ cr).head?, S.space c = true := by
    intro c hc
    cases trailer with
    | nil =>
        rcases hcr with rfl | rfl
        · simp at hc
        · refine Text.forall_head (P := fun d => S.space d = true) ?_ c hc
          rw [S.ascii _ (by decide)]
          rfl
    | cons d trailer => exact space_of_isWs (hspaced c hc)
  refine first_assignment hbare.1 (keys_head hkey) ?_ (htext.append cr) ?_
  · obtain ⟨a, t, rfl⟩ := List.exists_cons_of_ne_nil hne
    exact Text.forall_head (hplain a (by simp)).2
  · intro taken
    rw [List.append_assoc]
    exact first_bareValue hne hplain hrest taken

/-- C reads a plain number as TOML does. -/
theorem cNumber_numeral {t : List Char} {n : Nat} (h : Numeral t n) : cNumber t = some n := by
  cases h with
  | @hex t hne hdigits =>
      have hhex : (!t.isEmpty && t.all (isDigit 16)) = true := by
        rw [List.all_eq_true.mpr hdigits, Bool.and_true]
        simpa using hne
      exact if_pos hhex
  | dec hne hdigits hzero =>
      obtain ⟨c, more, rfl⟩ := List.exists_cons_of_ne_nil hne
      by_cases hc : c = '0'
      · -- A zero does not lead, so it is the number.
        subst hc
        have hmore : more = [] := (List.cons.inj (hzero rfl)).2
        subst hmore
        rfl
      · have hdec : cNumber (c :: more)
            = if (c :: more).all (isDigit 10) then some (number 10 (c :: more)) else none := by
          unfold cNumber
          split
          · simp_all
          · simp_all
          · simp_all
          · rfl
        rw [hdec, if_pos (List.all_eq_true.mpr hdigits)]

/-! ### The launcher and the verifier -/

/-- What `parse_value_for_key` is written for: the four strings stand in double quotes
without an escape sequence, the policy is a number without underscores and sign and with
white space behind it, the keys are bare, and no other line has the form that the launcher
looks for. -/
structure Plain (S : Spaces) (doc : Document) : Prop where
  strings : ∀ key ∈ stringKeys, ∀ l ∈ doc.root, ∀ v,
    l.means = .assign [key.toList] (.string v) →
      ∃ s body, Quoted s body ∧ Assigning key.toList body l.text
  policy : ∀ l ∈ doc.root, ∀ v, l.means = .assign [policyKey.toList] (.integer v) →
    ∃ n body, Spaced n body ∧ Assigning policyKey.toList body l.text
  only : ∀ key ∈ policyKey :: stringKeys, OnlyLine S key doc

theorem mem_of_mem_root {doc : Document} {l : Line} (h : l ∈ doc.root) : l ∈ doc :=
  (List.takeWhile_prefix _).subset h

theorem parse_string {doc : Document} (hplain : Plain S doc) {key : String}
    (hkey : key ∈ stringKeys) {value : String}
    (hvalue : doc.Assigns key.toList (.string value.toList)) :
    parseValueForKey S key (String.ofList doc.text) = value := by
  obtain ⟨l, hl, hmeans⟩ := hvalue
  have hmem : key ∈ policyKey :: stringKeys := List.mem_cons_of_mem _ hkey
  obtain ⟨s, body, hquoted, htext⟩ := hplain.strings key hkey l hl _ hmeans
  have hspelled := l.spelled
  rw [hmeans] at hspelled
  have hhead : ∀ c ∈ body.head?, isWs c = false := by
    obtain ⟨-, -, trailer, -, rfl⟩ := hquoted
    exact Text.forall_head (by decide)
  obtain ⟨t, trailer, hval, -, rfl⟩ := assign_inv hspelled (keys_bare key hmem) hhead htext
  obtain ⟨hsame, heol⟩ := string_of_quoted hval hquoted
  have hs : value.toList = s := Val.string.inj hsame
  rw [parse_quoted hkey (mem_of_mem_root hl) hquoted heol htext (hplain.only key hmem), ← hs,
    String.ofList_toList]

theorem parse_policy {doc : Document} (hplain : Plain S doc) {n : Nat}
    (hvalue : doc.Assigns policyKey.toList (.integer n)) :
    cNumber (parseValueForKey S policyKey (String.ofList doc.text)).toList = some n := by
  obtain ⟨l, hl, hmeans⟩ := hvalue
  have hmem : policyKey ∈ policyKey :: stringKeys := List.mem_cons_self
  obtain ⟨m, body, hspaced, htext⟩ := hplain.policy l hl _ hmeans
  have hspelled := l.spelled
  rw [hmeans] at hspelled
  obtain ⟨num, rest, hnum, hrest, hws, rfl⟩ := hspaced
  have hhead : ∀ c ∈ (num ++ rest).head?, isWs c = false := by
    obtain ⟨d, more, rfl, hd⟩ := hnum.head
    exact Text.forall_head (isWs_of_isNumeral hd)
  obtain ⟨t, trailer, hval, htrailer, hsplit⟩ :=
    assign_inv hspelled (keys_bare policyKey hmem) hhead htext
  have hsame := integer_of_numeral hval htrailer ⟨num, rest, hnum, hrest, hws, hsplit.symm⟩
  have hn : n = m := by
    have hint : (n : Int) = m := Val.integer.inj hsame
    omega
  have hvisible : ∀ c ∈ num, 33 ≤ c.toNat ∧ c.toNat < 128 ∧ c ≠ quote := by
    intro c hc
    obtain ⟨hlo, hhi⟩ := hnum.range c hc
    refine ⟨by omega, by omega, ?_⟩
    rintro rfl
    exact absurd hlo (by decide)
  rw [parse_bare hmem (mem_of_mem_root hl) hnum.ne_nil hvisible hrest hws htext
    (hplain.only policyKey hmem), String.toList_ofList, cNumber_numeral hnum, hn]

/-- **The launcher boots what the verifier measures.**  From a config file that describes a
VM in the plain way, and with no option that overrides it, the launcher takes the strings
that go into the launch digest, and a policy that is the number the verifier expects. -/
theorem loadConfig_agrees {doc : Document} {d : VMDescription} (hdoc : Describes doc d)
    (hplain : Plain S doc) {vars : Vars} (hvars : vars.Unset) :
    Agrees (loadConfig S (some (String.ofList doc.text)) vars) d := by
  have hload : ∀ {current : String}, current = "" → ∀ key : String,
      orLoad S current key (String.ofList doc.text)
        = parseValueForKey S key (String.ofList doc.text) := by
    intro current hcurrent key
    exact if_pos hcurrent
  have hovmf := parse_string hplain (by decide) hdoc.ovmfFile
  have hkernel := parse_string hplain (by decide) hdoc.kernelFile
  have hinitrd := parse_string hplain (by decide) hdoc.initrdFile
  have happend := parse_string hplain (by decide) hdoc.kernelCmdline
  have hpolicy := parse_policy hplain hdoc.guestPolicy
  refine ⟨?_, ?_, ?_, ?_, ?_⟩
  · exact (hload hvars.uefiCode "ovmf_file").trans hovmf
  · exact congrArg some ((hload hvars.kernelFile "kernel_file").trans hkernel)
  · exact congrArg some ((hload hvars.initrdFile "initrd_file").trans hinitrd)
  · have hread : (loadConfig S (some (String.ofList doc.text)) vars).append = d.kernelCmdline :=
      (hload hvars.append "kernel_cmdline").trans happend
    rw [hread]
    rfl
  · have hread := hload hvars.sevPolicy "guest_policy"
    show cNumber (orLoad S vars.sevPolicy "guest_policy" _).toList = _
    rw [hread]
    exact hpolicy

/-! ### A config file -/

theorem zero_numeral : Numeral ['0'] 0 :=
  .dec (by decide) (List.all_eq_true.mp (by decide)) (by decide)

theorem one_numeral : Numeral ['1'] 1 :=
  .dec (by decide) (List.all_eq_true.mp (by decide)) (by decide)

theorem policy_numeral : Numeral "0x30000".toList 0x30000 :=
  .hex (by decide) (List.all_eq_true.mp (by decide))

/-- The reserved bytes of a TCB version. -/
theorem zeros_value : Value "[0, 0, 0, 0]".toList
    (.array [.integer 0, .integer 0, .integer 0, .integer 0]) := by
  have hzero : Value ['0'] (.integer 0) := .of_numeral zero_numeral
  have hblank : Filler [' '] := .ws rfl .nil
  have hone := Items.last hblank hzero .nil
  have htwo := Items.more hblank hzero .nil hone
  have hthree := Items.more hblank hzero .nil htwo
  exact .array (Items.more .nil hzero .nil hthree)

def stringLine (key s : String) (hkey : BareKey key.toList := by decide)
    (hs : s.toList.all isUnescaped = true := by decide) : Line :=
  .ofValue key.toList hkey (.of_unescaped (List.all_eq_true.mp hs))

def numberLine (key : String) {t : List Char} {n : Nat} (h : Numeral t n)
    (hkey : BareKey key.toList := by decide) : Line := .ofValue key.toList hkey (.of_numeral h)

/-- A config file whose kernel command line is written as `cmdline`. -/
def toyDocument {cmdline : List Char} (h : Value cmdline (.string "console=ttyS0".toList)) :
    Document :=
  [ stringLine "host_cpu_family" "Milan",
    numberLine "vcpu_count" one_numeral,
    stringLine "ovmf_file" "OVMF.fd",
    numberLine "guest_features" one_numeral,
    stringLine "kernel_file" "vmlinuz",
    stringLine "initrd_file" "initrd.img",
    .ofValue "kernel_cmdline".toList (by decide) h,
    numberLine "platform_info" zero_numeral,
    numberLine "guest_policy" policy_numeral,
    stringLine "family_id" "00000000000000000000000000000000",
    stringLine "image_id" "00000000000000000000000000000000",
    .ofTable "min_commited_tcb".toList (by decide),
    numberLine "bootloader" zero_numeral,
    numberLine "tee" zero_numeral,
    numberLine "snp" zero_numeral,
    numberLine "microcode" zero_numeral,
    .ofValue "_reserved".toList (by decide) zeros_value ]

/-- The keys of its root table. -/
def toyKeys : List String :=
  ["host_cpu_family", "vcpu_count", "ovmf_file", "guest_features", "kernel_file", "initrd_file",
    "kernel_cmdline", "platform_info", "guest_policy", "family_id", "image_id"]

theorem toy_wellFormed {cmdline : List Char}
    (h : Value cmdline (.string "console=ttyS0".toList)) : (toyDocument h).WellFormed := by
  have hroot : (toyDocument h).rootPaths = toyKeys.map fun k => [k.toList] := rfl
  have hheaders : (toyDocument h).headers = [["min_commited_tcb".toList]] := rfl
  refine ⟨?_, ?_⟩
  · rw [hroot]
    decide +kernel
  · rw [hroot, hheaders]
    decide +kernel

/-- What `toyDocument` describes. -/
def toyDescription : VMDescription :=
  { VMDescription.toy with
    ovmfFile := "OVMF.fd"
    guestFeatures := 1
    kernelFile := "vmlinuz"
    initrdFile := "initrd.img"
    kernelCmdline := "console=ttyS0"
    guestPolicy := ⟨0x30000⟩ }

theorem toy_describes {cmdline : List Char}
    (h : Value cmdline (.string "console=ttyS0".toList)) :
    Describes (toyDocument h) toyDescription where
  wellFormed := toy_wellFormed h
  hostCpuFamily := ⟨_, List.mem_of_getElem? (i := 0) rfl, rfl⟩
  vcpuCount := ⟨_, List.mem_of_getElem? (i := 1) rfl, rfl⟩
  ovmfFile := ⟨_, List.mem_of_getElem? (i := 2) rfl, rfl⟩
  guestFeatures := ⟨_, List.mem_of_getElem? (i := 3) rfl, rfl⟩
  kernelFile := ⟨_, List.mem_of_getElem? (i := 4) rfl, rfl⟩
  initrdFile := ⟨_, List.mem_of_getElem? (i := 5) rfl, rfl⟩
  kernelCmdline := ⟨_, List.mem_of_getElem? (i := 6) rfl, rfl⟩
  platformInfo := ⟨_, List.mem_of_getElem? (i := 7) rfl, rfl⟩
  guestPolicy := ⟨_, List.mem_of_getElem? (i := 8) rfl, rfl⟩
  familyId := ⟨_, ⟨_, List.mem_of_getElem? (i := 9) rfl, rfl⟩, by decide +kernel⟩
  imageId := ⟨_, ⟨_, List.mem_of_getElem? (i := 10) rfl, rfl⟩, by decide +kernel⟩

theorem cmdline_plain : "console=ttyS0".toList.all isUnescaped = true := by decide

theorem cmdline_literal : LiteralBody "console=ttyS0".toList := by
  intro c hc
  have hall : ("console=ttyS0".toList.all fun c => isNonEol c && c != apostrophe) = true := by
    decide
  simpa using List.all_eq_true.mp hall c hc

/-- The file with the command line in double quotes. -/
def plainDocument : Document := toyDocument (.of_unescaped (List.all_eq_true.mp cmdline_plain))

/-- The file with the command line in single quotes. -/
def literalDocument : Document := toyDocument (.literal cmdline_literal)

/-- A line that assigns a quoted string or a spaced number to a bare key. -/
def PlainLine (l : Line) : Prop :=
  (∃ k s body, l.means = .assign [k] (.string s) ∧ Quoted s body ∧ Assigning k body l.text) ∨
    ∃ k n body, l.means = .assign [k] (.integer (n : Nat)) ∧ Spaced n body ∧
      Assigning k body l.text

theorem stringLine_plain {key s : String} (hkey : BareKey key.toList)
    (hs : s.toList.all isUnescaped = true) : PlainLine (stringLine key s hkey hs) :=
  Or.inl ⟨_, _, _, rfl, .of_unescaped (List.all_eq_true.mp hs), Line.ofValue_assigning hkey _⟩

theorem numberLine_plain {key : String} {t : List Char} {n : Nat} (h : Numeral t n)
    (hkey : BareKey key.toList) : PlainLine (numberLine key h hkey) :=
  Or.inr ⟨_, _, _, rfl, .of_numeral h, Line.ofValue_assigning hkey _⟩

theorem plainDocument_lines : ∀ l ∈ plainDocument.root, PlainLine l := by
  have hcmdline : PlainLine (stringLine "kernel_cmdline" "console=ttyS0") :=
    stringLine_plain _ cmdline_plain
  show ∀ l ∈ [_, _, _, _, _, _, _, _, _, _, _], PlainLine l
  simp only [List.forall_mem_cons]
  exact ⟨stringLine_plain _ _, numberLine_plain _ _, stringLine_plain _ _, numberLine_plain _ _,
    stringLine_plain _ _, stringLine_plain _ _, hcmdline, numberLine_plain _ _,
    numberLine_plain _ _, stringLine_plain _ _, stringLine_plain _ _, by simp⟩

theorem plainDocument_only : ∀ key ∈ policyKey :: stringKeys,
    OnlyLine .posix key plainDocument := by
  have hall : ∀ k ∈ (policyKey :: stringKeys).map String.toList,
      (Text.lines plainDocument.text).countP
        (Matches (.seq .bol (assignment .posix k))) ≤ 1 := by
    simp only [policyKey, stringKeys, plainDocument, toyDocument, stringLine, numberLine,
      Document.text, Line.ofValue, Line.ofTable, Line.newline, String.reduceToList, List.map_cons,
      List.map_nil, Bool.false_eq_true, if_false, List.cons_append, List.nil_append]
    decide +kernel
  intro key hkey
  exact hall key.toList (List.mem_map_of_mem hkey)

theorem plainDocument_plain : Plain .posix plainDocument where
  strings := by
    intro key hkey l hl v hmeans
    rcases plainDocument_lines l hl with ⟨k, s, body, hline, hq, htext⟩ | ⟨k, n, body, hline, -, -⟩
    · rw [hmeans] at hline
      obtain ⟨hk, -⟩ := Statement.assign.inj hline
      obtain rfl : key.toList = k := (List.cons.inj hk).1
      exact ⟨s, body, hq, htext⟩
    · rw [hmeans] at hline
      exact absurd (Statement.assign.inj hline).2 (by simp)
  policy := by
    intro l hl v hmeans
    rcases plainDocument_lines l hl with ⟨k, s, body, hline, -, -⟩ | ⟨k, n, body, hline, hn, htext⟩
    · rw [hmeans] at hline
      exact absurd (Statement.assign.inj hline).2 (by simp)
    · rw [hmeans] at hline
      obtain ⟨hk, -⟩ := Statement.assign.inj hline
      obtain rfl : policyKey.toList = k := (List.cons.inj hk).1
      exact ⟨n, body, hn, htext⟩
  only := plainDocument_only

theorem loadConfig_agrees_toy :
    Agrees (loadConfig .posix (some (String.ofList plainDocument.text)) .initial)
      toyDescription :=
  loadConfig_agrees (toy_describes _) plainDocument_plain Vars.initial_unset

/-! ### A config file that is read differently -/

theorem literalDocument_only : OnlyLine .posix "kernel_cmdline" literalDocument := by
  show (Text.lines literalDocument.text).countP
    (Matches (.seq .bol (assignment .posix "kernel_cmdline".toList))) ≤ 1
  simp only [literalDocument, toyDocument, stringLine, numberLine, Document.text, Line.ofValue,
    Line.ofTable, Line.newline, String.reduceToList, Bool.false_eq_true, if_false,
    List.cons_append, List.nil_append]
  decide +kernel

/-- The launcher takes the apostrophes of a literal string for a part of it. -/
theorem literal_read :
    parseValueForKey .posix "kernel_cmdline" (String.ofList literalDocument.text)
      = "'console=ttyS0'" := by
  have hmem : Line.ofValue "kernel_cmdline".toList (by decide) (.literal cmdline_literal)
      ∈ literalDocument := List.mem_of_getElem? (i := 6) rfl
  have htext := Line.ofValue_assigning (k := "kernel_cmdline".toList) (by decide)
    (.literal cmdline_literal)
  have hvisible : ∀ c ∈ "'console=ttyS0'".toList, 33 ≤ c.toNat ∧ c.toNat < 128 ∧ c ≠ quote := by
    intro c hc
    have hall : ("'console=ttyS0'".toList.all fun c =>
        33 ≤ c.toNat && c.toNat < 128 && c != quote) = true := by decide
    simpa [and_assoc] using List.all_eq_true.mp hall c hc
  have hnothing : Trailer [] := ⟨[], [], by simp [Ws], .absent, rfl⟩
  have hread := parse_bare (S := .posix) (by decide) hmem (by decide) hvisible hnothing (by simp)
    htext literalDocument_only
  rw [hread, String.ofList_toList]

/-- What a config file describes is not always what the launcher boots. -/
theorem loadConfig_differs : ¬ ∀ (S : Spaces) (doc : Document) (d : VMDescription),
    Describes doc d → ∀ vars : Vars, vars.Unset →
      Agrees (loadConfig S (some (String.ofList doc.text)) vars) d := by
  intro hall
  have hagrees := hall .posix literalDocument toyDescription (toy_describes _) .initial
    Vars.initial_unset
  have happend : (loadConfig .posix (some (String.ofList literalDocument.text)) .initial).append
      = "'console=ttyS0'" := literal_read
  have hsame := hagrees.append
  rw [happend] at hsame
  exact absurd hsame (by decide)

end SnpGuard.Launch
