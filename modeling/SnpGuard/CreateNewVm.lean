/-
The keys of a new VM: the options of `create-new-vm.sh`.

The script generates the keys that no option names.  The option for a server key of one's own
sets the path of the private key twice, the second time to that of the public key, and never
the path of the public key.  So no file is made with it; without it the file is the one that
is wanted if no text disturbs the commands of `SnpGuard.UserData` (`userData_iff`).
-/
import SnpGuard.Lib.ArgLoop
import SnpGuard.UserData

namespace SnpGuard.CreateNewVm

open ArgLoop UserData

/-! ### The script -/

structure Vars where
  newVm : String
  buildDir : String
  size : String
  ownerPubkeyPath : String
  serverPrivkeyPath : String
  serverPubkeyPath : String

def Vars.initial : Vars where
  newVm := ""
  buildDir := "."
  size := "20"
  ownerPubkeyPath := ""
  serverPrivkeyPath := ""
  serverPubkeyPath := ""

def assign : String → Option (String → Vars → Vars)
  | "-image-name" => some fun v o => { o with newVm := v }
  | "-build-dir" => some fun v o => { o with buildDir := v }
  | "-owner-pubkey" => some fun v o => { o with ownerPubkeyPath := v }
  | "-server-privkey" => some fun v o =>
    -- Both lines of the script set this variable.
    let o := { o with serverPrivkeyPath := v }
    { o with serverPrivkeyPath := v ++ ".pub" }
  | "-size" => some fun v o => { o with size := v }
  | _ => none

def flags : ArgLoop.Flags Vars := ⟨fun _ => none, assign⟩

/-- What the script finds around it. -/
structure World where
  files : String → Option File
  noName : files "" = none
  realpath : String → String
  /-- What `ssh-keygen` generates if it is asked to. -/
  ownerPair : KeyPair
  serverPair : KeyPair
  /-- The user name as it is read, and the hash of the password. -/
  user : Line
  user_line : '\n' ∉ user
  hash : CryptHash
  /-- What `sed` makes of a file if a text has further commands for it. -/
  sed : List Char → File → Option File

/-- `ssh-keygen -f path`. -/
def generate (files : String → Option File) (path : String) (pair : KeyPair) :
    String → Option File := fun p =>
  if p = path then some pair.priv
  else if p = path ++ ".pub" then some [pair.pub.line]
  else files p

/-- The keys that are used, and the files then. -/
structure Selected where
  ownerPubkeyPath : String
  serverPrivkeyPath : String
  serverPubkeyPath : String
  files : String → Option File

def keysPath (w : World) (o : Vars) : String := w.realpath o.buildDir ++ "/keys"

def selectKeys (w : World) (o : Vars) : Selected :=
  let sel : Selected :=
    ⟨o.ownerPubkeyPath, o.serverPrivkeyPath, o.serverPubkeyPath, w.files⟩
  let sel :=
    if sel.ownerPubkeyPath = "" then
      let path := keysPath w o ++ "/ssh-key-vm-owner"
      { sel with ownerPubkeyPath := path ++ ".pub", files := generate sel.files path w.ownerPair }
    else sel
  if sel.serverPrivkeyPath = "" then
    let path := keysPath w o ++ "/ssh-server-key-vm"
    { sel with
      serverPrivkeyPath := path
      serverPubkeyPath := path ++ ".pub"
      files := generate sel.files path w.serverPair }
  else sel

/-- `$(cat path)`. -/
def cat (files : String → Option File) (path : String) : Option Line :=
  (files path).map fun file => Shell.substitution Words.nul '\n' (file.flatMap (· ++ ['\n']))

/-- From the template to the file, if no command fails.  The keys are read in between. -/
def userData (w : World) (sel : Selected) : Option File := do
  let userPubkey ← cat sel.files sel.ownerPubkeyPath
  let serverPrivkey ← sel.files sel.serverPrivkeyPath
  let serverPubkey ← cat sel.files sel.serverPubkeyPath
  fill w.sed ⟨w.user, w.hash.text, userPubkey, serverPrivkey, serverPubkey⟩

/-- `user-data`, if the script gets to its end. -/
def run (w : World) (args : List String) : Option File :=
  match flags.read args .initial with
  | .done o => if o.newVm = "" then none else userData w (selectKeys w o)
  | _ => none

/-! ### What is wanted -/

/-- The variables once the options have been read. -/
def vars (opts : List Opt) : Vars := opts.foldl flags.apply .initial

/-- The files once the keys have been generated. -/
def filesThen (w : World) (opts : List Opt) : String → Option File :=
  (selectKeys w (vars opts)).files

/-- The path that is chosen for the key of the owner. -/
def ownerPath (w : World) (opts : List Opt) : String :=
  (lastValue "-owner-pubkey" opts).getD (keysPath w (vars opts) ++ "/ssh-key-vm-owner" ++ ".pub")

/-- The path that is chosen for the private key of the server. -/
def serverPath (w : World) (opts : List Opt) : String :=
  (lastValue "-server-privkey" opts).getD (keysPath w (vars opts) ++ "/ssh-server-key-vm")

/-- What the chosen paths hold. -/
structure Given (w : World) (opts : List Opt) (owner : PublicKey) (server : KeyPair) : Prop where
  image : (lastValue "-image-name" opts).isSome
  owner : filesThen w opts (ownerPath w opts) = some [owner.line]
  privkey : filesThen w opts (serverPath w opts) = some server.priv
  pubkey : filesThen w opts (serverPath w opts ++ ".pub") = some [server.pub.line]

def World.inputs (w : World) (owner : PublicKey) (server : KeyPair) : Inputs :=
  ⟨w.user, w.user_line, w.hash, owner, server⟩

/-! ### The variables -/

variable {w : World} {opts : List Opt} {owner : PublicKey} {server : KeyPair}

theorem flags_distinct : flags.Distinct where
  switch := fun _ => rfl
  nonempty := ⟨rfl, rfl⟩

/-- What an option sets.  The path of the public key is not among it. -/
theorem assign_spec {flag : String} {set : String → Vars → Vars} (h : assign flag = some set)
    (value : String) (s : Vars) :
    (set value s).newVm = (if flag = "-image-name" then value else s.newVm) ∧
      (set value s).ownerPubkeyPath
        = (if flag = "-owner-pubkey" then value else s.ownerPubkeyPath) ∧
      (set value s).serverPrivkeyPath
        = (if flag = "-server-privkey" then value ++ ".pub" else s.serverPrivkeyPath) ∧
      (set value s).serverPubkeyPath = s.serverPubkeyPath := by
  unfold assign at h
  split at h
  all_goals cases h
  all_goals simp

theorem newVm_setBy : flags.SetBy "-image-name" Vars.newVm where
  assign h value s := (assign_spec h value s).1
  switch h := by cases h

theorem ownerPubkeyPath_setBy : flags.SetBy "-owner-pubkey" Vars.ownerPubkeyPath where
  assign h value s := (assign_spec h value s).2.1
  switch h := by cases h

/-- An option always has a value here. -/
theorem known_value {o : Opt} (h : flags.Known o) :
    ∃ value set, o.value = some value ∧ assign o.flag = some set ∧
      ∀ s, flags.apply s o = set value s := by
  obtain ⟨flag, value⟩ := o
  cases value with
  | none => simp [Flags.Known, flags] at h
  | some value =>
      obtain ⟨set, hset⟩ : ∃ set, assign flag = some set := Option.isSome_iff_exists.mp h.1
      refine ⟨value, set, rfl, hset, fun s => ?_⟩
      have hassign : flags.assign flag = some set := hset
      simp [Flags.apply, hassign]

/-- The option leads to the public key, and leaves the path of it empty. -/
theorem vars_server (hopts : ∀ o ∈ opts, flags.Known o) :
    (vars opts).serverPubkeyPath = "" ∧ (vars opts).serverPrivkeyPath
      = ((lastValue "-server-privkey" opts).map (· ++ ".pub")).getD "" := by
  unfold vars
  induction opts using List.reverseRecOn with
  | nil => exact ⟨rfl, rfl⟩
  | append_singleton opts o ih =>
      obtain ⟨hpub, hpriv⟩ := ih fun o' ho' => hopts o' (List.mem_append_left _ ho')
      obtain ⟨value, set, hvalue, hset, happly⟩ :=
        known_value (hopts o (List.mem_append_right _ List.mem_cons_self))
      rw [List.foldl_concat, happly, lastValue_snoc, hvalue]
      generalize opts.foldl flags.apply .initial = s at hpub hpriv
      obtain ⟨-, -, hpriv', hpub'⟩ := assign_spec hset value s
      rw [hpub', hpub, hpriv', hpriv]
      refine ⟨rfl, ?_⟩
      by_cases hflag : o.flag = "-server-privkey"
      · simp [hflag]
      · simp [hflag]

theorem vars_newVm (hopts : ∀ o ∈ opts, flags.Known o)
    (h : (lastValue "-image-name" opts).isSome) : (vars opts).newVm ≠ "" := by
  obtain ⟨value, hvalue⟩ := Option.isSome_iff_exists.mp h
  unfold vars
  rw [newVm_setBy.foldl hopts, hvalue]
  exact Flags.lastValue_ne_empty hopts hvalue

theorem append_ne_empty {a b : String} (h : b ≠ "") : a ++ b ≠ "" := by
  intro heq
  exact h (String.append_eq_empty_iff.mp heq).2

/-! ### The keys -/

theorem selectKeys_owner (hopts : ∀ o ∈ opts, flags.Known o) :
    (selectKeys w (vars opts)).ownerPubkeyPath = ownerPath w opts := by
  have hvar : (vars opts).ownerPubkeyPath = (lastValue "-owner-pubkey" opts).getD "" :=
    ownerPubkeyPath_setBy.foldl hopts .initial
  unfold selectKeys ownerPath
  cases hvalue : lastValue "-owner-pubkey" opts with
  | none =>
      rw [hvalue] at hvar
      simp only [hvar, Option.getD_none, ↓reduceIte]
      split <;> rfl
  | some value =>
      rw [hvalue] at hvar
      have hne := Flags.lastValue_ne_empty hopts hvalue
      simp only [hvar, Option.getD_some, if_neg hne]
      split <;> rfl

/-- Without the option both keys are at the path that is generated. -/
theorem selectKeys_server (hopts : ∀ o ∈ opts, flags.Known o)
    (h : lastValue "-server-privkey" opts = none) :
    (selectKeys w (vars opts)).serverPrivkeyPath = serverPath w opts ∧
      (selectKeys w (vars opts)).serverPubkeyPath = serverPath w opts ++ ".pub" := by
  obtain ⟨-, hpriv⟩ := vars_server hopts
  rw [h] at hpriv
  unfold selectKeys serverPath
  rw [h]
  by_cases howner : (vars opts).ownerPubkeyPath = ""
  · simp [howner, hpriv]
  · simp [howner, hpriv]

/-- With it the public key is looked for at an empty path. -/
theorem selectKeys_noPubkey (hopts : ∀ o ∈ opts, flags.Known o) {path : String}
    (h : lastValue "-server-privkey" opts = some path) :
    (selectKeys w (vars opts)).serverPubkeyPath = "" ∧
      (selectKeys w (vars opts)).files "" = none := by
  obtain ⟨hpub, hpriv⟩ := vars_server hopts
  rw [h] at hpriv
  have hne : (vars opts).serverPrivkeyPath ≠ "" := by
    rw [hpriv]
    exact append_ne_empty (by decide)
  have hpath : ∀ {a b : String}, b ≠ "" → "" ≠ a ++ b := fun hb heq => append_ne_empty hb heq.symm
  unfold selectKeys
  by_cases howner : (vars opts).ownerPubkeyPath = ""
  · -- What was generated for the owner is not at the empty path.
    simp [howner, hne, hpub, generate, hpath, w.noName]
  · simp [howner, hne, hpub, w.noName]

/-- If no option names a key, the paths hold what `ssh-keygen` made. -/
theorem Given.generated (hopts : ∀ o ∈ opts, flags.Known o)
    (himage : (lastValue "-image-name" opts).isSome)
    (howner : lastValue "-owner-pubkey" opts = none)
    (hserver : lastValue "-server-privkey" opts = none) :
    Given w opts w.ownerPair.pub w.serverPair := by
  have hownerVar : (vars opts).ownerPubkeyPath = "" := by
    have hvar := ownerPubkeyPath_setBy.foldl hopts .initial
    rw [howner] at hvar
    exact hvar
  have hserverVar : (vars opts).serverPrivkeyPath = "" := by
    have hvar := (vars_server hopts).2
    rw [hserver] at hvar
    exact hvar
  have hfiles : filesThen w opts = generate
      (generate w.files (keysPath w (vars opts) ++ "/ssh-key-vm-owner") w.ownerPair)
      (keysPath w (vars opts) ++ "/ssh-server-key-vm") w.serverPair := by
    simp [filesThen, selectKeys, hownerVar, hserverVar]
  refine ⟨himage, ?_, ?_, ?_⟩
  · rw [hfiles, ownerPath, howner]
    simp [generate, String.append_assoc]
  · rw [hfiles, serverPath, hserver]
    simp [generate]
  · rw [hfiles, serverPath, hserver]
    simp [generate]

/-! ### The file -/

theorem cat_line {files : String → Option File} {path : String} {k : PublicKey}
    (h : files path = some [k.line]) : cat files path = some k.line := by
  obtain ⟨hline, hnul⟩ := k.line_oneLine
  have hprinted : [k.line].flatMap (· ++ ['\n']) = k.line ++ ['\n'] := by simp
  unfold cat
  rw [h, Option.map_some, hprinted, Shell.substitution_line hnul hline (by decide)]

/-- The script gets to the commands. -/
theorem run_eq (hopts : ∀ o ∈ opts, flags.Known o)
    (himage : (lastValue "-image-name" opts).isSome) :
    run w (opts.flatMap Opt.args) = userData w (selectKeys w (vars opts)) := by
  have hread := Flags.read_args flags_distinct hopts Vars.initial
  unfold run
  rw [hread]
  exact if_neg (vars_newVm hopts himage)

/-- Without the option the keys that are put in are those at the chosen paths. -/
theorem run_of_generated (hopts : ∀ o ∈ opts, flags.Known o) (hgiven : Given w opts owner server)
    (h : lastValue "-server-privkey" opts = none) :
    run w (opts.flatMap Opt.args) = fill w.sed (w.inputs owner server).texts := by
  obtain ⟨hpriv, hpub⟩ := selectKeys_server (w := w) hopts h
  have howner : cat (selectKeys w (vars opts)).files (ownerPath w opts) = some owner.line :=
    cat_line hgiven.owner
  have hserver : cat (selectKeys w (vars opts)).files (serverPath w opts ++ ".pub")
      = some server.pub.line := cat_line hgiven.pubkey
  have hkey : (selectKeys w (vars opts)).files (serverPath w opts) = some server.priv :=
    hgiven.privkey
  rw [run_eq hopts hgiven.image, userData, selectKeys_owner hopts, hpriv, hpub, howner, hkey,
    hserver]
  rfl

/-- With it the script stops. -/
theorem run_of_path (hopts : ∀ o ∈ opts, flags.Known o)
    (himage : (lastValue "-image-name" opts).isSome) {path : String}
    (h : lastValue "-server-privkey" opts = some path) :
    run w (opts.flatMap Opt.args) = none := by
  obtain ⟨hpub, hnone⟩ := selectKeys_noPubkey (w := w) hopts h
  have hcat : cat (selectKeys w (vars opts)).files "" = none := by
    unfold cat
    rw [hnone]
    rfl
  rw [run_eq hopts himage, userData, hpub, hcat]
  cases cat (selectKeys w (vars opts)).files (selectKeys w (vars opts)).ownerPubkeyPath with
  | none => rfl
  | some userPubkey =>
      cases (selectKeys w (vars opts)).files (selectKeys w (vars opts)).serverPrivkeyPath with
      | none => rfl
      | some serverPrivkey => rfl

/-- **The file is the template with every text in its place if no server key is named and the
texts fit, and only then**, unless a text has `sed` run other commands. -/
theorem userData_iff (hopts : ∀ o ∈ opts, flags.Known o) (hgiven : Given w opts owner server) :
    let i := w.inputs owner server
    (lastValue "-server-privkey" opts = none ∧ Fits i →
        run w (opts.flatMap Opt.args) = some (filled i.texts)) ∧
      ((∀ p, ¬ Sed.Runs (i.texts.of p)) →
        run w (opts.flatMap Opt.args) = some (filled i.texts) →
        lastValue "-server-privkey" opts = none ∧ Fits i) := by
  intro i
  refine ⟨?_, ?_⟩
  · rintro ⟨hserver, hfits⟩
    rw [run_of_generated hopts hgiven hserver]
    exact fill_eq_filled hfits
  · intro hruns h
    cases hserver : lastValue "-server-privkey" opts with
    | none =>
        rw [run_of_generated hopts hgiven hserver] at h
        exact ⟨rfl, fits_of_fill hruns h⟩
    | some path =>
        rw [run_of_path hopts hgiven.image hserver] at h
        simp at h

/-! ### A small run -/

def toyKey (comment : String)
    (h : ("AAAA".toList ++ comment.toList).all (fun c => c != '\n' && c != Words.nul) = true) :
    PublicKey :=
  ⟨.ed25519, "AAAA".toList, some comment.toList, fun c hc => by
    simpa using List.all_eq_true.mp h c hc⟩

def toyPair : KeyPair where
  priv := ["-----BEGIN-----".toList, "b3Bl".toList]
  priv_lines := by decide
  pub := toyKey "root@vm" (by decide)

/-- The comment of this key is taken for a reference to the placeholder. -/
def World.toyOwner : PublicKey := toyKey "R&D" (by decide)

def World.toy : World where
  files path :=
    if path = "server" then some toyPair.priv
    else if path = "server.pub" then some [toyPair.pub.line]
    else if path = "owner.pub" then some [toyOwner.line]
    else none
  noName := rfl
  realpath := id
  ownerPair := toyPair
  serverPair := toyPair
  user := "alice".toList
  user_line := by decide
  hash := ⟨"salt".toList, "hash".toList, by decide⟩
  sed := fun _ _ => none

def toyOpts : List Opt := [⟨"-image-name", some "vm.qcow2"⟩]

theorem toy_fits : Fits (World.toy.inputs toyPair.pub toyPair) where
  user := by decide
  user_later := by decide
  owner := by decide
  owner_later := by decide
  privkey_later := by decide
  pubkey := by decide

theorem userData_iff_toy :
    run World.toy ["-image-name", "vm.qcow2"]
        = some (filled (World.toy.inputs toyPair.pub toyPair).texts) ∧
      lastValue "-server-privkey" toyOpts = none := by
  have hopts : ∀ o ∈ toyOpts, flags.Known o := by decide
  have hiff := userData_iff hopts (Given.generated (w := .toy) hopts (by decide) (by decide)
    (by decide))
  have hruns : ∀ p, ¬ Sed.Runs ((World.toy.inputs toyPair.pub toyPair).texts.of p) :=
    fun p => Sed.not_runs_of_clean (toy_fits.clean p)
  have hrun := hiff.1 ⟨by decide, toy_fits⟩
  exact ⟨hrun, (hiff.2 hruns hrun).1⟩

def namedServer : List Opt :=
  [⟨"-image-name", some "vm.qcow2"⟩, ⟨"-server-privkey", some "server"⟩]

def namedOwner : List Opt :=
  [⟨"-image-name", some "vm.qcow2"⟩, ⟨"-owner-pubkey", some "owner.pub"⟩]

theorem not_runs_toyOwner (p : Placeholder) :
    ¬ Sed.Runs ((World.toy.inputs World.toyOwner toyPair).texts.of p) := by
  cases p with
  | userPubkey =>
      rintro ⟨items, behind, hread, hflags⟩
      have hline : (World.toy.inputs World.toyOwner toyPair).texts.of .userPubkey
          = World.toyOwner.line := rfl
      have hend : (Sed.readReplacement false (World.toyOwner.line ++ [Sed.delimiter, 'g'])).map
          Prod.snd = some ['g'] := by decide
      rw [hline] at hread
      rw [hread, Option.map_some, Option.some.injEq] at hend
      have hbehind : behind = ['g'] := hend
      rw [hbehind] at hflags
      exact absurd hflags (by decide)
  | user => exact Sed.not_runs_of_clean (toy_fits.clean .user)
  | pwdHash => exact Sed.not_runs_of_clean (toy_fits.clean .pwdHash)
  | serverPubkey => exact Sed.not_runs_of_clean (toy_fits.clean .serverPubkey)

/-- A named server key stops the script, and a comment with a `&` is not put in as it is. -/
theorem not_filled :
    (Given .toy namedServer toyPair.pub toyPair ∧
        run .toy (namedServer.flatMap Opt.args) = none) ∧
      Given .toy namedOwner World.toyOwner toyPair ∧
        run .toy (namedOwner.flatMap Opt.args)
          ≠ some (filled (World.toy.inputs World.toyOwner toyPair).texts) := by
  have hserver : ∀ o ∈ namedServer, flags.Known o := by decide
  have howner : ∀ o ∈ namedOwner, flags.Known o := by decide
  have hgiven : Given .toy namedOwner World.toyOwner toyPair :=
    ⟨by decide, by decide +kernel, by decide +kernel, by decide +kernel⟩
  refine ⟨⟨⟨by decide, by decide +kernel, by decide +kernel, by decide +kernel⟩, ?_⟩, hgiven, ?_⟩
  · have hpath : lastValue "-server-privkey" namedServer = some "server" := by decide
    exact run_of_path hserver (by decide) hpath
  · rw [run_of_generated howner hgiven (by decide)]
    intro h
    have hclean := (fits_of_fill not_runs_toyOwner h).owner
    exact absurd hclean (by decide)

end SnpGuard.CreateNewVm
