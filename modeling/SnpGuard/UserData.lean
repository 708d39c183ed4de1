/-
The configuration that a new VM gets: the `sed` commands of `create-new-vm.sh`.

The script fills in `template-user-data` with one `sed` command for each placeholder, and puts
the private key of the SSH server behind a line of the template.  None of the texts is
escaped, and each command also edits what those before it put in.  So the file is right if no
text has a character that `sed` gives a meaning to, and none contains a placeholder that is
still to come (`fill_eq_filled_iff`); it is also right only then, if no text has `sed` run
other commands.
-/
import SnpGuard.Lib.Words
import SnpGuard.Placeholders

namespace SnpGuard.UserData

open Sed Placeholders

abbrev Line := List Char

/-- A text file, line by line. -/
abbrev File := List Line

/-! ### The template -/

inductive Placeholder where
  | user
  | pwdHash
  | userPubkey
  | serverPubkey
deriving DecidableEq

/-- What stands between the brackets, with the second one. -/
def Placeholder.name : Placeholder → List Char
  | .user => "USER>".toList
  | .pwdHash => "PWDHASH>".toList
  | .userPubkey => "USER_PUBKEY>".toList
  | .serverPubkey => "SERVER_PUBKEY>".toList

def Placeholder.pattern (p : Placeholder) : List Char := '<' :: p.name

/-- The placeholders that are replaced later. -/
def Placeholder.after : Placeholder → List Placeholder
  | .user => [.pwdHash, .userPubkey, .serverPubkey]
  | .pwdHash => [.userPubkey, .serverPubkey]
  | .userPubkey => [.serverPubkey]
  | .serverPubkey => []

/-- What stands in front of it. -/
def Placeholder.before : Placeholder → List Char
  | .user => "  - name: ".toList
  | .pwdHash => "    passwd: ".toList
  | .userPubkey => "      - ".toList
  | .serverPubkey => "  ecdsa_public: ".toList

inductive TemplateLine where
  | fixed (text : String)
  | slot (p : Placeholder)
  /-- The line behind which the private key goes. -/
  | anchor
deriving DecidableEq

def TemplateLine.line : TemplateLine → Line
  | .fixed text => text.toList
  | .slot p => p.before ++ p.pattern
  | .anchor => "  ecdsa_private: |".toList

/-- `template-user-data`. -/
def template : List TemplateLine :=
  [ .fixed "#cloud-config"
  , .fixed "hostname: sevsnpvm"
  , .fixed "fqdn: sevsnpvm.localdomain"
  , .fixed "manage_etc_hosts: false"
  , .fixed ""
  , .fixed "ssh_pwauth: true"
  , .fixed "disable_root: true"
  , .fixed ""
  , .fixed "users:"
  , .slot .user
  , .fixed "    groups: sudo"
  , .fixed "#Created via mkpasswd --method=SHA-512 --rounds=4096"
  , .slot .pwdHash
  , .fixed "#allow password login"
  , .fixed "    lock_passwd: false"
  , .fixed "    shell: /bin/bash"
  , .fixed "    ssh_authorized_keys:"
  , .slot .userPubkey
  , .fixed ""
  , .fixed "ssh_keys:"
  , .fixed "#Don't change the next line, we use it as anchor to append the server private key"
  , .fixed "#We can't use the <VAR> the private key spans multiple lines an replacing a variable with"
  , .fixed "#multiple lines is hard. If you add a key by hand, make sure that all lines of the"
  , .fixed "#key are indented with 4 whitespaces"
  , .anchor
  , .fixed ""
  , .slot .serverPubkey
  , .fixed ""
  , .fixed "ssh:"
  , .fixed "  emit_keys_to_console: false"
  , .fixed ""
  , .fixed "#After converting to VM for our tool, we only want to use the root partition"
  , .fixed "#This change does not affect the initial boot (in which the config is applied)"
  , .fixed "write_files:"
  , .fixed "  - path: /etc/fstab"
  , .fixed "    content: |"
  , .fixed "      # <file system>             <mount point>   <type>  <options>       <dump>  <pass>"
  , .fixed "      /dev/sda1   /               ext4    defaults        0       1"
  , .fixed "  - path: /etc/ssh/sshd_config.d/only_use_ecdsa.conf"
  , .fixed "    content: |"
  , .fixed "      HostKey /etc/ssh/ssh_host_ecdsa_key" ]

/-! ### What is put in -/

/-- The kinds of keys that `ssh-keygen` makes. -/
inductive KeyType where
  | dss
  | rsa
  | ecdsa256
  | ecdsa384
  | ecdsa521
  | ed25519
  | skEcdsa
  | skEd25519

def KeyType.name : KeyType → List Char
  | .dss => "ssh-dss".toList
  | .rsa => "ssh-rsa".toList
  | .ecdsa256 => "ecdsa-sha2-nistp256".toList
  | .ecdsa384 => "ecdsa-sha2-nistp384".toList
  | .ecdsa521 => "ecdsa-sha2-nistp521".toList
  | .ed25519 => "ssh-ed25519".toList
  | .skEcdsa => "sk-ecdsa-sha2-nistp256@openssh.com".toList
  | .skEd25519 => "sk-ssh-ed25519@openssh.com".toList

/-- The line of a public key.  The comment can be anything. -/
structure PublicKey where
  type : KeyType
  key : List Char
  comment : Option (List Char)
  oneLine : ∀ c ∈ key ++ comment.getD [], c ≠ '\n' ∧ c ≠ Words.nul

def PublicKey.line (k : PublicKey) : Line :=
  k.type.name ++ ' ' :: (k.key ++ (k.comment.map (' ' :: ·)).getD [])

structure KeyPair where
  priv : File
  priv_lines : ∀ l ∈ priv, '\n' ∉ l
  pub : PublicKey

/-- A character of a salt or of a hash. -/
def isCrypt (c : Char) : Bool := c.isAlphanum || c == '.' || c == '/'

/-- What `mkpasswd --method=SHA-512 --rounds=4096` prints. -/
structure CryptHash where
  salt : List Char
  hash : List Char
  chars : (salt ++ hash).all isCrypt = true

def CryptHash.text (h : CryptHash) : List Char :=
  "$6$rounds=4096$".toList ++ (h.salt ++ '$' :: h.hash)

/-! ### The commands -/

/-- `s#^#    #`. -/
def indent (l : Line) : Line := "    ".toList ++ l

/-- `/^ *ecdsa_private: |/`. -/
def isAnchor (l : Line) : Bool :=
  "ecdsa_private: |".toList.isPrefixOf (l.dropWhile (· == ' '))

/-- `/^ *ecdsa_private: |/r`. -/
def readAfter (file : File) : Edit := fun l => if isAnchor l then l :: file else [l]

/-- What takes the place of the placeholders, and the private key. -/
structure Texts where
  user : Line
  pwdHash : Line
  userPubkey : Line
  serverPrivkey : File
  serverPubkey : Line

def Texts.of (t : Texts) : Placeholder → Line
  | .user => t.user
  | .pwdHash => t.pwdHash
  | .userPubkey => t.userPubkey
  | .serverPubkey => t.serverPubkey

/-- The commands, one after the other.  `other` is what `sed` makes of a file if a text has
further commands for it. -/
def fill (other : List Char → File → Option File) (t : Texts) : Option File := do
  let lines ← substitute other Placeholder.user.pattern t.user (template.map TemplateLine.line)
  let lines ← substitute other Placeholder.pwdHash.pattern t.pwdHash lines
  let lines ← substitute other Placeholder.userPubkey.pattern t.userPubkey lines
  let lines := lines.flatMap (readAfter (t.serverPrivkey.map indent))
  substitute other Placeholder.serverPubkey.pattern t.serverPubkey lines

/-! ### What is wanted -/

def TemplateLine.filled (t : Texts) : TemplateLine → File
  | .fixed text => [text.toList]
  | .slot p => [p.before ++ t.of p]
  | .anchor => TemplateLine.anchor.line :: t.serverPrivkey.map indent

/-- The template with every text in its place. -/
def filled (t : Texts) : File := template.flatMap (TemplateLine.filled t)

/-- The texts that the script puts in. -/
structure Inputs where
  user : Line
  user_line : '\n' ∉ user
  hash : CryptHash
  owner : PublicKey
  server : KeyPair

def Inputs.texts (i : Inputs) : Texts :=
  ⟨i.user, i.hash.text, i.owner.line, i.server.priv, i.server.pub.line⟩

/-- No text has anything in it that a command would change. -/
structure Fits (i : Inputs) : Prop where
  user : Clean i.user
  user_later : ∀ p ∈ Placeholder.user.after, ¬ p.pattern <:+: i.user
  owner : Clean i.owner.line
  owner_later : ¬ Placeholder.serverPubkey.pattern <:+: i.owner.line
  privkey_later : ∀ l ∈ i.server.priv, ¬ Placeholder.serverPubkey.pattern <:+: l
  pubkey : Clean i.server.pub.line

/-! ### The template -/

theorem slot_sound (p : Placeholder) : Slot p.before p.name := by
  cases p
  all_goals exact ⟨by decide, by decide, by decide, by decide, by decide⟩

/-- No placeholder is taken for another. -/
theorem foreign_slot {p q : Placeholder} (h : q ≠ p) :
    Subst.foreign q.pattern (p.before ++ p.pattern) = true := by
  cases p
  all_goals
    cases q
    all_goals first
      | exact absurd rfl h
      | decide +kernel

theorem isAnchor_slot (p : Placeholder) (text : List Char) :
    isAnchor (p.before ++ text) = false := by
  cases p
  all_goals rfl

/-- A line without a placeholder that is not the anchor. -/
def soundLine (l : Line) : Bool :=
  !isAnchor l && l.all (· != '\n') && (l.all (· != '<') ||
    [Placeholder.user, .pwdHash, .userPubkey, .serverPubkey].all fun p =>
      Subst.foreign p.pattern l)

def TemplateLine.Sound (t : TemplateLine) : Prop :=
  ∀ text, t = .fixed text → soundLine text.toList = true

theorem sound_fixed {text : String} {l : Line} (htext : text = String.ofList l)
    (h : soundLine l = true) : (TemplateLine.fixed text).Sound := by
  intro text' heq
  rw [TemplateLine.fixed.injEq] at heq
  rw [← heq, htext, String.toList_ofList]
  exact h

theorem template_sound : ∀ t ∈ template, t.Sound := by
  unfold template
  repeat' refine List.forall_mem_cons.mpr ⟨?_, ?_⟩
  all_goals first
    | exact sound_fixed rfl (by decide +kernel)
    | simp [TemplateLine.Sound]

theorem anchor_sound (p : Placeholder) :
    Subst.foreign p.pattern TemplateLine.anchor.line = true := by
  cases p
  all_goals decide +kernel

/-! ### The commands that were read -/

variable {other : List Char → File → Option File} {i : Inputs}

theorem CryptHash.isCrypt_of_mem {h : CryptHash} {c : Char} (hc : c ∈ h.text) :
    isCrypt c = true ∨ c = '$' ∨ c = '=' := by
  have hprefix :
      "$6$rounds=4096$".toList.all (fun c => isCrypt c || c == '$' || c == '=') = true := by
    decide
  unfold text at hc
  rw [List.mem_append, List.mem_append, List.mem_cons] at hc
  rcases hc with hc | hc | rfl | hc
  · simpa [or_assoc] using List.all_eq_true.mp hprefix c hc
  · exact .inl (List.all_eq_true.mp h.chars c (List.mem_append_left _ hc))
  · exact .inr (.inl rfl)
  · exact .inl (List.all_eq_true.mp h.chars c (List.mem_append_right _ hc))

/-- A hash has no character that could matter. -/
theorem CryptHash.not_mem {h : CryptHash} {d : Char} (hd : isCrypt d = false)
    (hne : d ≠ '$' ∧ d ≠ '=') : d ∉ h.text := by
  intro hmem
  obtain hcrypt | rfl | rfl := isCrypt_of_mem hmem
  · rw [hd] at hcrypt
    simp at hcrypt
  · exact hne.1 rfl
  · exact hne.2 rfl

theorem CryptHash.clean (h : CryptHash) : Clean h.text := by
  have hnot : ∀ {d : Char}, isCrypt d = false → d ≠ '$' ∧ d ≠ '=' → ∀ c ∈ h.text, c ≠ d :=
    fun hd hne c hc heq => h.not_mem hd hne (heq ▸ hc)
  exact fun c hc => ⟨hnot (by decide) (by decide) c hc, hnot (by decide) (by decide) c hc,
    hnot (by decide) (by decide) c hc⟩

theorem CryptHash.told (h : CryptHash) : Told h.text := ⟨[], '$', _, rfl, by simp, .inr rfl⟩

theorem KeyType.clean (t : KeyType) : Clean t.name := by
  cases t
  all_goals decide

theorem KeyType.told (t : KeyType) : Told t.name := by
  cases t
  case dss => exact told_dash "ssh".toList "dss".toList (by decide)
  case rsa => exact told_dash "ssh".toList "rsa".toList (by decide)
  case ecdsa256 => exact told_dash "ecdsa".toList "sha2-nistp256".toList (by decide)
  case ecdsa384 => exact told_dash "ecdsa".toList "sha2-nistp384".toList (by decide)
  case ecdsa521 => exact told_dash "ecdsa".toList "sha2-nistp521".toList (by decide)
  case ed25519 => exact told_dash "ssh".toList "ed25519".toList (by decide)
  case skEcdsa => exact told_dash "sk".toList "ecdsa-sha2-nistp256@openssh.com".toList (by decide)
  case skEd25519 => exact told_dash "sk".toList "ssh-ed25519@openssh.com".toList (by decide)

theorem KeyType.oneLine (t : KeyType) : '\n' ∉ t.name ∧ Words.nul ∉ t.name := by
  cases t
  all_goals decide

/-- A key is one line. -/
theorem PublicKey.line_oneLine (k : PublicKey) : '\n' ∉ k.line ∧ Words.nul ∉ k.line := by
  have hrest : ∀ {c : Char}, c ≠ ' ' → c ∉ k.key ++ k.comment.getD [] →
      c ∉ ' ' :: (k.key ++ (k.comment.map (' ' :: ·)).getD []) := by
    intro c hne hc
    cases hcomment : k.comment with
    | none => simpa [hcomment, hne] using hc
    | some comment => simpa [hcomment, hne] using hc
  have hline : '\n' ∉ k.key ++ k.comment.getD [] := fun hmem => (k.oneLine _ hmem).1 rfl
  have hnul : Words.nul ∉ k.key ++ k.comment.getD [] := fun hmem => (k.oneLine _ hmem).2 rfl
  exact ⟨List.not_mem_append k.type.oneLine.1 (hrest (by decide) hline),
    List.not_mem_append k.type.oneLine.2 (hrest (by decide) hnul)⟩

/-- A text that begins with a word puts that word in. -/
theorem told_expansion {word rest : List Char} {s : Subst} (hclean : Clean word)
    (htold : Told word) (hreads : Reads (word ++ rest) s) (b : List Char) :
    Told (s.expansion b) := by
  obtain ⟨behind, hread, -⟩ := hreads
  rw [List.append_assoc, readReplacement_append hclean, Option.map_eq_some_iff] at hread
  obtain ⟨⟨items, behind'⟩, -, heq⟩ := hread
  rw [Prod.mk.injEq] at heq
  unfold Subst.expansion
  rw [← heq.1, expand_puts]
  exact told_append htold _

theorem Inputs.texts_line (i : Inputs) (p : Placeholder) : '\n' ∉ i.texts.of p := by
  cases p with
  | user => exact i.user_line
  | pwdHash => exact i.hash.not_mem (by decide) (by decide)
  | userPubkey => exact i.owner.line_oneLine.1
  | serverPubkey => exact i.server.pub.line_oneLine.1

theorem Fits.clean (h : Fits i) (p : Placeholder) : Clean (i.texts.of p) := by
  cases p with
  | user => exact h.user
  | pwdHash => exact i.hash.clean
  | userPubkey => exact h.owner
  | serverPubkey => exact h.pubkey

/-- What `sed` makes of the texts. -/
structure Reading (i : Inputs) where
  subst : Placeholder → Subst
  pattern : ∀ p, (subst p).pattern = p.pattern
  reads : ∀ p, Reads (i.texts.of p) (subst p)

namespace Reading

variable (r : Reading i)

theorem fills {p : Placeholder} (hp : p ≠ .user) : Fills (r.subst p) where
  opens := ⟨p.name, r.pattern p⟩
  told := by
    have hreads := r.reads p
    cases p with
    | user => exact absurd rfl hp
    | pwdHash =>
        have htext : i.texts.of .pwdHash = i.hash.text ++ [] := (List.append_nil _).symm
        rw [htext] at hreads
        exact told_expansion i.hash.clean i.hash.told hreads
    | userPubkey => exact told_expansion i.owner.type.clean i.owner.type.told hreads
    | serverPubkey => exact told_expansion i.server.pub.type.clean i.server.pub.type.told hreads

/-- The private key, as it is put in. -/
def keyLines (i : Inputs) : File := i.server.priv.map indent

def edit (p : Placeholder) : Edit := (r.subst p).line

/-- All commands. -/
def edits : List Edit :=
  [r.edit .user, r.edit .pwdHash, r.edit .userPubkey, readAfter (keyLines i), r.edit .serverPubkey]

/-- Those before the one that replaces a placeholder, and those behind it. -/
def earlier : Placeholder → List Edit
  | .user => []
  | .pwdHash => [r.edit .user]
  | .userPubkey => [r.edit .user, r.edit .pwdHash]
  | .serverPubkey =>
    [r.edit .user, r.edit .pwdHash, r.edit .userPubkey, readAfter (keyLines i)]

def later : Placeholder → List Edit
  | .user => [r.edit .pwdHash, r.edit .userPubkey, readAfter (keyLines i), r.edit .serverPubkey]
  | .pwdHash => [r.edit .userPubkey, readAfter (keyLines i), r.edit .serverPubkey]
  | .userPubkey => [readAfter (keyLines i), r.edit .serverPubkey]
  | .serverPubkey => []

theorem edits_eq (p : Placeholder) : r.edits = r.earlier p ++ r.edit p :: r.later p := by
  cases p
  all_goals rfl

variable {r}

theorem mem_earlier {p : Placeholder} {e : Edit} (h : e ∈ r.earlier p) :
    e = readAfter (keyLines i) ∨ ∃ q, q ≠ p ∧ e = r.edit q := by
  cases p
  all_goals
    simp only [earlier, List.mem_cons, List.not_mem_nil, or_false] at h
  case pwdHash => exact .inr ⟨.user, by decide, h⟩
  case userPubkey =>
    rcases h with h | h
    · exact .inr ⟨.user, by decide, h⟩
    · exact .inr ⟨.pwdHash, by decide, h⟩
  case serverPubkey =>
    rcases h with h | h | h | h
    · exact .inr ⟨.user, by decide, h⟩
    · exact .inr ⟨.pwdHash, by decide, h⟩
    · exact .inr ⟨.userPubkey, by decide, h⟩
    · exact .inl h

theorem after_ne {p q : Placeholder} (h : q ∈ p.after) : q ≠ p ∧ q ≠ .user := by
  cases p
  all_goals
    cases q
    all_goals first
      | exact ⟨by decide, by decide⟩
      | simp [Placeholder.after] at h

theorem mem_later {p : Placeholder} {e : Edit} :
    e ∈ r.later p → e = readAfter (keyLines i) ∨ ∃ q ∈ p.after, e = r.edit q := by
  intro h
  cases p
  all_goals
    simp only [later, List.mem_cons, List.not_mem_nil, or_false] at h
  case user =>
    rcases h with h | h | h | h
    · exact .inr ⟨.pwdHash, by decide, h⟩
    · exact .inr ⟨.userPubkey, by decide, h⟩
    · exact .inl h
    · exact .inr ⟨.serverPubkey, by decide, h⟩
  case pwdHash =>
    rcases h with h | h | h
    · exact .inr ⟨.userPubkey, by decide, h⟩
    · exact .inl h
    · exact .inr ⟨.serverPubkey, by decide, h⟩
  case userPubkey =>
    rcases h with h | h
    · exact .inl h
    · exact .inr ⟨.serverPubkey, by decide, h⟩

theorem edit_mem_later {p q : Placeholder} (h : q ∈ p.after) : r.edit q ∈ r.later p := by
  cases p
  all_goals
    cases q
    all_goals simp [Placeholder.after, later] at h ⊢

/-! ### Lines of the template -/

theorem readAfter_of_not_anchor {file : File} {l : Line} (h : isAnchor l = false) :
    readAfter file l = [l] := by
  simp [readAfter, h]

theorem keeps_readAfter (file : File) : Edit.Keeps (readAfter file) := by
  intro l hline
  by_cases h : isAnchor l = true
  · exact ⟨l, file, by simp [readAfter, h], hline, Kept.refl l⟩
  · exact ⟨l, [], by simp [readAfter, h], hline, Kept.refl l⟩

theorem keeps_later {p : Placeholder} {e : Edit} (h : e ∈ r.later p) : Edit.Keeps e := by
  obtain rfl | ⟨q, hq, rfl⟩ := mem_later h
  · exact keeps_readAfter _
  · exact (r.fills (after_ne hq).2).keeps

theorem slot_line {p : Placeholder} {text : Line} (h : '\n' ∉ text) :
    '\n' ∉ p.before ++ text := List.not_mem_append (slot_sound p).before_line h

theorem strict_later {p : Placeholder} {text : Line} (htext : '\n' ∉ text) {e : Edit}
    (h : e ∈ r.later p) : Edit.Strict e (p.before ++ text) := by
  obtain rfl | ⟨q, hq, rfl⟩ := mem_later h
  · exact fun _ _ => readAfter_of_not_anchor (isAnchor_slot p text)
  · exact (r.fills (after_ne hq).2).strict (slot_line htext)

theorem pattern_line (p : Placeholder) : '\n' ∉ p.pattern := by
  cases p
  all_goals decide

/-- A placeholder stands until it is replaced. -/
theorem edit_other {p q : Placeholder} (h : q ≠ p) :
    r.edit q (p.before ++ p.pattern) = [p.before ++ p.pattern] := by
  refine Subst.line_of_foreign (slot_line (pattern_line p)) ?_
  rw [r.pattern q]
  exact foreign_slot h

theorem edit_earlier {p : Placeholder} {e : Edit} (h : e ∈ r.earlier p) :
    e (p.before ++ p.pattern) = [p.before ++ p.pattern] := by
  obtain rfl | ⟨q, hq, rfl⟩ := mem_earlier h
  · exact readAfter_of_not_anchor (isAnchor_slot p _)
  · exact edit_other hq

theorem edit_later {p : Placeholder} {e : Edit} (h : e ∈ r.later p) :
    e (p.before ++ p.pattern) = [p.before ++ p.pattern] := by
  obtain rfl | ⟨q, hq, rfl⟩ := mem_later h
  · exact readAfter_of_not_anchor (isAnchor_slot p _)
  · exact edit_other (after_ne hq).1

variable (r)

theorem edited_slot (p : Placeholder) : edited r.edits [p.before ++ p.pattern]
    = edited (r.edit p :: r.later p) [p.before ++ p.pattern] := by
  rw [r.edits_eq p]
  exact edited_skip (fun e he => edit_earlier he) _

/-- A line without a placeholder stays. -/
theorem edited_fixed {text : String} (h : TemplateLine.fixed text ∈ template) :
    edited r.edits [text.toList] = [text.toList] := by
  have hsound := template_sound _ h text rfl
  simp only [soundLine, Bool.and_eq_true, Bool.not_eq_true', Bool.or_eq_true,
    List.all_eq_true, bne_iff_ne] at hsound
  obtain ⟨⟨hanchor, hline⟩, hopen⟩ := hsound
  have hline' : '\n' ∉ text.toList := fun hmem => hline _ hmem rfl
  have hedit : ∀ p, r.edit p text.toList = [text.toList] := by
    intro p
    rcases hopen with hopen | hforeign
    · exact Subst.line_of_absent (r.pattern p) (by decide) hline' fun hmem => hopen _ hmem rfl
    · refine Subst.line_of_foreign hline' ?_
      rw [r.pattern p]
      exact hforeign p (by cases p <;> simp)
  refine edited_of_same fun e he => ?_
  simp only [edits, List.mem_cons, List.not_mem_nil, or_false] at he
  rcases he with rfl | rfl | rfl | rfl | rfl
  · exact hedit _
  · exact hedit _
  · exact hedit _
  · exact readAfter_of_not_anchor hanchor
  · exact hedit _

/-- Behind the anchor comes the private key, which the last command edits, too. -/
theorem edited_anchor : edited r.edits [TemplateLine.anchor.line]
    = TemplateLine.anchor.line :: (keyLines i).flatMap (r.edit .serverPubkey) := by
  have hline : '\n' ∉ TemplateLine.anchor.line := by decide
  have hedit : ∀ p, r.edit p TemplateLine.anchor.line = [TemplateLine.anchor.line] := by
    intro p
    refine Subst.line_of_foreign hline ?_
    rw [r.pattern p]
    exact anchor_sound p
  have hanchor : isAnchor TemplateLine.anchor.line = true := by decide
  have hread : readAfter (keyLines i) TemplateLine.anchor.line
      = TemplateLine.anchor.line :: keyLines i := by simp [readAfter, hanchor]
  have hsplit : r.edits = [r.edit .user, r.edit .pwdHash, r.edit .userPubkey] ++
      [readAfter (keyLines i), r.edit .serverPubkey] := rfl
  rw [hsplit, edited_skip, edited_cons, hread]
  · show (TemplateLine.anchor.line :: keyLines i).flatMap (r.edit .serverPubkey) = _
    rw [List.flatMap_cons, hedit, List.singleton_append]
  · intro e he
    simp only [List.mem_cons, List.not_mem_nil, or_false] at he
    rcases he with rfl | rfl | rfl
    · exact hedit _
    · exact hedit _
    · exact hedit _

/-! ### Texts in their places -/

/-- A text is in its place only if it was clean and no later command found anything. -/
theorem slot_kept (p : Placeholder) {more more' : File}
    (h : edited r.edits [p.before ++ p.pattern] ++ more = (p.before ++ i.texts.of p) :: more') :
    Clean (i.texts.of p) ∧
      ∀ e ∈ r.later p, e (p.before ++ i.texts.of p) = [p.before ++ i.texts.of p] := by
  have hline := i.texts_line p
  obtain ⟨more₁, hprinted⟩ := (r.subst p).line_head (p.before ++ p.pattern)
  have hhead : '\n' ∉ ((r.subst p).replace 0 0 (p.before ++ p.pattern)).takeWhile (· != '\n') := by
    intro hmem
    simpa using List.mem_takeWhile_imp hmem
  obtain ⟨l, more₂, hedited, -⟩ := edited_keeps (fun e he => r.keeps_later he) hhead more₁
  rw [← hprinted] at hedited
  rw [r.edited_slot, edited_cons] at h
  rw [edit, hedited, List.cons_append, List.cons.injEq] at h
  rw [h.1] at hedited
  have hwhole : edited (r.edit p :: r.later p) [p.before ++ p.pattern]
      = (p.before ++ i.texts.of p) :: more₂ := by
    rw [edited_cons]
    exact hedited
  exact clean_of_slot (slot_sound p) (r.pattern p) (r.reads p) hline
    (fun e he => r.keeps_later he) (fun e he => r.strict_later hline he)
    (fun e he => r.edit_later he) hwhole

/-- No later command finds anything in the texts. -/
structure Undisturbed (r : Reading i) : Prop where
  clean : ∀ p, Clean (i.texts.of p)
  later : ∀ p, ∀ e ∈ r.later p, e (p.before ++ i.texts.of p) = [p.before ++ i.texts.of p]
  privkey : ∀ l ∈ keyLines i, r.edit .serverPubkey l = [l]

theorem keyLines_line {l : Line} (h : l ∈ keyLines i) : '\n' ∉ l := by
  obtain ⟨l, hl, rfl⟩ := List.mem_map.mp h
  exact List.not_mem_append (by decide) (i.server.priv_lines l hl)

theorem edited_slot_of {p : Placeholder} (hclean : Clean (i.texts.of p))
    (hlater : ∀ e ∈ r.later p, e (p.before ++ i.texts.of p) = [p.before ++ i.texts.of p]) :
    edited r.edits [p.before ++ p.pattern] = [p.before ++ i.texts.of p] := by
  have hprinted : r.edit p (p.before ++ p.pattern) = [p.before ++ i.texts.of p] :=
    line_slot (slot_sound p) (r.pattern p) hclean (r.reads p) (i.texts_line p)
  rw [r.edited_slot, edited_cons, hprinted]
  exact edited_of_same hlater

theorem privkey_kept {more more' : File} (h : edited r.edits [TemplateLine.anchor.line] ++ more
    = TemplateLine.anchor.filled i.texts ++ more') :
    ∀ l ∈ keyLines i, r.edit .serverPubkey l = [l] := by
  rw [r.edited_anchor] at h
  exact lines_of_kept (r.fills (by decide)).keeps
    (fun l hl => ⟨keyLines_line hl, (r.fills (by decide)).strict (keyLines_line hl)⟩)
    (List.cons.inj h).2

theorem edited_anchor_of (h : ∀ l ∈ keyLines i, r.edit .serverPubkey l = [l]) :
    edited r.edits [TemplateLine.anchor.line] = TemplateLine.anchor.filled i.texts := by
  have hsame : (keyLines i).flatMap (r.edit .serverPubkey) = keyLines i := by
    have hcongr := List.flatMap_congr h
    rw [List.flatMap_singleton'] at hcongr
    exact hcongr
  rw [r.edited_anchor, hsame]
  rfl

/-- What comes of a line of the template is what is wanted, if it begins like that. -/
theorem line_kept {t : TemplateLine} (ht : t ∈ template) {more more' : File}
    (h : edited r.edits [t.line] ++ more = t.filled i.texts ++ more') :
    edited r.edits [t.line] = t.filled i.texts := by
  cases t with
  | fixed text => exact r.edited_fixed ht
  | slot p =>
      obtain ⟨hclean, hlater⟩ := r.slot_kept p h
      exact r.edited_slot_of hclean hlater
  | anchor => exact r.edited_anchor_of (r.privkey_kept h)

/-- **The file is right exactly if every text comes through.** -/
theorem edited_eq_filled_iff :
    edited r.edits (template.map TemplateLine.line) = filled i.texts ↔ r.Undisturbed := by
  have hslot : ∀ p, TemplateLine.slot p ∈ template := by
    intro p
    cases p
    all_goals simp [template]
  rw [edited_eq_flatMap, List.flatMap_map, filled, flatMap_eq_iff fun t ht => r.line_kept ht]
  refine ⟨?_, ?_⟩
  · intro h
    have hkept : ∀ p, Clean (i.texts.of p) ∧
        ∀ e ∈ r.later p, e (p.before ++ i.texts.of p) = [p.before ++ i.texts.of p] := by
      intro p
      have hline : edited r.edits [p.before ++ p.pattern] ++ [] = [p.before ++ i.texts.of p] := by
        rw [List.append_nil]
        exact h (.slot p) (hslot p)
      exact r.slot_kept p hline
    have hanchor : edited r.edits [TemplateLine.anchor.line] ++ []
        = TemplateLine.anchor.filled i.texts ++ [] := by
      rw [h .anchor (by simp [template])]
    exact ⟨fun p => (hkept p).1, fun p => (hkept p).2, r.privkey_kept hanchor⟩
  · intro h t ht
    cases t with
    | fixed text => exact r.edited_fixed ht
    | slot p => exact r.edited_slot_of (h.clean p) (h.later p)
    | anchor => exact r.edited_anchor_of h.privkey

/-- Clean texts are disturbed by the placeholders in them only. -/
theorem edit_eq_iff (hclean : ∀ p, Clean (i.texts.of p)) {p : Placeholder} (hp : p ≠ .user)
    {l : Line} (hline : '\n' ∉ l) : r.edit p l = [l] ↔ ¬ p.pattern <:+: l := by
  have heq := eq_clean_of_reads (hclean p) (r.reads p)
  have hflags : (r.subst p).flags = Subst.always := by
    rw [heq]
    rfl
  have hiff := (r.fills hp).line_eq_iff hflags hline
  rwa [r.pattern p] at hiff

/-- Nothing has a placeholder in it that comes later. -/
theorem slot_eq_iff (hclean : ∀ p, Clean (i.texts.of p)) {p q : Placeholder} (hq : q ≠ .user) :
    r.edit q (p.before ++ i.texts.of p) = [p.before ++ i.texts.of p] ↔
      ¬ q.pattern <:+: i.texts.of p := by
  rw [r.edit_eq_iff hclean hq (slot_line (i.texts_line p))]
  exact not_congr (infix_behind (slot_sound p).before_open)

theorem privkey_eq_iff (hclean : ∀ p, Clean (i.texts.of p)) :
    (∀ l ∈ keyLines i, r.edit .serverPubkey l = [l]) ↔
      ∀ l ∈ i.server.priv, ¬ Placeholder.serverPubkey.pattern <:+: l := by
  rw [keyLines, List.forall_mem_map]
  refine forall₂_congr fun l hl => ?_
  rw [r.edit_eq_iff hclean (by decide) (keyLines_line (List.mem_map_of_mem hl))]
  exact not_congr (infix_behind (by decide))

/-- **The texts come through if they fit.** -/
theorem undisturbed_iff : r.Undisturbed ↔ Fits i := by
  refine ⟨?_, ?_⟩
  · intro h
    have hlater : ∀ {p q : Placeholder}, q ∈ p.after → ¬ q.pattern <:+: i.texts.of p :=
      fun hq => (r.slot_eq_iff h.clean (after_ne hq).2).mp (h.later _ _ (edit_mem_later hq))
    exact ⟨h.clean .user, fun q hq => hlater hq, h.clean .userPubkey,
      hlater (p := .userPubkey) (by decide), (r.privkey_eq_iff h.clean).mp h.privkey,
      h.clean .serverPubkey⟩
  · intro h
    have hclean := h.clean
    refine ⟨hclean, ?_, (r.privkey_eq_iff hclean).mpr h.privkey_later⟩
    intro p e he
    obtain rfl | ⟨q, hq, rfl⟩ := mem_later he
    · exact readAfter_of_not_anchor (isAnchor_slot p _)
    · refine (r.slot_eq_iff hclean (after_ne hq).2).mpr ?_
      cases p with
      | user => exact h.user_later q hq
      | pwdHash =>
          intro hwithin
          exact i.hash.not_mem (by decide) (by decide) (hwithin.subset List.mem_cons_self)
      | userPubkey =>
          rw [Placeholder.after, List.mem_singleton] at hq
          rw [hq]
          exact h.owner_later
      | serverPubkey => simp [Placeholder.after] at hq

end Reading

/-! ### The file -/

/-- A file is what the commands that were read make of the template. -/
theorem reading_of_fill {out : File} (hruns : ∀ p, ¬ Runs (i.texts.of p))
    (h : fill other i.texts = some out) :
    ∃ r : Reading i, out = edited r.edits (template.map TemplateLine.line) := by
  simp only [fill, Option.bind_eq_bind, Option.bind_eq_some_iff] at h
  obtain ⟨l₁, h₁, l₂, h₂, l₃, h₃, h₄⟩ := h
  obtain ⟨s₁, hp₁, hr₁, rfl⟩ := reads_of_substitute (hruns .user) h₁
  obtain ⟨s₂, hp₂, hr₂, rfl⟩ := reads_of_substitute (hruns .pwdHash) h₂
  obtain ⟨s₃, hp₃, hr₃, rfl⟩ := reads_of_substitute (hruns .userPubkey) h₃
  obtain ⟨s₄, hp₄, hr₄, rfl⟩ := reads_of_substitute (hruns .serverPubkey) h₄
  let subst : Placeholder → Subst
    | .user => s₁
    | .pwdHash => s₂
    | .userPubkey => s₃
    | .serverPubkey => s₄
  refine ⟨⟨subst, ?_, ?_⟩, rfl⟩
  · intro p
    cases p <;> assumption
  · intro p
    cases p <;> assumption

/-- Clean texts are put in. -/
theorem fill_of_clean (h : ∀ p, Clean (i.texts.of p)) :
    ∃ r : Reading i,
      fill other i.texts = some (edited r.edits (template.map TemplateLine.line)) := by
  let r : Reading i :=
    ⟨fun p => Subst.clean p.pattern (i.texts.of p), fun _ => rfl,
      fun p => ⟨['g'], readReplacement_clean (h p), rfl⟩⟩
  have hput : ∀ p lines, substitute other p.pattern (i.texts.of p) lines
      = some (lines.flatMap (r.edit p)) := fun p lines => substitute_clean (h p)
  refine ⟨r, ?_⟩
  unfold fill
  have huser : i.texts.user = i.texts.of .user := rfl
  have hpwdHash : i.texts.pwdHash = i.texts.of .pwdHash := rfl
  have huserPubkey : i.texts.userPubkey = i.texts.of .userPubkey := rfl
  have hserverPubkey : i.texts.serverPubkey = i.texts.of .serverPubkey := rfl
  rw [huser, hpwdHash, huserPubkey, hserverPubkey]
  simp only [hput, Option.bind_eq_bind, Option.bind_some]
  generalize template.map TemplateLine.line = lines
  rfl

/-- **When the file is right.**  It is if the texts fit, and only then, unless one of them has
`sed` run other commands. -/
theorem fill_eq_filled (hfits : Fits i) : fill other i.texts = some (filled i.texts) := by
  obtain ⟨r, hfill⟩ : ∃ r : Reading i,
      fill other i.texts = some (edited r.edits (template.map TemplateLine.line)) :=
    fill_of_clean hfits.clean
  rw [hfill, r.edited_eq_filled_iff.mpr (r.undisturbed_iff.mpr hfits)]

theorem fits_of_fill (hruns : ∀ p, ¬ Runs (i.texts.of p))
    (h : fill other i.texts = some (filled i.texts)) : Fits i := by
  obtain ⟨r, heq⟩ := reading_of_fill hruns h
  exact r.undisturbed_iff.mp (r.edited_eq_filled_iff.mp heq.symm)

end SnpGuard.UserData
