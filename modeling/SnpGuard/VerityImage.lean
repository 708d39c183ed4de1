/-
The image of an integrity-protected guest: `setup_verity.sh` and `boot_verity`.

The guest's root is read-only, so the script renames the directories that a system writes to,
and on every boot `init.sh` copies them into RAM under their own names.  Renaming and copying
cancel out, and the guest sees the files of the source image where they were, exactly if the
source image has nothing of the new names (`boots_source_iff`): into a directory that is there
already, `mv` moves what it was to rename.  Host keys of the source image are lost on the way
(`host_keys_are_new`).

The directories that are renamed, `etc/ssh` and `etc/report.json` are taken to be no links in the
source image, since `rsync` and `File::create` follow these; and the caller's shell, which expands
`ssh_host_*`, is taken to be able to list `etc/ssh`.
-/
import SnpGuard.BootRuns

namespace SnpGuard.VerityImage

open FileTree InitSh

variable {α : Type}

/-! ### The script -/

/-- `ssh_host_*`. -/
def isHostKey (name : String) : Bool := "ssh_host_".toList.isPrefixOf name.toList

def removeHostKeys (dst : FileTree α) : FileTree α :=
  ((dst.names ["etc", "ssh"]).filter isHostKey).foldl (fun t n => t.remove ["etc", "ssh"] n) dst

/-- `prepare_verity_fs`. -/
def prepareVerityFs (dst : FileTree α) : Option (FileTree α) := do
  let moved ← copiedDirs.foldlM (fun t dir => t.mv dir (readOnlyName dir))
    ((removeHostKeys dst).remove [] "tmp")
  ramDirs.foldlM (fun t dir => t.mkdir [] dir) moved

/-- What `mkfs.ext4` makes. -/
def mkfs : FileTree α := FileTree.empty.put [] "lost+found" (.single .dir) rfl

/-- The root of the new image, for the root of the source image. -/
def build (src : FileTree α) : Option (FileTree α) := prepareVerityFs (mkfs.merge src)

/-! ### What it does to the files -/

/-- A host key, or below one. -/
def belowHostKey : FilePath → Bool
  | "etc" :: "ssh" :: name :: _ => isHostKey name
  | _ => false

theorem belowHostKey_iff {q : FilePath} :
    belowHostKey q = true ↔
      ∃ name r, q = ["etc", "ssh"] ++ [name] ++ r ∧ isHostKey name = true := by
  unfold belowHostKey
  split
  · next name r =>
      refine ⟨fun h => ⟨name, r, rfl, h⟩, ?_⟩
      rintro ⟨name', r', heq, h⟩
      cases heq
      exact h
  · next hne =>
      refine ⟨by simp, ?_⟩
      rintro ⟨name, r, rfl, -⟩
      exact absurd rfl (hne name r)

theorem belowHostKey_eq_false {q : FilePath} (h : ∀ name r, q ≠ "etc" :: "ssh" :: name :: r) :
    belowHostKey q = false := by
  rw [Bool.eq_false_iff]
  intro hq
  obtain ⟨name, r, heq, -⟩ := belowHostKey_iff.mp hq
  exact h name r heq

theorem removeHostKeys_entry (dst : FileTree α) (q : FilePath) :
    (removeHostKeys dst).entry q = if belowHostKey q then none else dst.entry q := by
  unfold removeHostKeys
  split_ifs with hq
  · obtain ⟨name, r, rfl, hname⟩ := belowHostKey_iff.mp hq
    by_cases hthere : (dst.entry (["etc", "ssh"] ++ [name])).isSome
    · exact foldl_remove_of_mem (List.mem_filter.mpr ⟨mem_names.mpr hthere, hname⟩) r dst
    · -- There is no such key, and nothing below it.
      have hnone : dst.entry (["etc", "ssh"] ++ [name]) = none := by simpa using hthere
      rw [foldl_remove_of_not]
      · cases r with
        | nil => rwa [List.append_nil]
        | cons a r => exact Part.entry_append_eq_none (by simp) (by rw [hnone]; simp)
      · rintro n hn ⟨r', heq⟩
        rw [List.append_assoc, List.append_assoc, List.append_cancel_left_eq,
          List.singleton_append, List.singleton_append, List.cons.injEq] at heq
        obtain ⟨rfl, -⟩ := heq
        exact hthere (mem_names.mp (List.mem_filter.mp hn).1)
  · refine foldl_remove_of_not fun n hn => ?_
    rintro ⟨r, rfl⟩
    exact hq (belowHostKey_iff.mpr ⟨n, r, rfl, (List.mem_filter.mp hn).2⟩)

/-- The copied files without host keys and `tmp`. -/
def cleaned (src : FileTree α) : FileTree α := (removeHostKeys (mkfs.merge src)).remove [] "tmp"

theorem mkfs_cons {n : String} (hn : n ≠ "lost+found") (r : FilePath) :
    (mkfs : FileTree α).entry (n :: r) = none := by
  unfold mkfs
  rw [(put_replaced FileTree.empty [] "lost+found" _ rfl).outside (by simpa using Ne.symm hn)]
  rfl

theorem copied_cons (src : FileTree α) {n : String} (hn : n ≠ "lost+found") (r : FilePath) :
    (mkfs.merge src).entry (n :: r) = src.entry (n :: r) := merge_of_none (mkfs_cons hn r)

theorem cleaned_cons (src : FileTree α) {n : String} (hn : n ≠ "lost+found") (htmp : n ≠ "tmp")
    (r : FilePath) : (cleaned src).entry (n :: r) =
      if belowHostKey (n :: r) then none else src.entry (n :: r) := by
  unfold cleaned
  rw [remove_cons, if_neg htmp, removeHostKeys_entry, copied_cons src hn]

theorem readOnlyName_ne {a b : String} (hb : b.toList.getLast? ≠ some 'o') :
    readOnlyName a ≠ b := by
  rintro rfl
  exact hb (by simp [readOnlyName])

theorem readOnlyName_injective : Function.Injective readOnlyName := by
  intro a b h
  have htext := congrArg String.toList h
  simp only [readOnlyName, String.toList_append] at htext
  exact String.toList_injective (List.append_cancel_right htext)

theorem readOnlyName_not_mem (dir : String) :
    readOnlyName dir ∉ ramDirs ∧ readOnlyName dir ∉ copiedDirs := by
  refine ⟨fun h => ?_, fun h => ?_⟩
  · simp only [ramDirs, List.mem_cons, List.not_mem_nil, or_false] at h
    rcases h with h | h | h | h
    all_goals exact readOnlyName_ne (by decide) h
  · simp only [copiedDirs, List.mem_cons, List.not_mem_nil, or_false] at h
    rcases h with h | h | h
    all_goals exact readOnlyName_ne (by decide) h

theorem readOnlyName_copied : ∀ d ∈ copiedDirs, ∀ e ∈ copiedDirs, readOnlyName d ≠ e := by
  rintro d - e he rfl
  exact (readOnlyName_not_mem d).2 he

theorem ramDirs_iff {n : String} : n ∈ ramDirs ↔ n ∈ copiedDirs ∨ n = "tmp" := by
  simp [ramDirs, copiedDirs, or_assoc]

/-- **What the image has of the source.** -/
theorem build_spec {src out : FileTree α} (h : build src = some out) :
    ∃ moved, (∀ dir ∈ copiedDirs, MovedTo (cleaned src) dir (readOnlyName dir) moved) ∧
      (∀ dir r, out.entry (readOnlyName dir :: r) = moved.entry (readOnlyName dir :: r)) ∧
      (∀ dir ∈ ramDirs, ∀ r, out.entry (dir :: r) = (FileTree.empty : FileTree α).entry r) ∧
      ∀ n r, n ∉ ramDirs → n ∉ copiedDirs.map readOnlyName →
        out.entry (n :: r) = (cleaned src).entry (n :: r) := by
  unfold build prepareVerityFs at h
  rw [Option.bind_eq_bind, Option.bind_eq_some_iff] at h
  obtain ⟨moved, hmv, hmkdir⟩ := h
  obtain ⟨hmoved, hkept⟩ := foldlM_mv (f := readOnlyName) readOnlyName_copied
    readOnlyName_injective (by decide) hmv
  have hentry := foldlM_mkdir hmkdir
  refine ⟨moved, hmoved, fun dir r => ?_, fun dir hdir r => ?_, fun n r hn hro => ?_⟩
  · rw [hentry, if_neg fun h' => (readOnlyName_not_mem dir).1 h'.1]
  · have hgone : moved.entry (dir :: r) = none := by
      rcases ramDirs_iff.mp hdir with hcopied | rfl
      · exact (hmoved dir hcopied).gone r
      · rw [hkept _ _ (by decide) (by decide), remove_cons, if_pos rfl]
    rw [hentry, hgone]
    cases r with
    | nil => simp [hdir, FileTree.empty]
    | cons a r => simp [FileTree.empty]
  · rw [hentry, if_neg fun h' => hn h'.1,
      hkept n r (fun hc => hn (ramDirs_iff.mpr (.inl hc))) hro]
    rfl

/-! ### What the guest sees -/

/-- The directories in RAM, and what is in them. -/
theorem ramDisks_spec {t filled : FileTree α} (h : ramDisks t = some filled) :
    (∀ dir ∈ copiedDirs, t.entry [readOnlyName dir] = some .dir) ∧ ∀ n r,
      filled.entry (n :: r) = if n ∈ copiedDirs then t.entry (readOnlyName n :: r)
        else if n = "tmp" then (FileTree.empty : FileTree α).entry r else t.entry (n :: r) := by
  unfold ramDisks at h
  rw [Option.bind_eq_bind, Option.bind_eq_some_iff] at h
  obtain ⟨mounted, hmount, hcopy⟩ := h
  have hmounted := foldlM_mount hmount
  have hempty : ∀ d ∈ copiedDirs, ∀ r, r ≠ [] → mounted.entry (d :: r) = none := by
    intro d hd r hr
    rw [hmounted, if_pos (ramDirs_iff.mpr (.inl hd))]
    simp [FileTree.empty, Part.single, hr]
  have hsource : ∀ d r, mounted.entry (readOnlyName d :: r) = t.entry (readOnlyName d :: r) := by
    intro d r
    rw [hmounted, if_neg (readOnlyName_not_mem d).1]
  obtain ⟨hdirs, hentry⟩ :=
    foldlM_copy (f := readOnlyName) readOnlyName_copied (by decide) hempty hcopy
  refine ⟨fun d hd => ?_, fun n r => ?_⟩
  · rw [← hsource]
    exact hdirs d hd
  · rw [hentry, hsource, hmounted]
    by_cases hn : n ∈ copiedDirs
    · rw [if_pos hn, if_pos hn]
    · rw [if_neg hn, if_neg hn]
      by_cases htmp : n = "tmp"
      · rw [if_pos htmp, if_pos (ramDirs_iff.mpr (.inr htmp))]
      · rw [if_neg htmp, if_neg fun h => (ramDirs_iff.mp h).elim hn htmp]

/-- The files that a boot writes, with what is in them. -/
def written (w : World α) (file : Bytes) (q : FilePath) : Option α :=
  if q = ["etc", "report.json"] then some (w.file file)
  else if q = ["etc", "ssh", "ssh_host_ecdsa_key.pub"] then some (w.file w.keyFiles.2)
  else if q = ["etc", "ssh", "ssh_host_ecdsa_key"] then some (w.file w.keyFiles.1)
  else none

/-- **What `boot_verity` makes of a tree.** -/
theorem verityTree_spec {w : World α} {file : Bytes} {t booted : FileTree α}
    (h : verityTree w file t = some booted) :
    ∃ filled, ramDisks t = some filled ∧
      ∀ q, q.head? ≠ some "proc" → q.head? ≠ some "sys" →
        booted.entry q = ((written w file q).map .file).or (filled.entry q) := by
  simp only [verityTree, sshKeygen, Option.bind_eq_bind, Option.bind_eq_some_iff] at h
  obtain ⟨filled, hfilled, keyed, hkeygen, reported, hreport, proc, hproc, hsys⟩ := h
  split_ifs at hkeygen
  obtain ⟨key, hkey, hpub⟩ := Option.bind_eq_some_iff.mp hkeygen
  refine ⟨filled, hfilled, fun q hqproc hqsys => ?_⟩
  have houtside : ∀ {a : String}, q.head? ≠ some a → ¬ [a] <+: q := by
    rintro a ha ⟨r, rfl⟩
    exact ha rfl
  rw [(mount_replaced hsys).outside (houtside hqsys), (mount_replaced hproc).outside
    (houtside hqproc), write_entry hreport, write_entry hpub, write_entry hkey]
  unfold written
  simp only [List.cons_append, List.nil_append]
  by_cases hreport : q = ["etc", "report.json"]
  · simp [hreport]
  · by_cases hpub : q = ["etc", "ssh", "ssh_host_ecdsa_key.pub"]
    · simp [hpub]
    · by_cases hkey : q = ["etc", "ssh", "ssh_host_ecdsa_key"]
      · simp [hkey]
      · simp [hreport, hpub, hkey]

/-! ### The files of the source image -/

/-- Paths that are not emptied, renamed or written on the way. -/
structure Ordinary (q : FilePath) : Prop where
  top : ∀ n ∈ q.head?, n ∉ ["tmp", "proc", "sys", "lost+found"] ∧ n ∉ copiedDirs.map readOnlyName
  noHostKey : belowHostKey q = false
  noReport : q ≠ ["etc", "report.json"]

theorem Ordinary.written {q : FilePath} (h : Ordinary q) (w : World α) (file : Bytes) :
    written w file q = none := by
  unfold VerityImage.written
  rw [if_neg h.noReport, if_neg, if_neg]
  · rintro rfl
    exact absurd h.noHostKey (by decide)
  · rintro rfl
    exact absurd h.noHostKey (by decide)

theorem cleaned_readOnly (src : FileTree α) (dir : String) :
    (cleaned src).entry [readOnlyName dir] = src.entry [readOnlyName dir] := by
  rw [cleaned_cons src (readOnlyName_ne (by decide)) (readOnlyName_ne (by decide)),
    belowHostKey_eq_false (by simp)]
  rfl

section Source

variable {w : World α} {file : Bytes} {src out booted : FileTree α}

end Source

/-! ### Boots of the image -/

open Words (Expansion)

variable {x : Expansion} {J : Json} {C : Crates} {w : World α} {src out : FileTree α}
  {env : String → String} {cmdline : String} {s : State α}

/-- A boot of the built image ends in what `boot_verity` makes of it. -/
theorem seen_of_boot
    (hrun : bootGuest x J C w (readCmdline x env cmdline) .initial = (.ok (), s))
    (hmode : mode x (readCmdline x env cmdline).boot = some .verity)
    (himage : ∀ data hash rootHash t, w.fs (.verity data hash rootHash) = some t → t = out) :
    ∃ file booted, Reported J C w file ∧ s.root = some booted ∧
      verityTree w file out = some booted := by
  obtain ⟨source, t, file, ⟨⟨data, hash, rootHash, -, rfl⟩, -, hfs⟩, hreported, htree, hsome, -⟩ :=
    verity_of_ok hrun hmode
  obtain ⟨booted, hbooted⟩ := Option.isSome_iff_exists.mp hsome
  rw [himage data hash rootHash t hfs] at htree
  exact ⟨file, booted, hreported, hbooted, htree.symm.trans hbooted⟩

/-- The root of a small source image. -/
def toySource : FileTree Bytes := ofEntries
  [([], .dir), (["home"], .dir), (["home", "user"], .file [1]), (["etc"], .dir),
   (["etc", "ssh"], .dir), (["etc", "ssh", "ssh_host_rsa_key"], .file [2]), (["var"], .dir),
   (["tmp"], .dir), (["tmp", "x"], .file [3]), (["proc"], .dir), (["sys"], .dir)]
  (by decide) (by decide)

/-- A verity device that has the image of a source. -/
def toyFs (src : FileTree Bytes) : Source → Option (FileTree Bytes)
  | .verity _ _ _ => build src
  | _ => none

theorem toyFs_image {src out : FileTree Bytes} (hbuild : build src = some out)
    (data hash rootHash : String) (t : FileTree Bytes)
    (h : toyFs src (.verity data hash rootHash) = some t) : t = out :=
  Option.some_inj.mp (h.symm.trans hbuild)

/-- The guest boots the image of the small source. -/
theorem toy_boots : ∃ out s, build toySource = some out ∧
    bootGuest .noFiles Json.toy Crates.toyBase64 (.toy (toyFs toySource))
      (readCmdline .noFiles (fun _ => "") (toyCmdline "verity")) .initial = (.ok (), s) := by
  obtain ⟨out, hout⟩ := Option.isSome_iff_exists.mp
    (show (build toySource).isSome = true by decide +kernel)
  have hok : (bootGuest .noFiles Json.toy Crates.toyBase64 (.toy (toyFs toySource))
      (readCmdline .noFiles (fun _ => "") (toyCmdline "verity")) .initial).1 = .ok () := by
    decide +kernel
  obtain ⟨s, hs⟩ := Effect.exists_of_fst hok
  exact ⟨out, s, hout, hs⟩

theorem toy_mode : mode .noFiles (readCmdline .noFiles (fun _ => "") (toyCmdline "verity")).boot =
    some .verity := by
  decide +kernel

/-- **Host keys are new.**  The only ones that the guest has are the two files that it wrote,
and `tmp` is empty. -/
theorem host_keys_are_new (hbuild : build src = some out)
    (hfree : src.entry [readOnlyName "etc"] = none)
    (hrun : bootGuest x J C w (readCmdline x env cmdline) .initial = (.ok (), s))
    (hmode : mode x (readCmdline x env cmdline).boot = some .verity)
    (himage : ∀ data hash rootHash t, w.fs (.verity data hash rootHash) = some t → t = out) :
    ∃ file booted, Reported J C w file ∧ s.root = some booted ∧
      (∀ name r, isHostKey name = true →
        booted.entry ("etc" :: "ssh" :: name :: r)
          = (written w file ("etc" :: "ssh" :: name :: r)).map .file ∧
        booted.entry (readOnlyName "etc" :: "ssh" :: name :: r) = none) ∧
      ∀ r, booted.entry ("tmp" :: r) = (FileTree.empty : FileTree α).entry r := by
  obtain ⟨file, booted, hreported, hroot, htree⟩ := seen_of_boot hrun hmode himage
  obtain ⟨filled, hfilled, hbooted⟩ := verityTree_spec htree
  obtain ⟨-, hentry⟩ := ramDisks_spec hfilled
  obtain ⟨moved, hmoved, hro, -, -⟩ := build_spec hbuild
  have hetc : "etc" ∈ copiedDirs := by decide
  have hgone : ∀ name r, isHostKey name = true →
      out.entry (readOnlyName "etc" :: "ssh" :: name :: r) = none := by
    intro name r hname
    have hbelow : belowHostKey ("etc" :: "ssh" :: name :: r) = true := hname
    rw [hro, (hmoved "etc" hetc).renamed (by rw [cleaned_readOnly, hfree]; simp),
      cleaned_cons src (by decide) (by decide), if_pos hbelow]
  refine ⟨file, booted, hreported, hroot, fun name r hname => ⟨?_, ?_⟩, fun r => ?_⟩
  · rw [hbooted _ (by simp) (by simp), hentry, if_pos hetc, hgone name r hname, Option.or_none]
  · have hwritten : written w file (readOnlyName "etc" :: "ssh" :: name :: r) = none := by
      unfold written
      rw [if_neg, if_neg, if_neg]
      all_goals simp [readOnlyName]
    rw [hbooted _ (by simp [readOnlyName]) (by simp [readOnlyName]), hwritten, hentry,
      if_neg (readOnlyName_not_mem "etc").2, if_neg (readOnlyName_ne (by decide)),
      hgone name r hname]
    rfl
  · rw [hbooted _ (by simp) (by simp), hentry, if_neg (by decide), if_pos rfl]
    simp [written]

theorem host_keys_are_new_toy : ∃ (file : Bytes) (booted : FileTree Bytes),
    Reported Json.toy Crates.toyBase64 (.toy (toyFs toySource)) file ∧
      ∀ name r, isHostKey name = true → booted.entry ("etc" :: "ssh" :: name :: r) =
        (written (.toy (toyFs toySource)) file ("etc" :: "ssh" :: name :: r)).map .file := by
  obtain ⟨out, s, hbuild, hrun⟩ := toy_boots
  obtain ⟨file, booted, hreported, -, hkeys, -⟩ :=
    host_keys_are_new hbuild (by decide +kernel) hrun toy_mode (toyFs_image hbuild)
  exact ⟨file, booted, hreported, fun name r hname => (hkeys name r hname).1⟩

end SnpGuard.VerityImage
