/-
The config file from its template: `create-vm-config.sh`.

The script copies a template and has `sed` put six values in, one after the other.  Each
time the line to change is found by the name of its key, wherever on a line that name
stands.  A value that contains the name of a key whose turn is still to come is such a line,
too, and is lost (`written_iff`).
-/
import Mathlib.Data.List.Infix
import SnpGuard.Lib.ArgLoop
import SnpGuard.Lib.Sed
import SnpGuard.Lib.Text

namespace SnpGuard.CreateVmConfig

open ArgLoop

/-! ### The script -/

structure Options where
  ovmfPath : String
  kernelPath : String
  initrdPath : String
  outPath : String
  kernelCmdline : String
  templatePath : String
  cpus : String
  policy : String

/-- The values before the arguments are read. -/
def Options.initial : Options where
  ovmfPath := ""
  kernelPath := ""
  initrdPath := ""
  outPath := "./build/vm-config.toml"
  kernelCmdline := ""
  templatePath := ""
  cpus := "1"
  policy := "0x30000"

def assign : String → Option (String → Options → Options)
  | "-ovmf" => some fun v o => { o with ovmfPath := v }
  | "-kernel" => some fun v o => { o with kernelPath := v }
  | "-initrd" => some fun v o => { o with initrdPath := v }
  | "-template" => some fun v o => { o with templatePath := v }
  | "-cmdline" => some fun v o => { o with kernelCmdline := v }
  | "-cpus" => some fun v o => { o with cpus := v }
  | "-policy" => some fun v o => { o with policy := v }
  | "-out" => some fun v o => { o with outPath := v }
  | _ => none

def flags : Flags Options := ⟨fun _ => none, assign⟩

/-- The keys that are put in, in the order of the script. -/
inductive Key where
  | ovmfFile
  | kernelFile
  | initrdFile
  | kernelCmdline
  | vcpuCount
  | guestPolicy
deriving DecidableEq

abbrev Line := List Char

namespace Key

def order : List Key := [ovmfFile, kernelFile, initrdFile, kernelCmdline, vcpuCount, guestPolicy]

def name : Key → Line
  | ovmfFile => "ovmf_file".toList
  | kernelFile => "kernel_file".toList
  | initrdFile => "initrd_file".toList
  | kernelCmdline => "kernel_cmdline".toList
  | vcpuCount => "vcpu_count".toList
  | guestPolicy => "guest_policy".toList

/-- Whether the value is put in quotes. -/
def quotes : Key → Bool
  | vcpuCount => false
  | guestPolicy => false
  | _ => true

def value (o : Options) : Key → Line
  | ovmfFile => o.ovmfPath.toList
  | kernelFile => o.kernelPath.toList
  | initrdFile => o.initrdPath.toList
  | kernelCmdline => o.kernelCmdline.toList
  | vcpuCount => o.cpus.toList
  | guestPolicy => o.policy.toList

/-- The line that assigns a value. -/
def text (k : Key) (value : Line) : Line :=
  k.name ++ ' ' :: '=' :: ' ' :: if k.quotes then '"' :: (value ++ '"' :: []) else value

/-- `sed -i "\@$key@c $key = ..."`.  `sed` takes a text of printable characters without
backslashes as it is. -/
def edit (o : Options) (k : Key) : Sed.Edit Line where
  hits line := k.name <:+: line
  text := k.text (k.value o)

end Key

/-- The edits that are made: the command line is left alone if none is given. -/
def edited (o : Options) : List Key :=
  if o.kernelCmdline = "" then Key.order.erase .kernelCmdline else Key.order

/-- What is written for a template, line by line. -/
def fill (o : Options) (template : List Line) : List Line :=
  Sed.run ((edited o).map (Key.edit o)) template

/-- The script, by the file that it writes.  `copy` is what `cp` copies, if it does. -/
def run (copy : (template out : String) → Option (List Line)) (args : List String) :
    Option (String × List Line) :=
  if args = [] then none
  else
    match flags.read args .initial with
    | .done o => (copy o.templatePath o.outPath).map fun template => (o.outPath, fill o template)
    | .missing _ => none
    | .unknown => none

/-! ### What is expected of it -/

/-- How a key can be written: bare or in quotes. -/
def spellings (name : Line) : List Line := [name, '"' :: (name ++ ['"']), '\'' :: (name ++ ['\''])]

def isBlank (c : Char) : Bool := c == ' ' || c == '\t'

/-- A line that assigns to a key. -/
def assigns (k : Key) (line : Line) : Bool :=
  (spellings k.name).any fun name =>
    name.isPrefixOf (line.dropWhile isBlank) &&
      (((line.dropWhile isBlank).drop name.length).dropWhile isBlank).head? == some '='

/-- Each key occurs on exactly one line of a template, and there it is assigned to. -/
structure Template (template : List Line) : Prop where
  once : ∀ k : Key, template.countP (fun line => k.name <:+: line) = 1
  own : ∀ k : Key, ∀ line ∈ template, k.name <:+: line → assigns k line = true

/-- The lines of the keys assign the given values, the others are unchanged and in place. -/
structure Written (o : Options) (template out : List Line) : Prop where
  length : out.length = template.length
  others : ∀ (i : Nat) line, template[i]? = some line → (∀ k : Key, ¬ k.name <:+: line) →
    out[i]? = some line
  keys : ∀ k : Key, out.filter (assigns k) = [k.text (k.value o)]

/-- A value of printable characters without quotes and backslashes. -/
def Plain (value : Line) : Prop :=
  ∀ c ∈ value, 32 ≤ c.toNat ∧ c.toNat ≠ 127 ∧ c ≠ '"' ∧ c ≠ '\'' ∧ c ≠ '\\'

instance (value : Line) : Decidable (Plain value) := List.decidableBAll _ _

/-- What can be asked for: printable values, and a kernel command line. -/
structure Options.Valid (o : Options) : Prop where
  plain : ∀ k : Key, Plain (k.value o)
  cmdline : o.kernelCmdline ≠ ""

/-- The keys that are put in after `k`. -/
def Key.later (k : Key) : List Key := (Key.order.dropWhile (· ≠ k)).tail

/-! ### Names in lines -/

namespace Key

theorem order_split (k : Key) : ∃ before, order = before ++ k :: k.later ∧
    (∀ k' ∈ before, k' ≠ k) ∧ ∀ k' ∈ k.later, k' ≠ k := by
  cases k
  · exact ⟨[], rfl, by decide, by decide⟩
  · exact ⟨[ovmfFile], rfl, by decide, by decide⟩
  · exact ⟨[ovmfFile, kernelFile], rfl, by decide, by decide⟩
  · exact ⟨[ovmfFile, kernelFile, initrdFile], rfl, by decide, by decide⟩
  · exact ⟨[ovmfFile, kernelFile, initrdFile, kernelCmdline], rfl, by decide, by decide⟩
  · exact ⟨[ovmfFile, kernelFile, initrdFile, kernelCmdline, vcpuCount], rfl, by decide, by decide⟩

theorem mem_order (k : Key) : k ∈ order := by
  cases k <;> decide

/-- No key's name is in another's. -/
theorem eq_of_name_infix_name {k k' : Key} (h : k'.name <:+: k.name) : k' = k := by
  have hall : ∀ k ∈ order, ∀ k' ∈ order, k'.name <:+: k.name → k' = k := by decide +kernel
  exact hall k k.mem_order k' k'.mem_order h

/-- Names consist of letters and underscores. -/
theorem name_plain (k : Key) : ' ' ∉ k.name ∧ '=' ∉ k.name ∧ '"' ∉ k.name ∧ k.name ≠ [] := by
  cases k <;> decide

theorem not_infix_nil (k : Key) : ¬ k.name <:+: [] := by
  intro h
  exact k.name_plain.2.2.2 (List.infix_nil.mp h)

/-- A name stands in the line of a key if it is that key's, or in the value. -/
theorem name_infix_text {k k' : Key} {value : Line} :
    k'.name <:+: k.text value ↔ k' = k ∨ k'.name <:+: value := by
  obtain ⟨hblank, hequals, hquote, -⟩ := k'.name_plain
  refine ⟨?_, ?_⟩
  · intro h
    rcases Text.infix_of_not_mem hblank h with hname | h
    · exact .inl (eq_of_name_infix_name hname)
    have hvalue : k'.name <:+: if k.quotes then '"' :: (value ++ '"' :: []) else value := by
      rcases Text.infix_of_not_mem hblank (show k'.name <:+: ['='] ++ ' ' :: _ from h) with h | h
      · rcases Text.infix_of_not_mem hequals (show k'.name <:+: [] ++ '=' :: _ from h) with h | h
        · exact absurd h k'.not_infix_nil
        · exact absurd h k'.not_infix_nil
      · exact h
    by_cases hquotes : k.quotes = true
    · rw [if_pos hquotes] at hvalue
      rcases Text.infix_of_not_mem hquote (show k'.name <:+: [] ++ '"' :: _ from hvalue) with h | h
      · exact absurd h k'.not_infix_nil
      · rcases Text.infix_of_not_mem hquote h with h | h
        · exact .inr h
        · exact absurd h k'.not_infix_nil
    · rw [if_neg hquotes] at hvalue
      exact .inr hvalue
  · intro h
    rcases h with rfl | h
    · exact ⟨[], _, rfl⟩
    · unfold text
      by_cases hquotes : k.quotes = true
      · rw [if_pos hquotes]
        obtain ⟨pre, post, rfl⟩ := h
        exact ⟨k.name ++ ' ' :: '=' :: ' ' :: '"' :: pre, post ++ ['"'], by simp⟩
      · rw [if_neg hquotes]
        obtain ⟨pre, post, rfl⟩ := h
        exact ⟨k.name ++ ' ' :: '=' :: ' ' :: pre, post, by simp⟩

end Key

/-! ### Assignments -/

theorem infix_of_assigns {k : Key} {line : Line} (h : assigns k line = true) :
    k.name <:+: line := by
  obtain ⟨name, hname, hline⟩ := List.any_eq_true.mp h
  rw [Bool.and_eq_true, List.isPrefixOf_iff_prefix] at hline
  have hsub : k.name <:+: name := by
    simp only [spellings, List.mem_cons, List.not_mem_nil, or_false] at hname
    rcases hname with rfl | rfl | rfl
    · exact List.infix_rfl
    · exact ⟨['"'], ['"'], by simp⟩
    · exact ⟨['\''], ['\''], by simp⟩
  exact (hsub.trans hline.1.isInfix).trans (List.dropWhile_suffix isBlank).isInfix

/-- A line assigns to one key. -/
theorem assigns_unique {k k' : Key} {line : Line} (h : assigns k line = true)
    (h' : assigns k' line = true) : k' = k := by
  have hall : ∀ k ∈ Key.order, ∀ k' ∈ Key.order, ∀ name ∈ spellings k.name,
      ∀ name' ∈ spellings k'.name, name <+: name' ∨ name' <+: name → k' = k := by decide +kernel
  obtain ⟨name, hname, hline⟩ := List.any_eq_true.mp h
  obtain ⟨name', hname', hline'⟩ := List.any_eq_true.mp h'
  rw [Bool.and_eq_true, List.isPrefixOf_iff_prefix] at hline hline'
  exact hall k k.mem_order k' k'.mem_order name hname name' hname'
    (List.prefix_or_prefix_of_prefix hline.1 hline'.1)

/-- The line that is written assigns to its key. -/
theorem assigns_text (k : Key) (value : Line) : assigns k (k.text value) = true := by
  cases k <;> rfl

theorem assigns_text_iff {k k' : Key} {value : Line} :
    assigns k' (k.text value) = true ↔ k' = k := by
  refine ⟨assigns_unique (assigns_text k value), ?_⟩
  rintro rfl
  exact assigns_text _ value

theorem text_injective {k k' : Key} {value value' : Line} (h : k'.text value' = k.text value) :
    k' = k := by
  have hassigns := assigns_text k' value'
  rw [h] at hassigns
  exact assigns_text_iff.mp hassigns

/-! ### What is written -/

/-- The edits, when a command line is given. -/
def script (o : Options) : List (Sed.Edit Line) := Key.order.map (Key.edit o)

theorem fill_eq_map {o : Options} (ho : o.Valid) (template : List Line) :
    fill o template = template.map (Sed.settle (script o)) := by
  rw [fill, edited, if_neg ho.cmdline, Sed.run_eq_map]
  rfl

/-- No edit that comes later finds the line of `k`. -/
def Survives (o : Options) (k : Key) : Prop := ∀ k' ∈ k.later, ¬ k'.name <:+: k.value o

theorem survives_iff {o : Options} {k : Key} :
    (∀ e ∈ k.later.map (Key.edit o), e.hits (k.text (k.value o)) = false) ↔ Survives o k := by
  obtain ⟨-, -, -, hlater⟩ := k.order_split
  rw [List.forall_mem_map]
  refine forall₂_congr fun k' hk' => ?_
  show decide (k'.name <:+: k.text (k.value o)) = false ↔ _
  rw [decide_eq_false_iff_not, Key.name_infix_text, not_or]
  exact and_iff_right (hlater k' hk')

theorem distinct_texts {o : Options} {k : Key} :
    ∀ e ∈ k.later.map (Key.edit o), e.text ≠ (k.edit o).text := by
  obtain ⟨-, -, -, hlater⟩ := k.order_split
  rw [List.forall_mem_map]
  intro k' hk' h
  exact hlater k' hk' (text_injective h)

/-- A line without a key stays as it is. -/
theorem settle_other {o : Options} {line : Line} (h : ∀ k : Key, ¬ k.name <:+: line) :
    Sed.settle (script o) line = line := by
  refine Sed.settle_of_missed ?_
  rw [script, List.forall_mem_map]
  intro k _
  exact decide_eq_false (h k)

/-- The line of a key becomes that of its value, if nothing comes in between. -/
theorem settle_own {o : Options} {k : Key} (hk : Survives o k) {line : Line}
    (hline : ∀ k' : Key, k'.name <:+: line ↔ k' = k) :
    Sed.settle (script o) line = k.text (k.value o) := by
  obtain ⟨before, horder, hbefore, -⟩ := k.order_split
  have hscript : script o = before.map (Key.edit o) ++ k.edit o :: k.later.map (Key.edit o) := by
    rw [script, horder, List.map_append, List.map_cons]
  have hmissed : ∀ e ∈ before.map (Key.edit o), e.hits line = false := by
    rw [List.forall_mem_map]
    intro k' hk'
    exact decide_eq_false fun h => hbefore k' hk' ((hline k').mp h)
  have hhit : (k.edit o).hits line = true := decide_eq_true ((hline k).mpr rfl)
  rw [hscript, Sed.settle_of_first hmissed hhit]
  exact (Sed.settle_text_iff distinct_texts).mpr (survives_iff.mpr hk)

/-- A line becomes that of a value only if nothing comes in between. -/
theorem survives_of_settle {o : Options} {k : Key} {line : Line}
    (h : Sed.settle (script o) line = k.text (k.value o)) : Survives o k := by
  obtain ⟨before, horder, -, -⟩ := k.order_split
  have hscript : script o = before.map (Key.edit o) ++ k.edit o :: k.later.map (Key.edit o) := by
    rw [script, horder, List.map_append, List.map_cons]
  rw [hscript] at h
  have hself : (k.edit o).hits (k.text (k.value o)) = true :=
    decide_eq_true (Key.name_infix_text.mpr (.inl rfl))
  exact survives_iff.mp (Sed.survives_of_settle distinct_texts hself h)

namespace Template

variable {template : List Line} (ht : Template template) {line : Line}

include ht

/-- A line has the name of one key at most. -/
theorem unique (hline : line ∈ template) {k : Key} (hk : k.name <:+: line) (k' : Key) :
    k'.name <:+: line ↔ k' = k := by
  refine ⟨?_, ?_⟩
  · intro hk'
    exact assigns_unique (ht.own k line hline hk) (ht.own k' line hline hk')
  · rintro rfl
    exact hk

/-- With every value surviving, exactly one line assigns to a key, and it is the new one. -/
theorem written {o : Options} (hall : ∀ k, Survives o k) :
    Written o template (template.map (Sed.settle (script o))) where
  length := List.length_map _
  others i line hget hnone := by
    rw [List.getElem?_map, hget, Option.map_some, settle_other hnone]
  keys k := by
    have hsettle : ∀ line ∈ template,
        assigns k (Sed.settle (script o) line) = decide (k.name <:+: line) := by
      intro line hline
      by_cases hsome : ∃ k' : Key, k'.name <:+: line
      · obtain ⟨k', hk'⟩ := hsome
        rw [settle_own (hall k') (ht.unique hline hk'), Bool.eq_iff_iff, assigns_text_iff,
          decide_eq_true_iff, ht.unique hline hk' k]
      · have hnone : ∀ k' : Key, ¬ k'.name <:+: line := fun k' hk' => hsome ⟨k', hk'⟩
        rw [settle_other hnone, decide_eq_false (hnone k)]
        by_contra hassigns
        exact hnone k (infix_of_assigns (by simpa using hassigns))
    have hone := ht.once k
    rw [List.countP_eq_length_filter, List.length_eq_one_iff] at hone
    obtain ⟨line, hfilter⟩ := hone
    have hmem : line ∈ template.filter fun line => k.name <:+: line := by
      rw [hfilter]
      exact List.mem_singleton_self line
    obtain ⟨hline, hk⟩ := List.mem_filter.mp hmem
    have hassigning : template.filter (assigns k ∘ Sed.settle (script o))
        = template.filter fun line => k.name <:+: line := List.filter_congr hsettle
    rw [List.filter_map, hassigning, hfilter, List.map_singleton,
      settle_own (hall k) (ht.unique hline (of_decide_eq_true hk))]

end Template

/-- The line of a value is in the file only if it survives. -/
theorem survives_of_written {o : Options} {template : List Line} {k : Key}
    (h : Written o template (template.map (Sed.settle (script o)))) : Survives o k := by
  have hmem : k.text (k.value o)
      ∈ (template.map (Sed.settle (script o))).filter (assigns k) := by
    rw [h.keys k]
    exact List.mem_singleton_self _
  obtain ⟨line, -, hsettle⟩ := List.mem_map.mp (List.mem_filter.mp hmem).1
  exact survives_of_settle hsettle

/-- **The file says what was asked for exactly if no value contains the name of a key that
is put in after it.** -/
theorem written_iff {copy : String → String → Option (List Line)} {args : List String}
    (hargs : args ≠ []) {o : Options} (hread : flags.read args .initial = .done o)
    (ho : o.Valid) {template : List Line} (hcopy : copy o.templatePath o.outPath = some template)
    (ht : Template template) :
    (∃ out, run copy args = some (o.outPath, out) ∧ Written o template out) ↔
      ∀ k : Key, ∀ k' ∈ k.later, ¬ k'.name <:+: k.value o := by
  have hrun : run copy args = some (o.outPath, template.map (Sed.settle (script o))) := by
    rw [run, if_neg hargs, hread]
    show (copy o.templatePath o.outPath).map _ = _
    rw [hcopy, Option.map_some, fill_eq_map ho]
  rw [hrun]
  refine ⟨?_, ?_⟩
  · intro h k
    obtain ⟨out, hout, hwritten⟩ := h
    rw [Option.some.injEq, Prod.mk.injEq] at hout
    rw [← hout.2] at hwritten
    exact survives_of_written hwritten
  · intro hall
    exact ⟨_, rfl, ht.written hall⟩

/-! ### Two kernels -/

def toyTemplate : List Line :=
  ["# The VM".toList, "vcpu_count = 1".toList, "ovmf_file = \"\"".toList,
    "kernel_file = \"\"".toList, "initrd_file = \"\"".toList, "kernel_cmdline = \"\"".toList,
    "guest_policy = 0x30000".toList]

theorem toyTemplate_template : Template toyTemplate where
  once k := by cases k <;> decide +kernel
  own k := by cases k <;> decide +kernel

def toyOptions (kernel : String) : Options where
  ovmfPath := "OVMF.fd"
  kernelPath := kernel
  initrdPath := "initrd.img"
  outPath := "vm-config.toml"
  kernelCmdline := "console=ttyS0 quiet"
  templatePath := "template.toml"
  cpus := "4"
  policy := "0x30000"

def toyArgs (kernel : String) : List String :=
  ["-ovmf", "OVMF.fd", "-kernel", kernel, "-initrd", "initrd.img", "-template", "template.toml",
    "-cmdline", "console=ttyS0 quiet", "-cpus", "4", "-policy", "0x30000", "-out", "vm-config.toml"]

def toyCopy (template _ : String) : Option (List Line) :=
  if template = "template.toml" then some toyTemplate else none

theorem toy_read (kernel : String) :
    flags.read (toyArgs kernel) .initial = .done (toyOptions kernel) := rfl

theorem toy_valid {kernel : String} (h : Plain kernel.toList) : (toyOptions kernel).Valid where
  plain k := by
    have hall : ∀ text ∈ ["OVMF.fd", "initrd.img", "console=ttyS0 quiet", "4", "0x30000"],
        Plain text.toList := by decide +kernel
    cases k with
    | kernelFile => exact h
    | ovmfFile => exact hall "OVMF.fd" (by simp)
    | initrdFile => exact hall "initrd.img" (by simp)
    | kernelCmdline => exact hall "console=ttyS0 quiet" (by simp)
    | vcpuCount => exact hall "4" (by simp)
    | guestPolicy => exact hall "0x30000" (by simp)
  cmdline := (by decide : "console=ttyS0 quiet" ≠ "")

/-- A kernel path without the name of a key is put in, and all other values are. -/
theorem written_iff_vmlinuz :
    ∃ out, run toyCopy (toyArgs "/boot/vmlinuz") = some ("vm-config.toml", out) ∧
      Written (toyOptions "/boot/vmlinuz") toyTemplate out := by
  refine (written_iff (by decide) (toy_read _) (toy_valid ?_) rfl toyTemplate_template).mpr ?_
  · decide +kernel
  · intro k
    cases k <;> decide +kernel

/-- A kernel in a directory `initrd_file` is replaced by the initial RAM disk. -/
theorem kernel_lost :
    (toyOptions "/boot/initrd_file/vmlinuz").Valid ∧ Template toyTemplate ∧
      run toyCopy (toyArgs "/boot/initrd_file/vmlinuz")
        = some ("vm-config.toml", fill (toyOptions "/boot/initrd_file/vmlinuz") toyTemplate) ∧
      (fill (toyOptions "/boot/initrd_file/vmlinuz") toyTemplate)[3]?
        = some "initrd_file = \"initrd.img\"".toList ∧
      ¬ ∃ out, run toyCopy (toyArgs "/boot/initrd_file/vmlinuz") = some ("vm-config.toml", out) ∧
        Written (toyOptions "/boot/initrd_file/vmlinuz") toyTemplate out := by
  have hvalid : (toyOptions "/boot/initrd_file/vmlinuz").Valid := toy_valid (by decide +kernel)
  refine ⟨hvalid, toyTemplate_template, rfl, by decide +kernel, ?_⟩
  intro h
  obtain ⟨out, hrun, hwritten⟩ := h
  have hout : fill (toyOptions "/boot/initrd_file/vmlinuz") toyTemplate = out :=
    congrArg Prod.snd (Option.some.inj hrun)
  rw [← hout, fill_eq_map hvalid] at hwritten
  have hsurvives : Survives (toyOptions "/boot/initrd_file/vmlinuz") .kernelFile :=
    survives_of_written hwritten
  exact hsurvives .initrdFile (by decide) (by decide +kernel)

end SnpGuard.CreateVmConfig
