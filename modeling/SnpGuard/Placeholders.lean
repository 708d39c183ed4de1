/-
Texts that are put in the place of placeholders, one after the other.

A script that fills in a template with `sed` edits what it put in before along with the
template.  Could a text that an edit garbled be put right by a later one?  It cannot, because
of what the texts look like: a placeholder opens with `<`, and what is put in its place are
key types and hashes, which have a `-` or a `$` before anything of the kind.  `Kept` is all
that a later edit can do to a line: copy a character, or put a word in the place of a
placeholder.  A text that comes out of such edits as it was given had nothing in it that the
first of them gives a meaning to (`clean_of_kept`), and a line that comes out as it was went
through every edit unchanged (`line_of_kept`).
-/
import Mathlib.Data.List.TakeWhile
import SnpGuard.Lib.Substitute

namespace SnpGuard.Placeholders

open Sed

/-! ### Marks -/

/-- The characters that tell where a text came from. -/
def isMark (c : Char) : Bool := "<-$&0\n".toList.contains c

/-- A word of which the first mark is that of a key type or of a hash. -/
def Told (w : List Char) : Prop :=
  ∃ pre m post, w = pre ++ m :: post ∧ (∀ c ∈ pre, isMark c = false) ∧ (m = '-' ∨ m = '$')

theorem no_mark {l : List Char} (h : l.all (fun c => !isMark c) = true) :
    ∀ c ∈ l, isMark c = false := by
  simpa using h

theorem told_dash (pre post : List Char) (h : pre.all (fun c => !isMark c) = true) :
    Told (pre ++ '-' :: post) := ⟨pre, '-', post, rfl, no_mark h, .inl rfl⟩

theorem told_append {w : List Char} (h : Told w) (rest : List Char) : Told (w ++ rest) := by
  obtain ⟨pre, m, post, rfl, hpre, hm⟩ := h
  exact ⟨pre, m, post ++ rest, by simp, hpre, hm⟩

/-- The first mark of a text is what it is. -/
theorem not_told {q : List Char} (hq : ∀ c ∈ q, isMark c = false) {m : Char}
    (hm : isMark m = true) (hne : m ≠ '-' ∧ m ≠ '$') (rest : List Char) :
    ¬ Told (q ++ m :: rest) := by
  intro h
  obtain ⟨pre, m', post, heq, hpre, hm'⟩ := h
  have hmark' : isMark m' = true := by rcases hm' with rfl | rfl <;> rfl
  induction q generalizing pre with
  | nil =>
      cases pre with
      | nil =>
          rw [List.nil_append, List.nil_append, List.cons.injEq] at heq
          rw [heq.1] at hne
          exact hm'.elim hne.1 hne.2
      | cons p pre =>
          rw [List.nil_append, List.cons_append, List.cons.injEq] at heq
          have hp := hpre p List.mem_cons_self
          rw [← heq.1, hm] at hp
          simp at hp
  | cons c q ih =>
      cases pre with
      | nil =>
          rw [List.nil_append, List.cons_append, List.cons.injEq] at heq
          have hc := hq c List.mem_cons_self
          rw [heq.1, hmark'] at hc
          simp at hc
      | cons p pre =>
          rw [List.cons_append, List.cons_append, List.cons.injEq] at heq
          exact ih (fun d hd => hq d (List.mem_cons_of_mem c hd)) pre heq.2
            fun d hd => hpre d (List.mem_cons_of_mem p hd)

theorem Told.cons {c : Char} {w : List Char} (h : Told w) (hc : isMark c = false) :
    Told (c :: w) := by
  obtain ⟨pre, m, post, rfl, hpre, hm⟩ := h
  refine ⟨c :: pre, m, post, rfl, ?_, hm⟩
  intro d hd
  exact (List.mem_cons.mp hd).elim (fun heq => heq ▸ hc) (hpre d)

/-- How such a word begins. -/
theorem told_cases {w : List Char} (h : Told w) :
    (∃ m post, w = m :: post ∧ (m = '-' ∨ m = '$')) ∨
      ∃ c w', w = c :: w' ∧ isMark c = false ∧ Told w' := by
  obtain ⟨pre, m, post, rfl, hpre, hm⟩ := h
  cases pre with
  | nil => exact .inl ⟨m, post, rfl, hm⟩
  | cons c pre =>
      refine .inr ⟨c, pre ++ m :: post, rfl, hpre c List.mem_cons_self, pre, m, post, rfl, ?_, hm⟩
      exact fun d hd => hpre d (List.mem_cons_of_mem c hd)

theorem told_head {c : Char} {w : List Char} (h : Told (c :: w)) : c ≠ '<' ∧ c ≠ '\n' := by
  obtain ⟨m, post, heq, hm⟩ | ⟨c', w', heq, hc, -⟩ := told_cases h
  · rw [List.cons.injEq] at heq
    rw [heq.1]
    rcases hm with rfl | rfl <;> decide
  · rw [List.cons.injEq] at heq
    rw [← heq.1] at hc
    refine ⟨?_, ?_⟩
    · rintro rfl
      exact absurd hc (by decide)
    · rintro rfl
      exact absurd hc (by decide)

/-- No such word is cut before its mark. -/
theorem told_takeWhile {w : List Char} (h : Told w) : Told (w.takeWhile (· != '\n')) := by
  obtain ⟨pre, m, post, rfl, hpre, hm⟩ := h
  have hline : ∀ c ∈ pre, (c != '\n') = true := by
    intro c hc
    rw [bne_iff_ne]
    rintro rfl
    exact absurd (hpre _ hc) (by decide)
  have hmark : (m != '\n') = true := by rcases hm with rfl | rfl <;> rfl
  rw [List.takeWhile_append_of_pos hline, List.takeWhile_cons, if_pos hmark]
  exact ⟨pre, m, _, rfl, hpre, hm⟩

/-! ### What a later edit can do to a line -/

/-- What is left of the first text is the second. -/
inductive Kept : List Char → List Char → Prop
  | nil : Kept [] []
  | keep {c : Char} {y o : List Char} (h : Kept y o) : Kept (c :: y) (c :: o)
  /-- A word comes in the place of a placeholder. -/
  | swap {y o : List Char} (h : Told o) : Kept ('<' :: y) o
  /-- The line ends. -/
  | cut {y : List Char} : Kept ('\n' :: y) []

theorem Kept.refl : ∀ y : List Char, Kept y y
  | [] => .nil
  | _ :: y => .keep (Kept.refl y)

theorem Kept.append {y o : List Char} (a : List Char) (h : Kept y o) : Kept (a ++ y) (a ++ o) := by
  induction a with
  | nil => exact h
  | cons c a ih => exact .keep ih

theorem told_of_kept {w o : List Char} (hw : Told w) (h : Kept w o) : Told o := by
  induction h with
  | nil => exact hw
  | @keep c y o h ih =>
      obtain ⟨m, post, heq, hm⟩ | ⟨c', w', heq, hc, hw'⟩ := told_cases hw
      · rw [List.cons.injEq] at heq
        exact ⟨[], c, o, rfl, by simp, heq.1 ▸ hm⟩
      · rw [List.cons.injEq] at heq
        exact (ih (heq.2 ▸ hw')).cons (heq.1 ▸ hc)
  | swap _ => exact absurd rfl (told_head hw).1
  | cut => exact absurd rfl (told_head hw).2

theorem Kept.trans {x y z : List Char} (h : Kept x y) (h' : Kept y z) : Kept x z := by
  induction h generalizing z with
  | nil => exact h'
  | keep _ ih =>
      cases h' with
      | keep h' => exact .keep (ih h')
      | swap h' => exact .swap h'
      | cut => exact .cut
  | swap hw => exact .swap (told_of_kept hw h')
  | cut =>
      cases h'
      exact .cut

/-- What the first line is kept as, the whole is. -/
theorem Kept.of_takeWhile {y o : List Char} (h : Kept (y.takeWhile (· != '\n')) o) :
    Kept y o := by
  induction y generalizing o with
  | nil => exact h
  | cons c y ih =>
      by_cases hc : c = '\n'
      · subst hc
        rw [List.takeWhile_cons_of_neg (by simp)] at h
        cases h
        exact .cut
      · rw [List.takeWhile_cons_of_pos (by simpa using hc)] at h
        cases h with
        | keep h => exact .keep (ih h)
        | swap h => exact .swap h
        | cut => exact absurd rfl hc

/-- A word does not turn back into what it took the place of. -/
theorem not_kept_swapped {a w b : List Char} (hw : Told w) : ¬ Kept (a ++ w) (a ++ '<' :: b) := by
  intro h
  induction a with
  | nil =>
      cases w with
      | nil => cases h
      | cons c w =>
          cases h with
          | keep _ => exact absurd rfl (told_head hw).1
          | swap _ => exact absurd rfl (told_head hw).1
  | cons c a ih =>
      cases h with
      | keep h => exact ih h
      | swap h => exact absurd rfl (told_head h).1

/-! ### Texts behind the first edit -/

theorem not_alpha {c : Char} (h : isMark c = true) : c.isAlpha = false := by
  have hall : "<-$&0\n".toList.all (fun c => !c.isAlpha) = true := by decide
  have hmem : c ∈ "<-$&0\n".toList := by simpa [isMark] using h
  simpa using List.all_eq_true.mp hall c hmem

/-- What a backslash and a character can come to. -/
theorem escape_cases {d : Char} {item : Item} (h : escape d = some item) :
    (item = .whole ∧ d = '0') ∨ (∃ x, item = .change x ∧ isMark d = false ∧ d ≠ '<') ∨
      ∃ e, item = .put e ∧ (e = d ∨ isMark d = false ∧ e ≠ '<' ∧ e ≠ '\\') := by
  unfold escape at h
  split at h
  · rename_i hd
    exact .inl ⟨(Option.some.inj h).symm, hd⟩
  · split at h
    · simp at h
    · split at h
      all_goals
        rw [Option.some.injEq] at h
        subst h
      all_goals first
        | exact .inr (.inr ⟨_, rfl, .inr (by decide)⟩)
        | exact .inr (.inl ⟨_, rfl, by decide⟩)
        | exact .inr (.inr ⟨_, rfl, .inl rfl⟩)

theorem not_kept_nil {c : Char} {o : List Char} : ¬ Kept [] (c :: o) := by
  intro h
  cases h

theorem not_kept_nil_append {q : List Char} (hne : q ≠ []) (t : List Char) :
    ¬ Kept [] (q ++ t) := by
  intro h
  cases q with
  | nil => exact hne rfl
  | cons c q => exact not_kept_nil h

theorem not_told_open (o : List Char) : ¬ Told ('<' :: o) := fun h => (told_head h).1 rfl

/-- Where other characters are owed, the next one is one of these, or a word comes. -/
theorem kept_cons_behind {x : Char} {y q t : List Char} (hne : q ≠ [])
    (hq : ∀ c ∈ q, isMark c = false) (h : Kept (x :: y) (q ++ t)) :
    (x = '<' ∧ Told (q ++ t)) ∨
      (isMark x = false ∧ ∃ q', (∀ c ∈ q', isMark c = false) ∧ Kept y (q' ++ t)) := by
  cases q with
  | nil => exact absurd rfl hne
  | cons c q =>
      cases h with
      | keep h =>
          exact .inr ⟨hq x List.mem_cons_self, q, fun d hd => hq d (List.mem_cons_of_mem x hd), h⟩
      | swap h => exact .inl ⟨rfl, h⟩

section Behind

variable {name : List Char} {s : Casing} {q : List Char} {items : List Item}

/-- A match begins with `<`. -/
theorem expand_whole (name : List Char) (s : Casing) (items : List Item) :
    ∃ y, expand ('<' :: name) s (.whole :: items) = '<' :: y := by
  have hopen : s.put '<' = '<' := (s.put_eq_iff (by decide)).mpr rfl
  exact ⟨_, by rw [expand, Casing.putAll, hopen, List.cons_append]⟩

/-- A mark is put in as it is. -/
theorem isMark_of_put {c : Char} (h : isMark (s.put c) = false) : isMark c = false := by
  rw [Bool.eq_false_iff]
  intro hc
  rw [(s.put_eq_iff (not_alpha hc)).mpr rfl, hc] at h
  simp at h

/-- What a backslash and a character come to leaves the text behind by these two. -/
theorem kept_escape_behind {d : Char} {item : Item} {t : List Char} (hitem : escape d = some item)
    (hne : q ≠ []) (hq : ∀ c ∈ q, isMark c = false)
    (h : Kept (expand ('<' :: name) s (item :: items)) (q ++ '\\' :: d :: t)) :
    ∃ s' q', q' ≠ [] ∧ (∀ c ∈ q', isMark c = false) ∧
      Kept (expand ('<' :: name) s' items) (q' ++ t) := by
  have hbackslash : ∀ c ∈ q ++ ['\\'], isMark c = false :=
    List.forall_mem_append.mpr ⟨hq, no_mark (by decide)⟩
  have hboth : ∀ {q : List Char}, (∀ c ∈ q, isMark c = false) → isMark d = false →
      ∀ c ∈ q ++ ['\\', d], isMark c = false := fun hq hd =>
    List.forall_mem_append.mpr ⟨hq, List.forall_mem_cons.mpr ⟨rfl, by simpa using hd⟩⟩
  have hsplit : ∀ q : List Char, q ++ '\\' :: d :: t = (q ++ ['\\', d]) ++ t := by simp
  have htold : isMark d = true → d ≠ '-' ∧ d ≠ '$' → ¬ Told (q ++ '\\' :: d :: t) := by
    intro hd hdne
    have hnot := not_told hbackslash hd hdne t
    rwa [List.append_assoc, List.singleton_append] at hnot
  obtain ⟨rfl, rfl⟩ | ⟨x, rfl, hd, -⟩ | ⟨e, rfl, he⟩ := escape_cases hitem
  · obtain ⟨y, hy⟩ := expand_whole name s items
    rw [hy] at h
    obtain ⟨-, hword⟩ | ⟨hmark, -⟩ := kept_cons_behind hne hq h
    · exact absurd hword (htold (by decide) (by decide))
    · exact absurd hmark (by decide)
  · rw [expand, hsplit] at h
    exact ⟨_, _, by simp, hboth hq hd, h⟩
  · rw [expand] at h
    obtain ⟨hopen, hword⟩ | ⟨hmark, q', hq', h⟩ := kept_cons_behind hne hq h
    · rw [s.put_eq_iff (by decide)] at hopen
      obtain rfl | ⟨-, hne', -⟩ := he
      · rw [hopen] at hword htold
        exact absurd hword (htold (by decide) (by decide))
      · exact absurd hopen hne'
    · rw [hsplit] at h
      refine ⟨_, _, by simp, hboth hq' ?_, h⟩
      obtain rfl | ⟨hd, -, -⟩ := he
      · exact isMark_of_put hmark
      · exact hd

/-- A text that is behind what it is to become, by characters that are no marks, does not
catch up. -/
theorem not_kept_behind {r : List Char} {esc : Bool} {behind : List Char}
    (hread : readReplacement esc (r ++ [delimiter, 'g']) = some (items, behind)) (hne : q ≠ [])
    (hq : ∀ c ∈ q, isMark c = false) :
    ¬ Kept (expand ('<' :: name) s items) (q ++ if esc then '\\' :: r else r) := by
  induction r generalizing esc s q items with
  | nil =>
      intro h
      cases esc with
      | true =>
          rw [List.nil_append, readReplacement_cut] at hread
          simp at hread
      | false =>
          obtain ⟨-, rfl⟩ | ⟨hescape, -⟩ | ⟨_, -, ⟨hwhole, -⟩ | ⟨hplain, -⟩⟩ :=
            readReplacement_cons hread
          · exact not_kept_nil_append hne _ h
          · exact absurd hescape (by decide)
          · exact absurd hwhole (by decide)
          · exact hplain.1 rfl
  | cons c r ih =>
      intro h
      cases esc with
      | true =>
          obtain ⟨item, items', hitem, hrest, rfl⟩ := readReplacement_escaped hread
          obtain ⟨s', q', hne', hq', h⟩ := kept_escape_behind hitem hne hq h
          exact ih hrest hne' hq' h
      | false =>
          obtain ⟨rfl, rfl⟩ | ⟨rfl, hrest⟩ | ⟨items', hrest, ⟨rfl, rfl⟩ | ⟨-, rfl⟩⟩ :=
            readReplacement_cons hread
          · exact not_kept_nil_append hne _ h
          · exact ih hrest hne hq h
          · obtain ⟨y, hy⟩ := expand_whole name s items'
            rw [hy] at h
            obtain ⟨-, hword⟩ | ⟨hmark, -⟩ := kept_cons_behind hne hq h
            · exact not_told hq (m := '&') (by decide) (by decide) r hword
            · exact absurd hmark (by decide)
          · rw [expand] at h
            obtain ⟨hopen, hword⟩ | ⟨hmark, q', hq', h⟩ := kept_cons_behind hne hq h
            · rw [s.put_eq_iff (by decide)] at hopen
              subst hopen
              exact not_told hq (m := '<') (by decide) (by decide) r hword
            · -- The character that was read is owed now.
              have hsnoc : ∀ d ∈ q' ++ [c], isMark d = false :=
                List.forall_mem_append.mpr ⟨hq', by simpa using isMark_of_put hmark⟩
              have h' : Kept (expand ('<' :: name) s.after items') ((q' ++ [c]) ++ r) := by
                rw [List.append_assoc]
                exact h
              exact ih hrest (by simp) hsnoc h'

end Behind

/-- A backslash that is read does not come out again. -/
theorem not_kept_escape {name r behind : List Char} {items : List Item}
    (hread : readReplacement true (r ++ [delimiter, 'g']) = some (items, behind)) :
    ¬ Kept (expand ('<' :: name) .plain items) ('\\' :: r) := by
  intro h
  cases r with
  | nil =>
      rw [List.nil_append, readReplacement_cut] at hread
      simp at hread
  | cons d r =>
      obtain ⟨item, items', hitem, hrest, rfl⟩ := readReplacement_escaped hread
      have htold : ∀ {m : Char}, isMark m = true → m ≠ '-' ∧ m ≠ '$' →
          ¬ Told ('\\' :: m :: r) := fun hm hne => not_told (q := ['\\']) (no_mark (by decide)) hm hne r
      obtain ⟨rfl, rfl⟩ | ⟨x, rfl, hd, -⟩ | ⟨e, rfl, he⟩ := escape_cases hitem
      · obtain ⟨y, hy⟩ := expand_whole name .plain items'
        rw [hy] at h
        cases h with
        | swap hword => exact htold (by decide) (by decide) hword
      · have hq : ∀ c ∈ ['\\', d], isMark c = false := by simpa using ⟨rfl, hd⟩
        exact not_kept_behind hrest (by simp) hq h
      · have hput : Casing.plain.put e = e := rfl
        rw [expand, hput] at h
        cases h with
        | keep h =>
            obtain rfl | ⟨-, -, hne⟩ := he
            · exact not_kept_behind (q := ['\\']) hrest (by simp) (no_mark (by decide)) h
            · exact hne rfl
        | swap hword =>
            obtain rfl | ⟨-, hne, -⟩ := he
            · exact htold (by decide) (by decide) hword
            · exact hne rfl

/-- **A text that comes out as it was given was clean.** -/
theorem clean_of_kept {name r behind : List Char} {items : List Item} (hline : '\n' ∉ r)
    (hread : readReplacement false (r ++ [delimiter, 'g']) = some (items, behind))
    (h : Kept (expand ('<' :: name) .plain items) r) : Clean r := by
  induction r generalizing items with
  | nil => simp [Clean]
  | cons c r ih =>
      rw [List.mem_cons, not_or] at hline
      obtain ⟨rfl, rfl⟩ | ⟨rfl, hrest⟩ | ⟨items', hrest, ⟨rfl, rfl⟩ | ⟨hplain, rfl⟩⟩ :=
        readReplacement_cons hread
      · exact absurd h not_kept_nil
      · exact absurd h (not_kept_escape hrest)
      · obtain ⟨y, hy⟩ := expand_whole name .plain items'
        rw [hy] at h
        cases h with
        | swap hword => exact absurd hword (not_told (q := []) (by simp) (by decide) (by decide) r)
      · have hput : Casing.plain.put c = c := rfl
        rw [expand, hput] at h
        cases h with
        | keep h =>
            intro d hd
            rcases List.mem_cons.mp hd with rfl | hd
            · exact hplain
            · exact ih hline.2 hrest h d hd
        | swap hword => exact absurd hword (not_told_open r)

/-! ### Edits, one after the other -/

/-- What is printed for a line. -/
abbrev Edit := List Char → List (List Char)

/-- What the edits make of lines. -/
def edited (edits : List Edit) (lines : List (List Char)) : List (List Char) :=
  edits.foldl (fun lines e => lines.flatMap e) lines

/-- An edit prints a line that what was there is kept as, and maybe more. -/
def Edit.Keeps (e : Edit) : Prop :=
  ∀ {l}, '\n' ∉ l → ∃ h more, e l = h :: more ∧ '\n' ∉ h ∧ Kept l h

/-- The edit leaves the line as it is, or what it prints does not become that line again. -/
def Edit.Strict (e : Edit) (l : List Char) : Prop :=
  ∀ {h more}, e l = h :: more → Kept h l → e l = [l]

variable {edits : List Edit}

theorem edited_append (edits : List Edit) (a b : List (List Char)) :
    edited edits (a ++ b) = edited edits a ++ edited edits b := by
  induction edits generalizing a b with
  | nil => rfl
  | cons e edits ih =>
      show edited edits ((a ++ b).flatMap e) = _
      rw [List.flatMap_append, ih]
      rfl

/-- Every line is edited by itself. -/
theorem edited_eq_flatMap (edits : List Edit) (lines : List (List Char)) :
    edited edits lines = lines.flatMap fun l => edited edits [l] := by
  induction lines with
  | nil =>
      induction edits with
      | nil => rfl
      | cons e edits ih => exact ih
  | cons l lines ih =>
      rw [List.flatMap_cons, ← ih, ← edited_append]
      rfl

theorem edited_cons (e : Edit) (edits : List Edit) (l : List Char) :
    edited (e :: edits) [l] = edited edits (e l) := by
  show edited edits ([l].flatMap e) = _
  rw [List.flatMap_cons, List.flatMap_nil, List.append_nil]

/-- The first line comes from the first line. -/
theorem edited_keeps (hedits : ∀ e ∈ edits, Edit.Keeps e) {l : List Char} (hline : '\n' ∉ l)
    (lines : List (List Char)) :
    ∃ h more, edited edits (l :: lines) = h :: more ∧ Kept l h := by
  induction edits generalizing l lines with
  | nil => exact ⟨l, lines, rfl, Kept.refl l⟩
  | cons e edits ih =>
      obtain ⟨h, more, he, hhead, hkept⟩ := hedits e List.mem_cons_self hline
      obtain ⟨h', more', hrest, hkept'⟩ :=
        ih (fun e' he' => hedits e' (List.mem_cons_of_mem e he')) hhead (more ++ lines.flatMap e)
      refine ⟨h', more', ?_, hkept.trans hkept'⟩
      rw [← hrest]
      show edited edits ((l :: lines).flatMap e) = _
      rw [List.flatMap_cons, he, List.cons_append]

/-- **A line that comes out as it was went through every edit unchanged.** -/
theorem line_of_kept (hedits : ∀ e ∈ edits, Edit.Keeps e) {l : List Char} (hline : '\n' ∉ l)
    (hstrict : ∀ e ∈ edits, Edit.Strict e l) {more : List (List Char)}
    (h : edited edits [l] = l :: more) : ∀ e ∈ edits, e l = [l] := by
  induction edits with
  | nil => simp
  | cons e edits ih =>
      have hrest : ∀ e' ∈ edits, Edit.Keeps e' :=
        fun e' he' => hedits e' (List.mem_cons_of_mem e he')
      obtain ⟨h₁, more₁, he, hhead, -⟩ := hedits e List.mem_cons_self hline
      obtain ⟨h₂, more₂, hedited, hkept⟩ := edited_keeps hrest hhead more₁
      rw [edited_cons, he, hedited, List.cons.injEq] at h
      obtain ⟨rfl, rfl⟩ := h
      have hsame := hstrict e List.mem_cons_self he hkept
      intro e' he'
      rcases List.mem_cons.mp he' with rfl | he'
      · exact hsame
      · rw [he, List.cons.injEq] at hsame
        rw [hsame.1, hsame.2] at hedited
        exact ih hrest (fun e' he' => hstrict e' (List.mem_cons_of_mem e he')) hedited e' he'

/-- Edits that leave a line do not count. -/
theorem edited_skip {l : List Char} {before : List Edit} (h : ∀ e ∈ before, e l = [l])
    (after : List Edit) : edited (before ++ after) [l] = edited after [l] := by
  induction before with
  | nil => rfl
  | cons e before ih =>
      show edited (before ++ after) ([l].flatMap e) = _
      rw [List.flatMap_cons, h e List.mem_cons_self, List.flatMap_nil, List.append_nil]
      exact ih fun e' he' => h e' (List.mem_cons_of_mem e he')

theorem edited_of_same {l : List Char} (h : ∀ e ∈ edits, e l = [l]) : edited edits [l] = [l] := by
  have hskip := edited_skip h []
  rwa [List.append_nil] at hskip

/-- Lines that come out as they were went through the edit one by one. -/
theorem lines_of_kept {e : Edit} (he : Edit.Keeps e) {lines : List (List Char)}
    (hlines : ∀ l ∈ lines, '\n' ∉ l ∧ Edit.Strict e l) {more more' : List (List Char)}
    (h : lines.flatMap e ++ more = lines ++ more') : ∀ l ∈ lines, e l = [l] := by
  induction lines with
  | nil => simp
  | cons l lines ih =>
      obtain ⟨hline, hstrict⟩ := hlines l List.mem_cons_self
      obtain ⟨h₁, more₁, hprinted, -, hkept⟩ := he hline
      rw [List.flatMap_cons, hprinted, List.append_assoc, List.cons_append, List.cons_append,
        List.cons.injEq] at h
      have hsame := hstrict hprinted (h.1 ▸ Kept.refl h₁)
      rw [hprinted, List.cons.injEq] at hsame
      rw [hsame.2, List.nil_append] at h
      have hrest := ih (fun l' hl' => hlines l' (List.mem_cons_of_mem l hl')) h.2
      intro l' hl'
      rcases List.mem_cons.mp hl' with rfl | hl'
      · rw [hprinted, hsame.1, hsame.2]
      · exact hrest l' hl'

/-! ### Edits that put in a word -/

/-- The command replaces a placeholder by a word that can be told. -/
structure Fills (s : Subst) : Prop where
  opens : ∃ name, s.pattern = '<' :: name
  told : ∀ b, Told (s.expansion b)

namespace Fills

variable {s : Subst}

/-- From where a match was replaced, there is a word. -/
theorem word_of_match (hs : Fills s) {a b : List Char} (hline : '\n' ∉ a ++ b)
    (hmatch : s.matchesAt b = true) (rest : List Char) :
    ∃ b' w, b = '<' :: b' ∧ Told w ∧ '\n' ∉ w ∧
      (a ++ (s.expansion b ++ rest)).takeWhile (· != '\n') = a ++ w := by
  obtain ⟨name, hname⟩ := hs.opens
  obtain ⟨b', rfl⟩ := Subst.matchesAt_opens hname (by decide) hmatch
  refine ⟨b', _, rfl, told_takeWhile (told_append (hs.told ('<' :: b')) rest), ?_, ?_⟩
  · intro hmem
    simpa using List.mem_takeWhile_imp hmem
  · have hbefore : ∀ c ∈ a, (c != '\n') = true := by
      intro c hc
      rw [bne_iff_ne]
      rintro rfl
      exact hline (List.mem_append_left _ hc)
    exact List.takeWhile_append_of_pos hbefore

/-- A line stays, or a placeholder in it becomes a word. -/
theorem line_cases (hs : Fills s) {l : List Char} (hline : '\n' ∉ l) :
    s.line l = [l] ∨ ∃ a b w more, l = a ++ '<' :: b ∧ Told w ∧ '\n' ∉ w ∧
      s.line l = (a ++ w) :: more := by
  obtain h | ⟨a, b, rest, more, rfl, hmatch, -, hprinted⟩ := s.line_cases hline
  · exact .inl h
  · obtain ⟨b', w, rfl, hw, hword, hhead⟩ := hs.word_of_match hline hmatch rest
    exact .inr ⟨a, b', w, more, rfl, hw, hword, by rw [hprinted, hhead]⟩

theorem keeps (hs : Fills s) : Edit.Keeps s.line := by
  intro l hline
  obtain h | ⟨a, b, w, more, rfl, hw, hword, hprinted⟩ := hs.line_cases hline
  · exact ⟨l, [], h, hline, Kept.refl l⟩
  · refine ⟨a ++ w, more, hprinted, ?_, (Kept.swap hw).append a⟩
    exact List.not_mem_append (fun hmem => hline (List.mem_append_left _ hmem)) hword

theorem strict (hs : Fills s) {l : List Char} (hline : '\n' ∉ l) : Edit.Strict s.line l := by
  intro h more hprinted hkept
  obtain hsame | ⟨a, b, w, more', rfl, hw, -, hline'⟩ := hs.line_cases hline
  · exact hsame
  · rw [hline', List.cons.injEq] at hprinted
    rw [← hprinted.1] at hkept
    exact absurd hkept (not_kept_swapped hw)

/-- Where every match counts, a line stays exactly if the placeholder is not in it. -/
theorem line_eq_iff (hs : Fills s) (halways : s.flags = Subst.always) {l : List Char}
    (hline : '\n' ∉ l) : s.line l = [l] ↔ ¬ s.pattern <:+: l := by
  refine ⟨?_, Subst.line_of_not_infix halways hline⟩
  intro h
  obtain ⟨name, hname⟩ := hs.opens
  rw [← Subst.replaces_always halways (by simp [hname])]
  obtain ⟨-, hnone⟩ | ⟨a, b, rest, rfl, hmatch, -, hreplace⟩ := s.replace_cases 0 l
  · exact hnone
  · obtain ⟨more, hprinted⟩ := s.line_head (a ++ b)
    obtain ⟨b', w, rfl, hw, -, hhead⟩ := hs.word_of_match hline hmatch rest
    rw [hreplace, hhead, h, List.cons.injEq] at hprinted
    have hkept : Kept (a ++ w) (a ++ '<' :: b') := hprinted.1 ▸ Kept.refl _
    exact absurd hkept (not_kept_swapped hw)

end Fills

/-! ### A text in its place -/

/-- Two texts made of pieces are the same only piece by piece, if no piece can be longer than
the other one. -/
theorem flatMap_eq_iff {α β : Type} {g x : α → List β} {as : List α}
    (h : ∀ a ∈ as, ∀ {more more'}, g a ++ more = x a ++ more' → g a = x a) :
    as.flatMap g = as.flatMap x ↔ ∀ a ∈ as, g a = x a := by
  refine ⟨?_, fun h => List.flatMap_congr h⟩
  intro heq
  induction as with
  | nil => simp
  | cons a as ih =>
      rw [List.flatMap_cons, List.flatMap_cons] at heq
      have hhead := h a List.mem_cons_self heq
      rw [hhead] at heq
      have hrest := ih (fun b hb => h b (List.mem_cons_of_mem a hb)) (List.append_cancel_left heq)
      intro b hb
      rcases List.mem_cons.mp hb with rfl | hb
      · exact hhead
      · exact hrest b hb

theorem kept_behind {before y o : List Char} (hbefore : '<' ∉ before ∧ '\n' ∉ before)
    (h : Kept (before ++ y) (before ++ o)) : Kept y o := by
  induction before with
  | nil => exact h
  | cons c before ih =>
      simp only [List.mem_cons, not_or] at hbefore
      cases h with
      | keep h => exact ih ⟨hbefore.1.2, hbefore.2.2⟩ h
      | swap _ => exact absurd rfl hbefore.1.1

/-- A placeholder does not reach into what has none of its opening characters. -/
theorem infix_behind {before name text : List Char} (hbefore : '<' ∉ before) :
    '<' :: name <:+: before ++ text ↔ '<' :: name <:+: text := by
  refine ⟨?_, fun h => h.trans (List.suffix_append before text).isInfix⟩
  intro h
  induction before with
  | nil => exact h
  | cons c before ih =>
      rw [List.mem_cons, not_or] at hbefore
      rw [List.cons_append] at h
      rcases List.infix_cons_iff.mp h with h | h
      · rw [List.cons_prefix_cons] at h
        exact absurd h.1 hbefore.1
      · exact ih hbefore.2 h

/-- A line that ends in a placeholder. -/
structure Slot (before name : List Char) : Prop where
  before_open : '<' ∉ before
  before_line : '\n' ∉ before
  name_open : '<' ∉ name
  name_line : '\n' ∉ name
  name_clean : Clean name

variable {before name text : List Char} {s : Subst}

theorem line_slot (hslot : Slot before name) (hs : s.pattern = '<' :: name) (hclean : Clean text)
    (hreads : Reads text s) (hline : '\n' ∉ text) :
    s.line (before ++ '<' :: name) = [before ++ text] := by
  have heq := eq_clean_of_reads hclean hreads
  rw [← hs]
  refine Subst.line_end hs (by decide) hslot.name_open hslot.before_open ?_ ?_ ?_
  · rw [heq]
    rfl
  · rw [heq]
    rfl
  · exact List.not_mem_append hslot.before_line hline

/-- If the command replaces the placeholder, the line begins with what it puts in. -/
theorem line_of_hit (hslot : Slot before name) (hs : s.pattern = '<' :: name)
    (hhit : s.hit 1 = true) : ∃ more, s.line (before ++ '<' :: name)
      = (before ++ (expand ('<' :: name) .plain s.items).takeWhile (· != '\n')) :: more := by
  obtain ⟨hreplace, -⟩ := Subst.replace_end hs (by decide) hslot.name_open hslot.before_open
  rw [hs, if_pos hhit] at hreplace
  obtain ⟨more, hprinted⟩ := s.line_head (before ++ '<' :: name)
  have hall : ∀ c ∈ before, (c != '\n') = true := by
    intro c hc
    rw [bne_iff_ne]
    rintro rfl
    exact hslot.before_line hc
  have hexpansion : s.expansion ('<' :: name) = expand ('<' :: name) .plain s.items := by
    unfold Subst.expansion
    rw [hs, List.take_length]
  rw [hreplace, hexpansion, List.takeWhile_append_of_pos hall] at hprinted
  exact ⟨more, hprinted⟩

/-- If it does not, the placeholder stays. -/
theorem line_of_miss (hslot : Slot before name) (hs : s.pattern = '<' :: name)
    (hmiss : ¬ s.hit 1 = true) : s.line (before ++ '<' :: name) = [before ++ '<' :: name] := by
  obtain ⟨hreplace, hreplaces⟩ :=
    Subst.replace_end hs (by decide) hslot.name_open hslot.before_open
  rw [hs] at hreplace hreplaces
  rw [if_neg hmiss] at hreplace
  rw [Bool.not_eq_true] at hmiss
  rw [hmiss] at hreplaces
  have hbracket : '\n' ≠ '<' := by decide
  have hopenline : '\n' ∉ before ++ '<' :: name := by
    simp [hslot.before_line, hslot.name_line, hbracket]
  exact Subst.line_of_same hopenline ⟨hreplace, hreplaces⟩

/-- **A text stands in its place in the end only if it was clean, and if no later edit found
anything in the line.** -/
theorem clean_of_slot (hslot : Slot before name) (hs : s.pattern = '<' :: name)
    (hreads : Reads text s) (hline : '\n' ∉ text) (hedits : ∀ e ∈ edits, Edit.Keeps e)
    (hstrict : ∀ e ∈ edits, Edit.Strict e (before ++ text))
    (hopen : ∀ e ∈ edits, e (before ++ '<' :: name) = [before ++ '<' :: name])
    {more : List (List Char)}
    (h : edited (s.line :: edits) [before ++ '<' :: name] = (before ++ text) :: more) :
    Clean text ∧ ∀ e ∈ edits, e (before ++ text) = [before ++ text] := by
  have hbefore : '\n' ∉ before ++ text := List.not_mem_append hslot.before_line hline
  rw [edited_cons] at h
  by_cases hhit : s.hit 1 = true
  · obtain ⟨more₁, hprinted⟩ := line_of_hit hslot hs hhit
    have hword : '\n' ∉ before ++
        (expand ('<' :: name) .plain s.items).takeWhile (· != '\n') := by
      refine List.not_mem_append hslot.before_line fun hmem => ?_
      simpa using List.mem_takeWhile_imp hmem
    obtain ⟨h', more', hedited, hkept⟩ := edited_keeps hedits hword more₁
    rw [hprinted, hedited, List.cons.injEq] at h
    rw [h.1] at hkept
    have hclean : Clean text := by
      obtain ⟨behind, hread, -⟩ := hreads
      exact clean_of_kept hline hread
        (kept_behind ⟨hslot.before_open, hslot.before_line⟩ hkept).of_takeWhile
    refine ⟨hclean, ?_⟩
    rw [line_slot hslot hs hclean hreads hline, List.cons.injEq] at hprinted
    rw [← hprinted.1, ← hprinted.2, h.1] at hedited
    exact line_of_kept hedits hbefore hstrict hedited
  · -- Nothing was replaced, and the placeholder itself is the text.
    rw [line_of_miss hslot hs hhit, edited_of_same hopen, List.cons.injEq] at h
    have htext := List.append_cancel_left h.1
    refine ⟨?_, htext ▸ hopen⟩
    rw [← htext]
    intro c hc
    rcases List.mem_cons.mp hc with rfl | hc
    · decide
    · exact hslot.name_clean c hc

end SnpGuard.Placeholders
