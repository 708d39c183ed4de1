/-
`s#pattern#text#g` of GNU `sed`, with a text from outside.

The text is read as a replacement: an `&` stands for what was matched, a backslash gives the
next character a meaning or takes it away, and a `#` ends the replacement, so that what is
behind it is read as flags.  Flags can be unknown, and some of them make `sed` run more than
this command; what becomes of the lines then is not said here.  The pattern is a fixed text
that does not overlap itself.

A text without the three characters comes through as it is (`readReplacement_clean`), and a
line in which nothing was replaced stays (`line_cases`).  Escapes that give a character by
its number are left out.
-/
import Mathlib.Data.List.Infix

namespace Sed

/-! ### The replacement -/

inductive Case where
  | upper
  | lower
deriving DecidableEq

def Case.apply : Case → Char → Char
  | .upper => Char.toUpper
  | .lower => Char.toLower

/-- What is to be done to the next character, and to those behind it. -/
structure Casing where
  next : Option Case
  rest : Option Case
deriving DecidableEq

/-- `\u` and `\l`, `\U` and `\L`, `\E`. -/
inductive Change where
  | next (c : Case)
  | rest (c : Option Case)
deriving DecidableEq

def Casing.change (s : Casing) : Change → Casing
  | .next c => { s with next := some c }
  | .rest c => ⟨none, c⟩

def Casing.put (s : Casing) (c : Char) : Char :=
  match s.next, s.rest with
  | some m, _ => m.apply c
  | none, some m => m.apply c
  | none, none => c

/-- Behind a character. -/
def Casing.after (s : Casing) : Casing := { s with next := none }

def Casing.putAll (s : Casing) : List Char → List Char
  | [] => []
  | c :: cs => s.put c :: s.after.putAll cs

inductive Item where
  | put (c : Char)
  /-- What was matched. -/
  | whole
  | change (x : Change)
deriving DecidableEq

/-- What is put in the place of a match. -/
def expand (matched : List Char) : Casing → List Item → List Char
  | _, [] => []
  | s, .put c :: items => s.put c :: expand matched s.after items
  | s, .whole :: items => s.putAll matched ++ expand matched s.after items
  | s, .change x :: items => expand matched (s.change x) items

def Casing.plain : Casing := ⟨none, none⟩

/-- A backslash and a character.  There are no groups that a digit could stand for. -/
def escape (c : Char) : Option Item :=
  if c = '0' then some .whole
  else if c.isDigit then none
  else
    match c with
    | 'n' => some (.put '\n')
    | 't' => some (.put '\t')
    | 'r' => some (.put '\r')
    | 'a' => some (.put (Char.ofNat 7))
    | 'f' => some (.put (Char.ofNat 12))
    | 'v' => some (.put (Char.ofNat 11))
    | 'U' => some (.change (.rest (some .upper)))
    | 'L' => some (.change (.rest (some .lower)))
    | 'E' => some (.change (.rest none))
    | 'u' => some (.change (.next .upper))
    | 'l' => some (.change (.next .lower))
    | c => some (.put c)

def delimiter : Char := '#'

/-- The replacement up to the delimiter, and what is behind it; maybe behind a backslash. -/
def readReplacement : Bool → List Char → Option (List Item × List Char)
  | _, [] => none
  | true, c :: text =>
    (escape c).bind fun item => (readReplacement false text).map fun r => (item :: r.1, r.2)
  | false, c :: text =>
    if c = delimiter then some ([], text)
    else if c = '\\' then readReplacement true text
    else
      (readReplacement false text).map fun r => ((if c = '&' then .whole else .put c) :: r.1, r.2)

/-! ### The flags -/

structure Flags where
  global : Bool
  print : Bool
  ignoreCase : Bool
  /-- Which match is the first to be replaced. -/
  number : Option Nat
deriving DecidableEq

/-- What stands behind the replacement. -/
inductive Behind where
  | flags (f : Flags)
  /-- Not a flag, or one too many. -/
  | refused
  /-- A flag that runs the line or writes it to a file, or another command. -/
  | commands
deriving DecidableEq

/-- A `#` starts a comment. -/
def readFlags (f : Flags) (inNumber : Bool) : List Char → Behind
  | [] => if f.number = some 0 then .refused else .flags f
  | c :: text =>
    if c.isDigit then
      match f.number, inNumber with
      | none, _ => readFlags { f with number := some (c.toNat - 48) } true text
      | some n, true => readFlags { f with number := some (10 * n + (c.toNat - 48)) } true text
      | some _, false => .refused
    else if f.number = some 0 then .refused
    else
      match c with
      | '#' => .flags f
      | 'g' => if f.global then .refused else readFlags { f with global := true } false text
      | 'p' => if f.print then .refused else readFlags { f with print := true } false text
      | 'i' | 'I' => readFlags { f with ignoreCase := true } false text
      | 'm' | 'M' => readFlags f false text
      | 'e' | 'w' | ';' | '}' | ' ' | '\t' => .commands
      | _ => .refused

def Flags.none : Flags := ⟨false, false, false, Option.none⟩

/-! ### The command -/

/-- A command that could be read. -/
structure Subst where
  pattern : List Char
  items : List Item
  flags : Flags

/-- The text starts like this, for a way of comparing characters. -/
def startsWith (same : Char → Char → Bool) : List Char → List Char → Bool
  | [], _ => true
  | _ :: _, [] => false
  | p :: ps, c :: cs => same p c && startsWith same ps cs

namespace Subst

variable (s : Subst)

def same (p c : Char) : Bool := p == c || s.flags.ignoreCase && p.toLower == c.toLower

def matchesAt (text : List Char) : Bool := startsWith s.same s.pattern text

/-- Whether the `k`-th match is replaced. -/
def hit (k : Nat) : Bool :=
  let first := s.flags.number.getD 1
  k == first || s.flags.global && first < k

def expansion (text : List Char) : List Char :=
  expand (text.take s.pattern.length) .plain s.items

/-- Behind `n` matches, with `skip` characters of the last one ahead that are replaced. -/
def replace (n : Nat) : Nat → List Char → List Char
  | _, [] => []
  | skip + 1, _ :: text => replace n skip text
  | 0, c :: text =>
    if s.matchesAt (c :: text) then
      if s.hit (n + 1) then
        s.expansion (c :: text) ++ replace (n + 1) (s.pattern.length - 1) text
      else c :: replace (n + 1) 0 text
    else c :: replace n 0 text

/-- Whether anything is replaced. -/
def replaces (n : Nat) : List Char → Bool
  | [] => false
  | c :: text =>
    if s.matchesAt (c :: text) then s.hit (n + 1) || replaces (n + 1) text
    else replaces n text

/-- What is printed of a line. -/
def line (l : List Char) : List (List Char) :=
  let printed := (s.replace 0 0 l).splitOn '\n'
  if s.flags.print && s.replaces 0 l then printed ++ printed else printed

end Subst

/-- `sed "s#pattern#text#g"`, where `other` is what it makes of the lines with further
commands. -/
def substitute (other : List Char → List (List Char) → Option (List (List Char)))
    (pattern text : List Char) (lines : List (List Char)) : Option (List (List Char)) :=
  match readReplacement false (text ++ [delimiter, 'g']) with
  | none => none
  | some (items, behind) =>
    match readFlags .none false behind with
    | .flags flags => some (lines.flatMap (Subst.line ⟨pattern, items, flags⟩))
    | .refused => none
    | .commands => other (pattern ++ delimiter :: text) lines

/-! ### Characters that are no letters -/

theorem isAlpha_iff (d : Char) : d.isAlpha = true ↔
    'A'.val ≤ d.val ∧ d.val ≤ 'Z'.val ∨ 'a'.val ≤ d.val ∧ d.val ≤ 'z'.val := by
  show (decide ('A'.val ≤ d.val ∧ d.val ≤ 'Z'.val) ||
    (decide ('a'.val ≤ d.val) && decide (d.val ≤ 'z'.val))) = true ↔ _
  rw [Bool.or_eq_true, Bool.and_eq_true, decide_eq_true_eq, decide_eq_true_eq, decide_eq_true_eq]

theorem isAlpha_of_toNat {d : Char}
    (h : 65 ≤ d.toNat ∧ d.toNat ≤ 90 ∨ 97 ≤ d.toNat ∧ d.toNat ≤ 122) : d.isAlpha = true :=
  (isAlpha_iff d).mpr h

theorem eq_of_toLower {c d : Char} (hd : d.isAlpha = false) (h : c.toLower = d) : c = d := by
  unfold Char.toLower at h
  split at h
  · rename_i hupper
    have h65 : 65 ≤ c.toNat := hupper.1
    have h90 : c.toNat ≤ 90 := hupper.2
    have hval : d.toNat = c.toNat + 32 := by
      rw [← h]
      show (c.toNat + 32) % 2 ^ 32 = _
      omega
    have halpha := isAlpha_of_toNat (d := d) (.inr (by omega))
    rw [hd] at halpha
    exact absurd halpha (by decide)
  · exact h

theorem eq_of_toUpper {c d : Char} (hd : d.isAlpha = false) (h : c.toUpper = d) : c = d := by
  unfold Char.toUpper at h
  split at h
  · rename_i hlower
    have h97 : 97 ≤ c.toNat := hlower.1
    have h122 : c.toNat ≤ 122 := hlower.2
    have hval : d.toNat = c.toNat - 32 := by
      have hshift : ('A'.val - 'a'.val).toNat = 2 ^ 32 - 32 := by decide
      have hsum : d.toNat = (c.toNat + (2 ^ 32 - 32)) % 2 ^ 32 := by
        rw [← h, ← hshift]
        exact UInt32.toNat_add _ _
      rw [hsum]
      omega
    have halpha := isAlpha_of_toNat (d := d) (.inl (by omega))
    rw [hd] at halpha
    exact absurd halpha (by decide)
  · exact h

theorem Case.apply_eq_iff (m : Case) {c d : Char} (hd : d.isAlpha = false) :
    m.apply c = d ↔ c = d := by
  have hself : m.apply d = d := by
    rw [← Bool.not_eq_true, isAlpha_iff, not_or] at hd
    cases m with
    | upper => exact dif_neg hd.2
    | lower => exact dif_neg hd.1
  refine ⟨fun h => ?_, fun h => h ▸ hself⟩
  cases m with
  | upper => exact eq_of_toUpper hd h
  | lower => exact eq_of_toLower hd h

/-- They are put in as they are, and come from nothing else. -/
theorem Casing.put_eq_iff (s : Casing) {c d : Char} (hd : d.isAlpha = false) :
    s.put c = d ↔ c = d := by
  unfold Casing.put
  split
  · exact Case.apply_eq_iff _ hd
  · exact Case.apply_eq_iff _ hd
  · exact Iff.rfl

/-! ### Texts that come through as they are -/

/-- None of the characters that a replacement gives a meaning to. -/
def Clean (text : List Char) : Prop := ∀ c ∈ text, c ≠ delimiter ∧ c ≠ '&' ∧ c ≠ '\\'

instance (text : List Char) : Decidable (Clean text) :=
  List.decidableBAll (fun c => c ≠ delimiter ∧ c ≠ '&' ∧ c ≠ '\\') text

/-- How a replacement goes on. -/
theorem readReplacement_cons {c : Char} {text behind : List Char} {items : List Item}
    (h : readReplacement false (c :: text) = some (items, behind)) :
    (c = delimiter ∧ items = []) ∨
      (c = '\\' ∧ readReplacement true text = some (items, behind)) ∨
      ∃ items', readReplacement false text = some (items', behind) ∧
        ((c = '&' ∧ items = .whole :: items') ∨
          ((c ≠ delimiter ∧ c ≠ '&' ∧ c ≠ '\\') ∧ items = .put c :: items')) := by
  rw [readReplacement] at h
  split_ifs at h with hdelimiter hescape hwhole
  · exact .inl ⟨hdelimiter, by simpa using (Prod.mk.inj (Option.some.inj h)).1.symm⟩
  · exact .inr (.inl ⟨hescape, h⟩)
  all_goals
    rw [Option.map_eq_some_iff] at h
    obtain ⟨⟨items', behind'⟩, hread, heq⟩ := h
    rw [Prod.mk.injEq] at heq
    obtain ⟨rfl, rfl⟩ := heq
  · exact .inr (.inr ⟨items', hread, .inl ⟨hwhole, rfl⟩⟩)
  · exact .inr (.inr ⟨items', hread, .inr ⟨⟨hdelimiter, hwhole, hescape⟩, rfl⟩⟩)

/-- And how it does behind a backslash. -/
theorem readReplacement_escaped {c : Char} {text behind : List Char} {items : List Item}
    (h : readReplacement true (c :: text) = some (items, behind)) :
    ∃ item items', escape c = some item ∧ readReplacement false text = some (items', behind) ∧
      items = item :: items' := by
  rw [readReplacement, Option.bind_eq_some_iff] at h
  obtain ⟨item, hitem, h⟩ := h
  rw [Option.map_eq_some_iff] at h
  obtain ⟨⟨items', behind'⟩, hread, heq⟩ := h
  rw [Prod.mk.injEq] at heq
  obtain ⟨rfl, rfl⟩ := heq
  exact ⟨item, items', hitem, hread, rfl⟩

/-- A backslash in front of the delimiter that ends the command leaves it without an end. -/
theorem readReplacement_cut : readReplacement true [delimiter, 'g'] = none := by decide

theorem readReplacement_append {text : List Char} (h : Clean text) (behind : List Char) :
    readReplacement false (text ++ behind)
      = (readReplacement false behind).map fun r => (text.map .put ++ r.1, r.2) := by
  induction text with
  | nil => simp
  | cons c text ih =>
      obtain ⟨hdelimiter, hwhole, hescape⟩ := h c List.mem_cons_self
      have hrest := ih fun d hd => h d (List.mem_cons_of_mem c hd)
      rw [List.cons_append, readReplacement, if_neg hdelimiter, if_neg hescape, if_neg hwhole,
        hrest, Option.map_map]
      rfl

/-- **A clean text is the replacement, and the flag behind it is its own.** -/
theorem readReplacement_clean {text : List Char} (h : Clean text) :
    readReplacement false (text ++ [delimiter, 'g']) = some (text.map .put, ['g']) := by
  rw [readReplacement_append h]
  simp [readReplacement]

theorem expand_puts (matched text : List Char) (items : List Item) :
    expand matched .plain (text.map .put ++ items) = text ++ expand matched .plain items := by
  induction text with
  | nil => rfl
  | cons c text ih =>
      rw [List.map_cons, List.cons_append, expand]
      exact congrArg (c :: ·) ih

/-! ### What becomes of a line -/

namespace Subst

variable {s : Subst}

variable (s) in
/-- A text stays as it is, or changes from where a match was replaced. -/
theorem replace_cases (n : Nat) (text : List Char) :
    (s.replace n 0 text = text ∧ s.replaces n text = false) ∨
      ∃ a b rest, text = a ++ b ∧ s.matchesAt b = true ∧ b ≠ [] ∧
        s.replace n 0 text = a ++ (s.expansion b ++ rest) := by
  induction text generalizing n with
  | nil => exact .inl ⟨rfl, rfl⟩
  | cons c text ih =>
      have hkeep : ∀ m, (s.replace m 0 text = text ∧ s.replaces m text = false) ∨
          ∃ a b rest, c :: text = a ++ b ∧ s.matchesAt b = true ∧ b ≠ [] ∧
            c :: s.replace m 0 text = a ++ (s.expansion b ++ rest) := by
        intro m
        obtain h | ⟨a, b, rest, htext, hmatch, hne, hreplace⟩ := ih m
        · exact .inl h
        · exact .inr ⟨c :: a, b, rest, by rw [htext, List.cons_append], hmatch, hne,
            by rw [hreplace, List.cons_append]⟩
      by_cases hmatch : s.matchesAt (c :: text) = true
      · by_cases hhit : s.hit (n + 1) = true
        · refine .inr ⟨[], c :: text, s.replace (n + 1) (s.pattern.length - 1) text, rfl, hmatch,
            by simp, ?_⟩
          simp [replace, hmatch, hhit]
        · simpa [replace, replaces, hmatch, hhit] using hkeep (n + 1)
      · simpa [replace, replaces, hmatch] using hkeep n

/-- Where nothing matches, nothing is replaced. -/
theorem replace_of_no_match {text : List Char} (n : Nat)
    (h : ∀ b, b <:+ text → s.matchesAt b = false) :
    s.replace n 0 text = text ∧ s.replaces n text = false := by
  induction text with
  | nil => exact ⟨rfl, rfl⟩
  | cons c text ih =>
      have hhead := h (c :: text) List.suffix_rfl
      obtain ⟨hreplace, hreplaces⟩ := ih fun b hb => h b (hb.trans (List.suffix_cons c text))
      simp [replace, replaces, hhead, hreplace, hreplaces]

theorem splitOn_head (text : List Char) :
    ∃ more, text.splitOn '\n' = text.takeWhile (· != '\n') :: more := by
  induction text with
  | nil => exact ⟨[], rfl⟩
  | cons c text ih =>
      obtain ⟨more, hmore⟩ := ih
      rw [List.splitOn_cons_eq_if_modifyHead, hmore]
      by_cases hc : c = '\n'
      · exact ⟨text.takeWhile (· != '\n') :: more, by simp [hc]⟩
      · exact ⟨more, by simp [hc]⟩

/-- What is printed first of a line. -/
theorem line_head (l : List Char) :
    ∃ more, s.line l = (s.replace 0 0 l).takeWhile (· != '\n') :: more := by
  obtain ⟨more, hmore⟩ := splitOn_head (s.replace 0 0 l)
  simp only [line, hmore]
  by_cases hprint : (s.flags.print && s.replaces 0 l) = true
  · exact ⟨_, by rw [if_pos hprint, List.cons_append]⟩
  · exact ⟨_, by rw [if_neg hprint]⟩

theorem line_of_same {l : List Char} (hline : '\n' ∉ l)
    (h : s.replace 0 0 l = l ∧ s.replaces 0 l = false) : s.line l = [l] := by
  obtain ⟨hreplace, hreplaces⟩ := h
  simp [line, hreplace, hreplaces, List.splitOn_eq_singleton hline]

variable (s) in
/-- **A line stays, or it changes from where a match was replaced.** -/
theorem line_cases {l : List Char} (hline : '\n' ∉ l) :
    s.line l = [l] ∨ ∃ a b rest more, l = a ++ b ∧ s.matchesAt b = true ∧ b ≠ [] ∧
      s.line l = (a ++ (s.expansion b ++ rest)).takeWhile (· != '\n') :: more := by
  obtain h | ⟨a, b, rest, htext, hmatch, hne, hreplace⟩ := s.replace_cases 0 l
  · exact .inl (line_of_same hline h)
  · obtain ⟨more, hmore⟩ := s.line_head l
    exact .inr ⟨a, b, rest, more, htext, hmatch, hne, by rw [hmore, hreplace]⟩

/-! ### Patterns -/

/-- A character that is no letter matches itself only. -/
theorem same_eq {p c : Char} (hp : p.isAlpha = false) (h : s.same p c = true) : c = p := by
  have hlower : p.toLower = p := (Case.lower.apply_eq_iff hp).mpr rfl
  unfold same at h
  rw [Bool.or_eq_true, Bool.and_eq_true, beq_iff_eq, beq_iff_eq, hlower] at h
  rcases h with h | ⟨-, h⟩
  · exact h.symm
  · exact eq_of_toLower hp h.symm

/-- A match opens like the pattern. -/
theorem matchesAt_opens {p : Char} {name b : List Char} (hs : s.pattern = p :: name)
    (hp : p.isAlpha = false) (h : s.matchesAt b = true) : ∃ b', b = p :: b' := by
  unfold matchesAt at h
  rw [hs] at h
  cases b with
  | nil => simp [startsWith] at h
  | cons c b =>
      rw [startsWith, Bool.and_eq_true] at h
      exact ⟨b, by rw [same_eq hp h.1]⟩

/-- The pattern stands nowhere in a text, in upper or lower case. -/
def foreign (pattern text : List Char) : Bool :=
  text.tails.all fun b => !startsWith (fun p c => p.toLower == c.toLower) pattern b

theorem startsWith_mono {same same' : Char → Char → Bool}
    (h : ∀ p c, same p c = true → same' p c = true) :
    ∀ {p text : List Char}, startsWith same p text = true → startsWith same' p text = true
  | [], _, _ => by simp [startsWith]
  | _ :: _, [], hstarts => by simp [startsWith] at hstarts
  | _ :: _, _ :: _, hstarts => by
      rw [startsWith, Bool.and_eq_true] at hstarts ⊢
      exact ⟨h _ _ hstarts.1, startsWith_mono h hstarts.2⟩

theorem line_of_foreign {l : List Char} (hline : '\n' ∉ l) (h : foreign s.pattern l = true) :
    s.line l = [l] := by
  refine line_of_same hline (replace_of_no_match 0 fun b hb => ?_)
  have hb' := List.all_eq_true.mp h b ((List.mem_tails b l).mpr hb)
  rw [Bool.eq_false_iff]
  intro hmatch
  have hlower : ∀ p c, s.same p c = true → (p.toLower == c.toLower) = true := by
    intro p c hsame
    unfold same at hsame
    rw [Bool.or_eq_true, Bool.and_eq_true, beq_iff_eq] at hsame
    rcases hsame with rfl | ⟨-, hsame⟩
    · simp
    · exact hsame
  have hstarts := startsWith_mono hlower hmatch
  simp [hstarts] at hb'

theorem line_of_absent {p : Char} {name l : List Char} (hs : s.pattern = p :: name)
    (hp : p.isAlpha = false) (hline : '\n' ∉ l) (h : p ∉ l) : s.line l = [l] := by
  refine line_of_same hline (replace_of_no_match 0 fun b hb => ?_)
  rw [Bool.eq_false_iff]
  intro hmatch
  obtain ⟨b', rfl⟩ := matchesAt_opens hs hp hmatch
  exact h (hb.subset List.mem_cons_self)

/-! ### All matches -/

theorem startsWith_beq {p text : List Char} :
    startsWith (fun p c => p == c || false && p.toLower == c.toLower) p text = true ↔
      p <+: text := by
  induction p generalizing text with
  | nil => simp [startsWith]
  | cons c p ih =>
      cases text with
      | nil => simp [startsWith]
      | cons d text =>
          rw [startsWith, Bool.and_eq_true, ih, List.cons_prefix_cons]
          simp

/-- Where every match counts, a text in which nothing is replaced has none. -/
theorem no_match_of_replaces {text : List Char} {n : Nat} (hhit : ∀ k, s.hit (k + 1) = true)
    (h : s.replaces n text = false) : ∀ b, b <:+ text → b ≠ [] → s.matchesAt b = false := by
  induction text generalizing n with
  | nil => exact fun b hb hne => absurd (List.suffix_nil.mp hb) hne
  | cons c text ih =>
      intro b hb hne
      have hhead : s.matchesAt (c :: text) = false := by
        rw [Bool.eq_false_iff]
        intro hmatch
        simp [replaces, hmatch, hhit] at h
      rcases List.suffix_cons_iff.mp hb with rfl | hb
      · exact hhead
      · have hrest : s.replaces n text = false := by simpa [replaces, hhead] using h
        exact ih hrest b hb hne

/-- The flag of the script. -/
def always : Flags := ⟨true, false, false, Option.none⟩

theorem hit_always (hs : s.flags = always) (k : Nat) : s.hit (k + 1) = true := by
  rcases Nat.eq_zero_or_pos k with rfl | hk
  · simp [hit, hs, always]
  · simp [hit, hs, always, hk]

theorem matchesAt_always (hs : s.flags = always) {text : List Char} :
    s.matchesAt text = true ↔ s.pattern <+: text := by
  have hsame : s.same = fun p c => p == c || false && p.toLower == c.toLower := by
    funext p c
    simp [same, hs, always]
  unfold matchesAt
  rw [hsame, startsWith_beq]

/-- Where the pattern does not stand in a line, nothing is replaced, and elsewhere something. -/
theorem replaces_always (hs : s.flags = always) (hne : s.pattern ≠ []) {l : List Char} :
    s.replaces 0 l = false ↔ ¬ s.pattern <:+: l := by
  refine ⟨?_, ?_⟩
  · intro h hwithin
    obtain ⟨pre, post, rfl⟩ := hwithin
    have hmatch := no_match_of_replaces (hit_always hs) h (s.pattern ++ post)
      ⟨pre, by simp⟩ (by simp [hne])
    rw [Bool.eq_false_iff] at hmatch
    exact hmatch ((matchesAt_always hs).mpr (List.prefix_append _ _))
  · intro h
    refine (replace_of_no_match 0 fun b hb => ?_).2
    rw [Bool.eq_false_iff]
    intro hmatch
    exact h (((matchesAt_always hs).mp hmatch).isInfix.trans hb.isInfix)

theorem line_of_not_infix (hs : s.flags = always) {l : List Char} (hline : '\n' ∉ l)
    (h : ¬ s.pattern <:+: l) : s.line l = [l] := by
  refine line_of_same hline (replace_of_no_match 0 fun b hb => ?_)
  rw [Bool.eq_false_iff]
  intro hmatch
  exact h (((matchesAt_always hs).mp hmatch).isInfix.trans hb.isInfix)

/-! ### A line that ends in the pattern -/

theorem replace_skip (n : Nat) (text : List Char) : s.replace n text.length text = [] := by
  induction text with
  | nil => rfl
  | cons c text ih => rw [List.length_cons, replace, ih]

theorem startsWith_self {same : Char → Char → Bool} (h : ∀ c, same c c = true) (p : List Char) :
    startsWith same p p = true := by
  induction p with
  | nil => rfl
  | cons c p ih => rw [startsWith, h, ih, Bool.and_self]

/-- The only match is replaced or not. -/
theorem replace_end {p : Char} {name : List Char} (hs : s.pattern = p :: name)
    (hp : p.isAlpha = false) (hname : p ∉ name) {before : List Char} (hbefore : p ∉ before) :
    s.replace 0 0 (before ++ s.pattern)
        = before ++ (if s.hit 1 then s.expansion s.pattern else s.pattern) ∧
      s.replaces 0 (before ++ s.pattern) = s.hit 1 := by
  have hnone : ∀ {text : List Char}, p ∉ text → ∀ b, b <:+ text → b ≠ [] →
      s.matchesAt b = false := by
    intro text htext b hb hne
    rw [Bool.eq_false_iff]
    intro hmatch
    obtain ⟨b', rfl⟩ := matchesAt_opens hs hp hmatch
    exact htext (hb.subset List.mem_cons_self)
  induction before with
  | nil =>
      have hmatch : s.matchesAt s.pattern = true :=
        startsWith_self (fun c => by simp [same]) s.pattern
      have hlength : s.pattern.length - 1 = name.length := by rw [hs]; rfl
      have hrest : s.replace 1 0 name = name ∧ s.replaces 1 name = false := by
        refine replace_of_no_match 1 fun b hb => ?_
        cases b with
        | nil =>
            unfold matchesAt
            rw [hs]
            rfl
        | cons c b => exact hnone hname _ hb (by simp)
      rw [hs] at hmatch
      rw [List.nil_append, List.nil_append, hs, replace, replaces, if_pos hmatch, if_pos hmatch,
        hlength, replace_skip, hrest.1, hrest.2, List.append_nil, Bool.or_false]
      exact ⟨rfl, rfl⟩
  | cons c before ih =>
      rw [List.mem_cons, not_or] at hbefore
      obtain ⟨hreplace, hreplaces⟩ := ih hbefore.2
      have hhead : s.matchesAt (c :: (before ++ s.pattern)) = false := by
        rw [Bool.eq_false_iff]
        intro hmatch
        obtain ⟨b', heq⟩ := matchesAt_opens hs hp hmatch
        exact hbefore.1 (List.cons.inj heq).1.symm
      rw [List.cons_append, replace, replaces, hhead, hreplace, hreplaces]
      exact ⟨rfl, rfl⟩

/-- A clean text takes the place of the pattern. -/
theorem line_end {p : Char} {name : List Char} (hs : s.pattern = p :: name)
    (hp : p.isAlpha = false) (hname : p ∉ name) {before text : List Char} (hbefore : p ∉ before)
    (hitems : s.items = text.map .put) (hflags : s.flags = always)
    (hline : '\n' ∉ before ++ text) : s.line (before ++ s.pattern) = [before ++ text] := by
  obtain ⟨hreplace, -⟩ := replace_end hs hp hname hbefore
  have hexpansion : s.expansion s.pattern = text := by
    have hputs := expand_puts (s.pattern.take s.pattern.length) text []
    unfold expansion
    rw [hitems]
    rw [List.append_nil, expand, List.append_nil] at hputs
    exact hputs
  rw [hit_always hflags 0, if_pos rfl, hexpansion] at hreplace
  unfold line
  rw [hreplace, hflags, List.splitOn_eq_singleton hline]
  rfl

end Subst

/-! ### The command that was read -/

/-- What `sed` makes of the text as a replacement and flags. -/
def Reads (text : List Char) (s : Subst) : Prop :=
  ∃ behind, readReplacement false (text ++ [delimiter, 'g']) = some (s.items, behind) ∧
    readFlags .none false behind = .flags s.flags

/-- The text has `sed` run something, write to a file, or take further commands. -/
def Runs (text : List Char) : Prop :=
  ∃ items behind, readReplacement false (text ++ [delimiter, 'g']) = some (items, behind) ∧
    readFlags .none false behind = .commands

variable {other : List Char → List (List Char) → Option (List (List Char))}
  {pattern text : List Char} {lines out : List (List Char)}

theorem reads_of_substitute (hruns : ¬ Runs text)
    (h : substitute other pattern text lines = some out) :
    ∃ s : Subst, s.pattern = pattern ∧ Reads text s ∧ out = lines.flatMap s.line := by
  unfold substitute at h
  cases hread : readReplacement false (text ++ [delimiter, 'g']) with
  | none => simp [hread] at h
  | some r =>
      obtain ⟨items, behind⟩ := r
      simp only [hread] at h
      cases hflags : readFlags .none false behind with
      | flags flags =>
          simp only [hflags, Option.some.injEq] at h
          exact ⟨⟨pattern, items, flags⟩, rfl, ⟨behind, hread, hflags⟩, h.symm⟩
      | refused => simp [hflags] at h
      | commands => exact absurd ⟨items, behind, hread, hflags⟩ hruns

/-- The command that a clean text makes. -/
def Subst.clean (pattern text : List Char) : Subst := ⟨pattern, text.map .put, Subst.always⟩

theorem substitute_clean (h : Clean text) :
    substitute other pattern text lines
      = some (lines.flatMap (Subst.clean pattern text).line) := by
  unfold substitute
  rw [readReplacement_clean h]
  rfl

theorem eq_clean_of_reads {s : Subst} (h : Clean text) (hreads : Reads text s) :
    s = Subst.clean s.pattern text := by
  obtain ⟨behind, hread, hflags⟩ := hreads
  obtain ⟨p, items, flags⟩ := s
  rw [readReplacement_clean h, Option.some.injEq, Prod.mk.injEq] at hread
  obtain ⟨rfl, rfl⟩ := hread
  have hg : Behind.flags Subst.always = .flags flags := hflags
  rw [Behind.flags.injEq] at hg
  rw [← hg]
  rfl

theorem not_runs_of_clean (h : Clean text) : ¬ Runs text := by
  intro hruns
  obtain ⟨items, behind, hread, hflags⟩ := hruns
  rw [readReplacement_clean h, Option.some.injEq, Prod.mk.injEq] at hread
  rw [← hread.2] at hflags
  exact absurd hflags (by decide)

end Sed
