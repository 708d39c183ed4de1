/-
The words of a command line, as bash reads it from a file.

Words end at blanks, and quotes and backslashes are removed from them.  The reader takes one
character after the other, and stops where there is more to do than that: at an expansion, an
operator, a comment or a second line.

What a text has to look like to be read as it stands is a condition on its characters: `Bare`
outside quotes, `Quoted` within double quotes.  Such a text comes out as it went in (`run_inert`,
`run_quotedFrom`).  The converse holds for runs that remove no single quote and no backslash
(`quiet_of_run`, `quotedFrom_of_run`).
-/
import Mathlib.Data.List.Chain
import SnpGuard.Lib.Words

namespace CommandLine

open Words

/-! ### The reader -/

/-- A word, each character with whether it was quoted. -/
abbrev Word := List (Char × Bool)

namespace Word

def text (word : Word) : List Char := word.map Prod.fst

def marked (quoted : Bool) (t : List Char) : Word := t.map fun c => (c, quoted)

@[simp] theorem text_marked (quoted : Bool) (t : List Char) : (marked quoted t).text = t := by
  unfold text marked
  rw [List.map_map]
  exact List.map_id t

theorem marked_append (quoted : Bool) (a b : List Char) :
    marked quoted (a ++ b) = marked quoted a ++ marked quoted b := List.map_append

end Word

open Word

/-- Where the reader stands: outside quotes, or behind a dollar sign or a backslash there, in
single quotes, or in double quotes. -/
inductive Mode where
  | bare
  | dollar
  | escape
  | single
  | double
  | doubleDollar
  | doubleEscape
deriving DecidableEq

structure State where
  /-- The words that have ended. -/
  words : List Word
  /-- The word that is being read. -/
  word : Option Word
  mode : Mode
deriving DecidableEq

namespace State

def initial : State := ⟨[], none, .bare⟩

def add (s : State) (c : Char) (quoted : Bool) : State :=
  { s with word := some (s.word.getD [] ++ [(c, quoted)]) }

/-- A quote starts a word, even if nothing is in it. -/
def start (s : State) : State := { s with word := some (s.word.getD []) }

/-- The word ends here, if there is one. -/
def close (s : State) : State := { s with words := s.words ++ s.word.toList, word := none }

def enter (s : State) (m : Mode) : State := { s with mode := m }

end State

/-- What ends a command, joins it with another or redirects it. -/
def isOperator (c : Char) : Bool :=
  c == ';' || c == '&' || c == '|' || c == '<' || c == '>' || c == '(' || c == ')'

/-- What makes an expansion of the dollar sign in front of it, also within double quotes. -/
def opens (c : Char) : Bool :=
  c.isAlphanum || c == '_' || c == '{' || c == '(' || c == '[' || c == '*' || c == '@' ||
    c == '#' || c == '?' || c == '-' || c == '$' || c == '!'

/-- Outside quotes, `$'..'` and `$".."` are expansions as well. -/
def opensBare (c : Char) : Bool := opens c || c == '\'' || c == '"'

/-- What a backslash escapes within double quotes. -/
def escapes (c : Char) : Bool := c == '$' || c == '`' || c == '"' || c == '\\' || c == '\n'

/-- Where a character leads that stands for itself. -/
def after (c : Char) (pendingDollar other : Mode) : Mode :=
  if c = '$' then pendingDollar else other

theorem after_ne {c : Char} {m m' other : Mode} (h : m ≠ other) (h' : m' ≠ other) :
    after c m m' ≠ other := by
  unfold after
  split_ifs <;> assumption

open State

/-- One character outside quotes. -/
def stepBare (s : State) (c : Char) : Option State :=
  if c = ' ' ∨ c = '\t' then some (s.close.enter .bare)
  else if c = '\'' then some (s.start.enter .single)
  else if c = '"' then some (s.start.enter .double)
  else if c = '\\' then some (s.enter .escape)
  else if c = '\n' ∨ c = '`' ∨ isOperator c = true ∨ (c = '#' ∧ s.word = none) then none
  else some ((s.add c false).enter (after c .dollar .bare))

/-- One character within double quotes. -/
def stepDouble (s : State) (c : Char) : Option State :=
  if c = '"' then some (s.enter .bare)
  else if c = '`' then none
  else if c = '\\' then some (s.enter .doubleEscape)
  else some ((s.add c true).enter (after c .doubleDollar .double))

/-- One character; `none` if the line is more than words from there on. -/
def step (s : State) (c : Char) : Option State :=
  match s.mode with
  | .bare => stepBare s c
  | .dollar => if opensBare c then none else stepBare s c
  | .escape =>
    if c = '\n' then some (s.enter .bare) else some ((s.add c true).enter .bare)
  | .single => if c = '\'' then some (s.enter .bare) else some (s.add c true)
  | .double => stepDouble s c
  | .doubleDollar => if opens c then none else stepDouble s c
  | .doubleEscape =>
    if c = '\n' then some (s.enter .double)
    else if escapes c then some ((s.add c true).enter .double)
    else some (((s.add '\\' true).add c true).enter .double)

def run (s : State) (text : List Char) : Option State := text.foldlM step s

/-- The words at the end of the text; a quote must not be open. -/
def finish (s : State) : Option (List Word) :=
  match s.mode with
  | .bare => some s.close.words
  | .dollar => some s.close.words
  | .escape => some (s.add '\\' false).close.words
  | _ => none

/-- The words of a command line that begins with the path of a program, and of which nothing
but words is left. -/
def read (text : List Char) : Option (List Word) := (run .initial text).bind finish

theorem run_append (s : State) (a b : List Char) :
    run s (a ++ b) = (run s a).bind fun s' => run s' b := by
  unfold run
  rw [List.foldlM_append]
  rfl

@[simp] theorem run_nil (s : State) : run s [] = some s := rfl

theorem run_cons (s : State) (c : Char) (t : List Char) :
    run s (c :: t) = (step s c).bind fun s' => run s' t := by
  unfold run
  rw [List.foldlM_cons]
  rfl

theorem run_append_eq_some {s s' : State} {a b : List Char} :
    run s (a ++ b) = some s' ↔ ∃ t, run s a = some t ∧ run t b = some s' := by
  rw [run_append, Option.bind_eq_some_iff]

theorem run_cons_eq_some {s s' : State} {c : Char} {t : List Char} :
    run s (c :: t) = some s' ↔ ∃ s₁, step s c = some s₁ ∧ run s₁ t = some s' := by
  rw [run_cons, Option.bind_eq_some_iff]

/-! ### Nothing is added -/

namespace State

/-- What is in the words. -/
def text (s : State) : List Char := ((s.words ++ s.word.toList).map Word.text).flatten

@[simp] theorem text_add (s : State) (c : Char) (quoted : Bool) :
    (s.add c quoted).text = s.text ++ [c] := by
  cases hword : s.word <;> simp [text, add, hword, Word.text]

@[simp] theorem text_start (s : State) : s.start.text = s.text := by
  cases hword : s.word <;> simp [text, start, hword, Word.text]

@[simp] theorem text_close (s : State) : s.close.text = s.text := by
  simp [text, close]

@[simp] theorem text_enter (s : State) (m : Mode) : (s.enter m).text = s.text := rfl

@[simp] theorem mode_enter (s : State) (m : Mode) : (s.enter m).mode = m := rfl

@[simp] theorem mode_add (s : State) (c : Char) (quoted : Bool) :
    (s.add c quoted).mode = s.mode := rfl

/-- A backslash of which it is still open whether it is removed. -/
def pending : Mode → List Char
  | .escape => ['\\']
  | .doubleEscape => ['\\']
  | _ => []

@[simp] theorem pending_escape : pending .escape = ['\\'] := rfl
@[simp] theorem pending_doubleEscape : pending .doubleEscape = ['\\'] := rfl
@[simp] theorem pending_bare : pending .bare = [] := rfl
@[simp] theorem pending_single : pending .single = [] := rfl
@[simp] theorem pending_double : pending .double = [] := rfl
@[simp] theorem pending_doubleDollar : pending .doubleDollar = [] := rfl

@[simp] theorem pending_afterBare (c : Char) : pending (after c .dollar .bare) = [] := by
  unfold after
  split_ifs <;> rfl

@[simp] theorem pending_afterDouble (c : Char) : pending (after c .doubleDollar .double) = [] := by
  unfold after
  split_ifs <;> rfl

def chars (s : State) : List Char := s.text ++ pending s.mode

theorem chars_eq {s : State} (h : pending s.mode = []) : s.chars = s.text := by
  rw [chars, h, List.append_nil]

@[simp] theorem chars_enter (s : State) (m : Mode) :
    (s.enter m).chars = s.text ++ pending m := rfl

end State

/-- Outside quotes and within double quotes, a character is added or left out. -/
theorem chars_stepBare {s s' : State} {c : Char} (h : stepBare s c = some s') :
    s'.chars = s.text ∨ s'.chars = s.text ++ [c] := by
  unfold stepBare at h
  split_ifs at h with hblank hsingle hdouble hescape hstop
  all_goals
    cases h
    simp [chars]
  exact hescape.symm

theorem chars_stepDouble {s s' : State} {c : Char} (h : stepDouble s c = some s') :
    s'.chars = s.text ∨ s'.chars = s.text ++ [c] := by
  unfold stepDouble at h
  split_ifs at h with hdouble hstop hescape
  all_goals
    cases h
    simp [chars]
  exact hescape.symm

/-- In general, what is pending may also be kept. -/
theorem chars_step {s s' : State} {c : Char} (h : step s c = some s') :
    s'.chars = s.text ∨ s'.chars = s.text ++ [c] ∨ s'.chars = s.chars ++ [c] := by
  have hbare : stepBare s c = some s' →
      s'.chars = s.text ∨ s'.chars = s.text ++ [c] ∨ s'.chars = s.chars ++ [c] :=
    fun h => (chars_stepBare h).imp_right .inl
  have hdouble : stepDouble s c = some s' →
      s'.chars = s.text ∨ s'.chars = s.text ++ [c] ∨ s'.chars = s.chars ++ [c] :=
    fun h => (chars_stepDouble h).imp_right .inl
  unfold step at h
  cases hmode : s.mode with
  | bare =>
      simp only [hmode] at h
      exact hbare h
  | dollar =>
      simp only [hmode] at h
      split_ifs at h
      exact hbare h
  | escape =>
      simp only [hmode] at h
      split_ifs at h <;> cases h <;> simp
  | single =>
      simp only [hmode] at h
      split_ifs at h <;> cases h <;> simp [chars, hmode]
  | double =>
      simp only [hmode] at h
      exact hdouble h
  | doubleDollar =>
      simp only [hmode] at h
      split_ifs at h
      exact hdouble h
  | doubleEscape =>
      simp only [hmode] at h
      split_ifs at h <;> cases h
      · simp
      · simp
      · -- A backslash before anything else stays.
        simp [chars, hmode]

theorem count_step {s s' : State} {c : Char} (h : step s c = some s') (d : Char) :
    s'.chars.count d ≤ s.chars.count d + [c].count d := by
  have htext : s.text.count d ≤ s.chars.count d := by
    rw [chars, List.count_append]
    omega
  rcases chars_step h with heq | heq | heq
  · rw [heq]
    omega
  · rw [heq, List.count_append]
    omega
  · rw [heq, List.count_append]

/-- **A run brings no character into the words that is not in the text.** -/
theorem count_run {text : List Char} : ∀ {s s' : State}, run s text = some s' → ∀ d,
    s'.chars.count d ≤ s.chars.count d + text.count d := by
  induction text with
  | nil =>
      intro s s' h d
      cases h
      simp
  | cons c text ih =>
      intro s s' h d
      obtain ⟨s₁, hstep, hrun⟩ := run_cons_eq_some.mp h
      have hfirst := count_step hstep d
      have hrest := ih hrun d
      rw [← List.singleton_append, List.count_append]
      omega

/-! ### Runs that keep everything -/

/-- No single quote and no backslash is removed. -/
def Keeps (s : State) (text : List Char) (s' : State) : Prop :=
  ∀ d, d = '\'' ∨ d = '\\' → s'.chars.count d = s.chars.count d + text.count d

theorem Keeps.append {s t s' : State} {a b : List Char} (ha : run s a = some t)
    (hb : run t b = some s') (h : Keeps s (a ++ b) s') : Keeps s a t ∧ Keeps t b s' := by
  have hsplit : ∀ d, d = '\'' ∨ d = '\\' →
      t.chars.count d = s.chars.count d + a.count d ∧
        s'.chars.count d = t.chars.count d + b.count d := by
    intro d hd
    have htotal := h d hd
    have hfirst := count_run ha d
    have hrest := count_run hb d
    rw [List.count_append] at htotal
    omega
  exact ⟨fun d hd => (hsplit d hd).1, fun d hd => (hsplit d hd).2⟩

theorem Keeps.cons {s t s' : State} {c : Char} {text : List Char} (hstep : step s c = some t)
    (hrun : run t text = some s') (h : Keeps s (c :: text) s') :
    Keeps s [c] t ∧ Keeps t text s' :=
  h.append (a := [c]) (by rw [run_cons, hstep]; rfl) hrun

/-- A backslash outside quotes is always removed. -/
theorem not_keeps_escape {s s' : State} {c : Char} (hmode : s.mode = .escape)
    (h : step s c = some s') : ¬ Keeps s [c] s' := by
  intro hkeeps
  have hcount := hkeeps '\\' (.inr rfl)
  unfold step at h
  rw [hmode] at h
  simp only at h
  split_ifs at h with hnewline
  · cases h
    simp [chars, hmode] at hcount
    omega
  · cases h
    simp [chars, hmode] at hcount

/-- Where everything is kept, double quotes are removed: all that could save them is a single
quote or a backslash. -/
theorem Keeps.stepBare {s s' : State} {c : Char} (hpending : pending s.mode = [])
    (h : stepBare s c = some s') (hkeeps : Keeps s [c] s') :
    s'.mode ≠ .single ∧ s'.chars.count '"' = s.chars.count '"' := by
  have hcount := hkeeps '\'' (.inl rfl)
  rw [chars_eq hpending] at hcount ⊢
  unfold CommandLine.stepBare at h
  split_ifs at h with hblank hsingle hdouble hescape hstop
  all_goals cases h
  · simp
  · simp [hsingle] at hcount
  · simp
  · simp
  · exact ⟨after_ne (by decide) (by decide), by simp [hdouble]⟩

theorem quotes_stepDouble {s s' : State} {c : Char} (hpending : pending s.mode = [])
    (h : stepDouble s c = some s') :
    s'.mode ≠ .single ∧ s'.chars.count '"' = s.chars.count '"' := by
  rw [chars_eq hpending]
  unfold stepDouble at h
  split_ifs at h with hdouble hstop hescape
  all_goals cases h
  · simp
  · simp
  · exact ⟨after_ne (by decide) (by decide), by simp [hdouble]⟩

/-- Within double quotes, the backslash stays only if it escapes nothing. -/
theorem Keeps.escape {s s' : State} {c : Char} (hmode : s.mode = .doubleEscape)
    (h : step s c = some s') (hkeeps : Keeps s [c] s') :
    escapes c = false ∧ s' = (((s.add '\\' true).add c true).enter .double) := by
  have hcount := hkeeps '\\' (.inr rfl)
  unfold step at h
  rw [hmode] at h
  simp only at h
  split_ifs at h with hnewline hescapes
  · cases h
    simp [chars, hmode] at hcount
    omega
  · cases h
    simp [chars, hmode] at hcount
  · cases h
    exact ⟨by simpa using hescapes, rfl⟩

theorem Keeps.quotes_step {s s' : State} {c : Char} (hmode : s.mode ≠ .single)
    (h : step s c = some s') (hkeeps : Keeps s [c] s') :
    s'.mode ≠ .single ∧ s'.chars.count '"' = s.chars.count '"' := by
  cases hm : s.mode with
  | single => exact absurd hm hmode
  | escape => exact absurd hkeeps (not_keeps_escape hm h)
  | doubleEscape =>
      obtain ⟨hescapes, rfl⟩ := hkeeps.escape hm h
      have hc : c ≠ '"' := by
        rintro rfl
        exact absurd hescapes (by decide)
      simp [chars, hm, hc]
  | bare =>
      rw [step, hm] at h
      exact hkeeps.stepBare (by rw [hm]; rfl) h
  | dollar =>
      rw [step, hm] at h
      simp only at h
      split_ifs at h
      exact hkeeps.stepBare (by rw [hm]; rfl) h
  | double =>
      rw [step, hm] at h
      exact quotes_stepDouble (by rw [hm]; rfl) h
  | doubleDollar =>
      rw [step, hm] at h
      simp only at h
      split_ifs at h
      exact quotes_stepDouble (by rw [hm]; rfl) h

theorem Keeps.quotes_run {text : List Char} : ∀ {s s' : State}, s.mode ≠ .single →
    run s text = some s' → Keeps s text s' → s'.chars.count '"' = s.chars.count '"' := by
  induction text with
  | nil =>
      intro s s' _ h _
      cases h
      rfl
  | cons c text ih =>
      intro s s' hmode h hkeeps
      obtain ⟨s₁, hstep, hrun⟩ := run_cons_eq_some.mp h
      obtain ⟨hfirst, hrest⟩ := hkeeps.cons hstep hrun
      obtain ⟨hmode₁, hquotes⟩ := hfirst.quotes_step hmode hstep
      rw [ih hmode₁ hrun hrest, hquotes]

/-! ### Outside quotes -/

/-- What does not stand for itself outside quotes, wherever it is. -/
def isSpecial (c : Char) : Bool :=
  c == '\'' || c == '"' || c == '\\' || c == '\n' || c == '`' || isOperator c

/-- The second character makes no expansion of the first. -/
def NoExpansion (a b : Char) : Prop := a = '$' → opensBare b = false

/-- Outside quotes, only blanks in it are read as anything but themselves. -/
structure Quiet (v : List Char) : Prop where
  chars : ∀ c ∈ v, isSpecial c = false
  dollars : v.IsChain NoExpansion
  comment : v.head? ≠ some '#'

/-- What is one word outside quotes, and stands for itself. -/
structure Bare (v : List Char) : Prop extends Quiet v where
  nonempty : v ≠ []
  blanks : ∀ c ∈ v, isBlank c = false

/-- The word that has been read, if any. -/
def ended (acc : List Char) : List Word := if acc = [] then [] else [marked false acc]

/-- The reader outside quotes, behind `acc`. -/
def reading (done : List Word) (acc : List Char) (m : Mode) : State :=
  ⟨done, (ended acc).head?, m⟩

theorem ended_eq_words {acc : List Char} (h : ∀ c ∈ acc, isBlank c = false) :
    ended acc = (words acc).map (marked false) := by
  unfold ended
  split_ifs with hacc
  · rw [hacc, words_nil, List.map_nil]
  · rw [words_of_plain h hacc, List.map_singleton]

theorem reading_close (done : List Word) (acc : List Char) (m : Mode) :
    (reading done acc m).close.enter .bare = reading (done ++ ended acc) [] .bare := by
  by_cases hacc : acc = []
  · simp [reading, ended, hacc, close, enter]
  · simp [reading, ended, hacc, close, enter]

theorem reading_add (done : List Word) (acc : List Char) (m m' : Mode) (c : Char) :
    ((reading done acc m).add c false).enter m' = reading done (acc ++ [c]) m' := by
  have hne : acc ++ [c] ≠ [] := by simp
  unfold reading ended
  rw [if_neg hne, marked_append]
  split_ifs with hacc
  · rw [hacc]
    rfl
  · rfl

/-- One character that is no quote and no backslash. -/
theorem step_reading (done : List Word) (acc : List Char) {m : Mode} {c : Char}
    (hm : m = .bare ∨ m = .dollar) (hsingle : c ≠ '\'') (hdouble : c ≠ '"') (hescape : c ≠ '\\')
    {s' : State} :
    step (reading done acc m) c = some s' ↔ (m = .dollar → opensBare c = false) ∧
      ((isBlank c = true ∧ c ≠ '\n' ∧ s' = reading (done ++ ended acc) [] .bare) ∨
        (isBlank c = false ∧ isSpecial c = false ∧ (acc = [] → c ≠ '#') ∧
          s' = reading done (acc ++ [c]) (after c .dollar .bare))) := by
  have hbare : stepBare (reading done acc m) c = some s' ↔
      (isBlank c = true ∧ c ≠ '\n' ∧ s' = reading (done ++ ended acc) [] .bare) ∨
        (isBlank c = false ∧ isSpecial c = false ∧ (acc = [] → c ≠ '#') ∧
          s' = reading done (acc ++ [c]) (after c .dollar .bare)) := by
    have hword : (reading done acc m).word = none ↔ acc = [] := by
      by_cases hacc : acc = []
      · simp [reading, ended, hacc]
      · simp [reading, ended, hacc]
    unfold stepBare
    rw [if_neg hsingle, if_neg hdouble, if_neg hescape, reading_close, reading_add]
    simp only [hword]
    split_ifs with hblank hstop
    · have hisBlank : isBlank c = true ∧ c ≠ '\n' := by
        rcases hblank with rfl | rfl
        · decide
        · decide
      rw [Option.some.injEq]
      simp only [hisBlank, ne_eq, not_false_eq_true, true_and, Bool.true_eq_false, false_and,
        or_false]
      exact eq_comm
    · have hnewline : isBlank c = true → c = '\n' := by simp [isBlank, hblank]
      refine iff_of_false (by simp) ?_
      rintro (⟨hb, hne, -⟩ | ⟨hb, hspecial, hcomment, -⟩)
      · exact hne (hnewline hb)
      · rcases hstop with rfl | rfl | hop | ⟨rfl, hacc⟩
        · exact absurd hb (by decide)
        · exact absurd hspecial (by decide)
        · simp [isSpecial, hop] at hspecial
        · exact hcomment hacc rfl
    · rw [not_or, not_or, not_or] at hstop
      obtain ⟨hnewline, hback, hop, hcomment⟩ := hstop
      rw [not_or] at hblank
      have hb : isBlank c = false := by simp [isBlank, hblank, hnewline]
      have hspecial : isSpecial c = false := by
        simp [isSpecial, hsingle, hdouble, hescape, hnewline, hback, hop]
      have hhash : acc = [] → c ≠ '#' := fun hacc hc => hcomment ⟨hc, hacc⟩
      rw [Option.some.injEq]
      simp only [hb, hspecial, Bool.false_eq_true, false_and, true_and, false_or]
      exact ⟨fun h => ⟨hhash, h.symm⟩, fun h => h.2.symm⟩
  rcases hm with rfl | rfl
  · rw [← hbare]
    simp [step, reading]
  · rw [← hbare]
    cases hopens : opensBare c <;> simp [step, reading, hopens]

theorem after_bare_or_dollar {c : Char} :
    after c .dollar .bare = .bare ∨ after c .dollar .bare = .dollar := by
  unfold after
  split_ifs
  · exact .inr rfl
  · exact .inl rfl

/-- The mode behind a character, as a condition on the one that follows. -/
theorem after_condition {c : Char} {v : List Char} :
    (after c .dollar .bare = .dollar → ∀ d ∈ v.head?, opensBare d = false) ↔
      ∀ d ∈ v.head?, NoExpansion c d := by
  unfold after NoExpansion
  split_ifs with hc
  · simp [hc]
  · simp [hc]

/-- What is inert comes out as one word. -/
theorem run_inert {v : List Char} : ∀ {done : List Word} {acc : List Char} {m : Mode},
    (m = .bare ∨ m = .dollar) → (∀ c ∈ v, isSpecial c = false) →
    (∀ c ∈ v, isBlank c = false) → v.IsChain NoExpansion →
    (m = .dollar → ∀ d ∈ v.head?, opensBare d = false) → (acc = [] → v.head? ≠ some '#') →
    run (reading done acc m) (v ++ [' ']) = some (reading (done ++ ended (acc ++ v)) [] .bare) := by
  induction v with
  | nil =>
      intro done acc m hm _ _ _ _ _
      have hstep := (step_reading done acc (c := ' ') hm (by decide) (by decide)
        (by decide)).mpr ⟨fun _ => by decide, .inl ⟨by decide, by decide, rfl⟩⟩
      rw [List.nil_append, run_cons, hstep, List.append_nil]
      rfl
  | cons c v ih =>
      intro done acc m hm hspecial hblank hchain hdollar hcomment
      have hc := hspecial c List.mem_cons_self
      have hne : c ≠ '\'' ∧ c ≠ '"' ∧ c ≠ '\\' := by
        simp only [isSpecial, Bool.or_eq_false_iff, beq_eq_false_iff_ne] at hc
        exact ⟨hc.1.1.1.1.1, hc.1.1.1.1.2, hc.1.1.1.2⟩
      have hstep := (step_reading done acc hm hne.1 hne.2.1 hne.2.2).mpr
        ⟨fun h => hdollar h c rfl, .inr ⟨hblank c List.mem_cons_self, hc,
          fun h => by simpa using hcomment h, rfl⟩⟩
      rw [List.isChain_cons] at hchain
      rw [List.cons_append, run_cons, hstep, Option.bind_some,
        ih after_bare_or_dollar (fun d hd => hspecial d (List.mem_cons_of_mem c hd))
          (fun d hd => hblank d (List.mem_cons_of_mem c hd)) hchain.2
          (after_condition.mpr hchain.1) (by simp), List.append_assoc]
      rfl

/-- Outside quotes, a quote is removed. -/
theorem Keeps.no_single {s s₁ : State} {c : Char} (hm : s.mode = .bare ∨ s.mode = .dollar)
    (hstep : step s c = some s₁) (hkeeps : Keeps s [c] s₁) : c ≠ '\'' := by
  rintro rfl
  have hcount := hkeeps '\'' (.inl rfl)
  rcases hm with hm | hm
  · rw [step, hm] at hstep
    cases hstep
    simp [chars, hm] at hcount
  · rw [step, hm] at hstep
    cases hstep

/-- So is a backslash, as soon as the next character is read. -/
theorem Keeps.no_escape {s s₁ s' : State} {c d : Char} {rest : List Char}
    (hm : s.mode = .bare ∨ s.mode = .dollar) (hstep : step s c = some s₁)
    (hrun : run s₁ (d :: rest) = some s') (hkeeps : Keeps s₁ (d :: rest) s') : c ≠ '\\' := by
  rintro rfl
  have hmode : s₁.mode = .escape := by
    rcases hm with hm | hm
    · rw [step, hm] at hstep
      cases hstep
      rfl
    · rw [step, hm] at hstep
      cases hstep
      rfl
  obtain ⟨s₂, hnext, hrest⟩ := run_cons_eq_some.mp hrun
  exact not_keeps_escape hmode hnext (hkeeps.cons hnext hrest).1

/-- A run that keeps everything finds the words of the text, and nothing else to do in it. -/
theorem quiet_of_run {v : List Char} : ∀ {done : List Word} {acc : List Char} {m : Mode}
    {s' : State}, (m = .bare ∨ m = .dollar) → (∀ c ∈ acc, isBlank c = false) → '"' ∉ v →
    run (reading done acc m) (v ++ [' ']) = some s' → Keeps (reading done acc m) (v ++ [' ']) s' →
    (∀ c ∈ v, isSpecial c = false) ∧ v.IsChain NoExpansion ∧
      (m = .dollar → ∀ d ∈ v.head?, opensBare d = false) ∧ (acc = [] → v.head? ≠ some '#') ∧
      s' = reading (done ++ (words (acc ++ v)).map (marked false)) [] .bare := by
  induction v with
  | nil =>
      intro done acc m s' hm hacc _ h _
      rw [List.nil_append, run_cons_eq_some] at h
      obtain ⟨s₁, hstep, hend⟩ := h
      cases hend
      rw [step_reading _ _ hm (by decide) (by decide) (by decide)] at hstep
      obtain ⟨-, ⟨-, -, rfl⟩ | ⟨hblank, -⟩⟩ := hstep
      · rw [ended_eq_words hacc, List.append_nil]
        simp
      · exact absurd hblank (by decide)
  | cons c v ih =>
      intro done acc m s' hm hacc hquote h hkeeps
      rw [List.mem_cons, not_or] at hquote
      rw [List.cons_append, run_cons_eq_some] at h
      obtain ⟨s₁, hstep, hrun⟩ := h
      obtain ⟨hfirst, hrest⟩ := hkeeps.cons hstep hrun
      have hmode : (reading done acc m).mode = .bare ∨ (reading done acc m).mode = .dollar := hm
      have hescape : c ≠ '\\' := by
        obtain ⟨d, rest, hnext⟩ := List.exists_cons_of_ne_nil (show v ++ [' '] ≠ [] by simp)
        rw [hnext] at hrun hrest
        exact hrest.no_escape hmode hstep hrun
      rw [step_reading _ _ hm (hfirst.no_single hmode hstep) (Ne.symm hquote.1) hescape] at hstep
      obtain ⟨hopens, ⟨hblank, hnewline, rfl⟩ | ⟨hblank, hspecial, hcomment, rfl⟩⟩ := hstep
      · obtain ⟨hchars, hchain, -, -, rfl⟩ :=
          ih (.inl rfl) (by simp) hquote.2 hrun hrest
        have hc : isSpecial c = false ∧ c ≠ '$' ∧ c ≠ '#' := by
          have hcases := hblank
          simp only [isBlank, Bool.or_eq_true, beq_iff_eq] at hcases
          rcases hcases with (rfl | rfl) | rfl
          · decide
          · decide
          · exact absurd rfl hnewline
        refine ⟨?_, ?_, ?_, ?_, ?_⟩
        · exact List.forall_mem_cons.mpr ⟨hc.1, hchars⟩
        · exact List.isChain_cons.mpr ⟨fun d _ hdollar => absurd hdollar hc.2.1, hchain⟩
        · simpa using hopens
        · simpa using fun _ => hc.2.2
        · rw [words_append hblank, List.map_append, ended_eq_words hacc, List.nil_append,
            List.append_assoc]
      · have hacc' : ∀ d ∈ acc ++ [c], isBlank d = false := by
          simpa [or_imp, forall_and] using ⟨hacc, hblank⟩
        have hmode' : after c .dollar .bare = .bare ∨ after c .dollar .bare = .dollar := by
          unfold after
          split_ifs <;> simp
        obtain ⟨hchars, hchain, hdollar, -, rfl⟩ := ih hmode' hacc' hquote.2 hrun hrest
        refine ⟨?_, ?_, ?_, ?_, ?_⟩
        · exact List.forall_mem_cons.mpr ⟨hspecial, hchars⟩
        · exact List.isChain_cons.mpr ⟨after_condition.mp hdollar, hchain⟩
        · simpa using hopens
        · simpa using hcomment
        · rw [List.append_assoc, List.singleton_append]

/-! ### Within double quotes -/

/-- The second character makes no expansion of the first, and is not escaped by it. -/
def NoEscape (a b : Char) : Prop :=
  (a = '$' → opens b = false) ∧ (a = '\\' → escapes b = false)

/-- What stands for itself within double quotes; the closing one counts. -/
structure Quoted (v : List Char) : Prop where
  chars : ∀ c ∈ v, c ≠ '"' ∧ c ≠ '`'
  escapes : (v ++ ['"']).IsChain NoEscape

/-- The reader within double quotes, behind `acc` and what is pending. -/
def quoting (done : List Word) (acc : List Char) (m : Mode) : State :=
  ⟨done, some (marked true acc), m⟩

def InDouble (m : Mode) : Prop := m = .double ∨ m = .doubleDollar ∨ m = .doubleEscape

/-- What may follow in this mode. -/
def Allows (m : Mode) (c : Char) : Prop :=
  (m = .doubleDollar → opens c = false) ∧ (m = .doubleEscape → escapes c = false)

theorem allows_of_step {done : List Word} {acc : List Char} {m : Mode} {c : Char} {s' : State}
    (hm : InDouble m) (h : step (quoting done acc m) c = some s')
    (hkeeps : Keeps (quoting done acc m) [c] s') : Allows m c ∧ c ≠ '`' := by
  rcases hm with rfl | rfl | rfl
  · refine ⟨⟨by simp, by simp⟩, ?_⟩
    rintro rfl
    cases h
  · cases hopens : opens c with
    | true => simp [step, quoting, hopens] at h
    | false =>
        refine ⟨⟨fun _ => hopens, by simp⟩, ?_⟩
        rintro rfl
        cases h
  · obtain ⟨hescapes, -⟩ := hkeeps.escape rfl h
    refine ⟨⟨by simp, fun _ => hescapes⟩, ?_⟩
    rintro rfl
    exact absurd hescapes (by decide)

/-- A character that stands for itself. -/
theorem step_quoting (done : List Word) (acc : List Char) {m : Mode} {c : Char}
    (hm : InDouble m) (hquote : c ≠ '"') (hback : c ≠ '`') (hallows : Allows m c) :
    ∃ acc' m', InDouble m' ∧ step (quoting done acc m) c = some (quoting done acc' m') ∧
      acc' ++ pending m' = acc ++ pending m ++ [c] ∧ ∀ d, Allows m' d ↔ NoEscape c d := by
  have hdouble : pending m = [] → step (quoting done acc m) c = stepDouble (quoting done acc m) c →
      ∃ acc' m', InDouble m' ∧ step (quoting done acc m) c = some (quoting done acc' m') ∧
        acc' ++ pending m' = acc ++ pending m ++ [c] ∧ ∀ d, Allows m' d ↔ NoEscape c d := by
    intro hpending hstep
    rw [hstep, hpending, stepDouble, if_neg hquote, if_neg hback]
    by_cases hescape : c = '\\'
    · rw [if_pos hescape]
      refine ⟨acc, .doubleEscape, .inr (.inr rfl), rfl, by simp [hescape], fun d => ?_⟩
      simp [Allows, NoEscape, hescape]
    · rw [if_neg hescape]
      refine ⟨acc ++ [c], after c .doubleDollar .double, ?_, ?_, by simp, fun d => ?_⟩
      · unfold after
        split_ifs
        · exact .inr (.inl rfl)
        · exact .inl rfl
      · simp [quoting, State.add, State.enter, marked_append]
        rfl
      · unfold after Allows NoEscape
        split_ifs with hdollar
        · simp [hdollar]
        · simp [hdollar, hescape]
  rcases hm with rfl | rfl | rfl
  · exact hdouble rfl rfl
  · refine hdouble rfl ?_
    simp [step, quoting, hallows.1 rfl]
  · have hescapes := hallows.2 rfl
    have hne : c ≠ '\n' ∧ c ≠ '$' ∧ c ≠ '\\' := by
      simp only [escapes, Bool.or_eq_false_iff, beq_eq_false_iff_ne] at hescapes
      exact ⟨hescapes.2, hescapes.1.1.1.1, hescapes.1.2⟩
    refine ⟨acc ++ ['\\', c], .double, .inl rfl, ?_, by simp, fun d => ?_⟩
    · simp [step, quoting, State.add, State.enter, marked_append, hne.1, hescapes]
      rfl
    · simp [Allows, NoEscape, hne.2]

/-- The closing quote. -/
theorem step_quote {done : List Word} {acc : List Char} {m : Mode} (hm : InDouble m)
    (hallows : Allows m '"') :
    step (quoting done acc m) '"' = some ⟨done, some (marked true (acc ++ pending m)), .bare⟩ := by
  rcases hm with rfl | rfl | rfl
  · simp [step, quoting, stepDouble, State.enter]
  · simp [step, quoting, stepDouble, State.enter, hallows.1 rfl]
  · exact absurd (hallows.2 rfl) (by decide)

/-- The conditions on the characters of `v` and its closing quote, from a mode on. -/
structure QuotedFrom (m : Mode) (v : List Char) : Prop where
  chars : ∀ c ∈ v, c ≠ '"' ∧ c ≠ '`'
  escapes : (v ++ ['"']).IsChain NoEscape
  first : ∀ c ∈ (v ++ ['"']).head?, Allows m c

theorem quotedFrom_nil {m : Mode} : QuotedFrom m [] ↔ Allows m '"' := by
  refine ⟨fun h => h.first '"' rfl, fun h => ⟨by simp, by simp, ?_⟩⟩
  simpa using h

theorem quotedFrom_cons {m m' : Mode} {c : Char} {v : List Char}
    (hm' : ∀ d, Allows m' d ↔ NoEscape c d) :
    QuotedFrom m (c :: v) ↔ (c ≠ '"' ∧ c ≠ '`') ∧ Allows m c ∧ QuotedFrom m' v := by
  have hchain : (c :: v ++ ['"']).IsChain NoEscape ↔
      (∀ d ∈ (v ++ ['"']).head?, Allows m' d) ∧ (v ++ ['"']).IsChain NoEscape := by
    rw [List.cons_append, List.isChain_cons]
    simp only [hm']
  refine ⟨?_, ?_⟩
  · intro h
    obtain ⟨hfirst, hrest⟩ := hchain.mp h.escapes
    obtain ⟨hc, hv⟩ := List.forall_mem_cons.mp h.chars
    exact ⟨hc, h.first c rfl, hv, hrest, hfirst⟩
  · intro h
    obtain ⟨hc, hallows, hv⟩ := h
    refine ⟨List.forall_mem_cons.mpr ⟨hc, hv.chars⟩, hchain.mpr ⟨hv.first, hv.escapes⟩, ?_⟩
    simpa using hallows

theorem run_quotedFrom {v : List Char} : ∀ {done : List Word} {acc : List Char} {m : Mode},
    InDouble m → QuotedFrom m v → run (quoting done acc m) (v ++ ['"'])
      = some ⟨done, some (marked true (acc ++ pending m ++ v)), .bare⟩ := by
  induction v with
  | nil =>
      intro done acc m hm h
      rw [List.nil_append, run_cons, step_quote hm (quotedFrom_nil.mp h), List.append_nil]
      rfl
  | cons c v ih =>
      intro done acc m hm h
      have hc := h.chars c List.mem_cons_self
      obtain ⟨acc', m', hm', hstep, hacc, hallows⟩ :=
        step_quoting done acc hm hc.1 hc.2 (h.first c rfl)
      obtain ⟨-, -, hrest⟩ := (quotedFrom_cons hallows).mp h
      rw [List.cons_append, run_cons, hstep, Option.bind_some, ih hm' hrest, hacc,
        List.append_assoc (acc ++ pending m)]
      rfl

theorem quotedFrom_of_run {v : List Char} : ∀ {done : List Word} {acc : List Char} {m : Mode}
    {s' : State}, InDouble m → '"' ∉ v → run (quoting done acc m) (v ++ ['"']) = some s' →
    Keeps (quoting done acc m) (v ++ ['"']) s' → QuotedFrom m v := by
  induction v with
  | nil =>
      intro done acc m s' hm _ h hkeeps
      rw [List.nil_append, run_cons_eq_some] at h
      obtain ⟨s₁, hstep, hend⟩ := h
      cases hend
      exact quotedFrom_nil.mpr (allows_of_step hm hstep hkeeps).1
  | cons c v ih =>
      intro done acc m s' hm hquote h hkeeps
      rw [List.mem_cons, not_or] at hquote
      rw [List.cons_append, run_cons_eq_some] at h
      obtain ⟨s₁, hstep, hrun⟩ := h
      obtain ⟨hfirst, hrest⟩ := hkeeps.cons hstep hrun
      obtain ⟨hallows, hback⟩ := allows_of_step hm hstep hfirst
      obtain ⟨acc', m', hm', hstep', hacc, hnext⟩ :=
        step_quoting done acc hm (Ne.symm hquote.1) hback hallows
      rw [hstep, Option.some.injEq] at hstep'
      subst hstep'
      exact (quotedFrom_cons hnext).mpr
        ⟨⟨Ne.symm hquote.1, hback⟩, hallows, ih hm' hquote.2 hrun hrest⟩

theorem quotedFrom_double {v : List Char} : QuotedFrom .double v ↔ Quoted v := by
  refine ⟨fun h => ⟨h.chars, h.escapes⟩, fun h => ⟨h.chars, h.escapes, ?_⟩⟩
  intro c _
  exact ⟨by simp, by simp⟩

/-! ### Expansion of words -/

/-- What braces, a tilde or a pattern in a word may begin with. -/
def isActive (c : Char) : Bool := c == '{' || c == '~' || c == '*' || c == '?' || c == '['

/-- Brace, tilde and pathname expansion of a word; one in which nothing unquoted asks for them
stays. -/
structure Expansion where
  expand : Word → List (List Char)
  plain : ∀ {word : Word}, (∀ c ∈ word, c.2 = false → isActive c.1 = false) →
    expand word = [word.text]

/-- Nothing in quotes is expanded. -/
theorem Expansion.expand_quoted (x : Expansion) (t : List Char) : x.expand (marked true t) = [t] := by
  rw [x.plain, text_marked]
  intro c hc hfalse
  obtain ⟨d, -, rfl⟩ := List.mem_map.mp hc
  cases hfalse

end CommandLine
