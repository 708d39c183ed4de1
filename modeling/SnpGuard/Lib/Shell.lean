/-
What `dash` does to text on its way through a script.

Command substitution takes the newlines off the end of what a command printed.  The
built-in `echo` reads a lone `-n` as an option, and expands the escape sequences of its
argument: a backslash followed by a letter it knows, by another backslash or by up to
three octal digits, and `\c`, which ends the output.  A backslash in front of anything
else stays.  Which letters it knows depends on the version.  A program that reads a line reads
up to the first newline.

`line_eq_iff` says which texts survive all three: those of one line that are not the
option and in which no backslash precedes a character that `echo` expands.
-/
import Mathlib.Data.List.DropRight
import SnpGuard.Lib.Bytes
import SnpGuard.Lib.Transducer

namespace Shell

def newline : UInt8 := 10

def backslash : UInt8 := 92

/-- What `$(..)` makes of what a command printed: NUL characters go, and the newlines at
the end. -/
def substitution {α : Type} [DecidableEq α] (nul newline : α) (printed : List α) : List α :=
  (printed.filter (· ≠ nul)).rdropWhile (· = newline)

/-- Command substitution on bytes. -/
def commandSubstitution (printed : Bytes) : Bytes := substitution 0 newline printed

/-- What a program gets that reads one line. -/
def readLine (input : Bytes) : Bytes := input.takeWhile (· ≠ newline)

section Substitution

variable {α : Type} [DecidableEq α] {nul newline : α} {text : List α}

theorem filter_nul (hnul : nul ∉ text) : text.filter (· ≠ nul) = text := by
  rw [List.filter_eq_self]
  intro a ha
  have hne : a ≠ nul := fun h => hnul (h ▸ ha)
  simpa using hne

theorem rdropWhile_newline (hline : newline ∉ text) :
    text.rdropWhile (· = newline) = text := by
  rw [List.rdropWhile_eq_self_iff]
  intro hne hlast
  have hnewline : text.getLast hne = newline := by simpa using hlast
  exact hline (hnewline ▸ List.getLast_mem hne)

theorem substitution_eq_self (hnul : nul ∉ text) (hline : newline ∉ text) :
    substitution nul newline text = text := by
  unfold substitution
  rw [filter_nul hnul, rdropWhile_newline hline]

/-- A command that prints one line is replaced by it. -/
theorem substitution_line (hnul : nul ∉ text) (hline : newline ∉ text) (hne : nul ≠ newline) :
    substitution nul newline (text ++ [newline]) = text := by
  have hall : nul ∉ text ++ [newline] := by simp [hnul, hne]
  unfold substitution
  rw [filter_nul hall, List.rdropWhile_concat_pos _ _ _ (by simp), rdropWhile_newline hline]

end Substitution

/-! ### The built-in `echo` -/

/-- A version of `dash`, by whether its `echo` knows `\e`; from 0.5.12 on it does. -/
structure Dash where
  escapeE : Bool

/-- What a backslash and a letter stand for. -/
def escapeLetter (d : Dash) : UInt8 → Option UInt8
  | 92 => some backslash
  | 97 => some 7
  | 98 => some 8
  | 101 => if d.escapeE then some 27 else none
  | 102 => some 12
  | 110 => some newline
  | 114 => some 13
  | 116 => some 9
  | 118 => some 11
  | _ => none

/-- The letter of `\c`. -/
def letterC : UInt8 := 99

def digitZero : UInt8 := 48

def IsOctal (b : UInt8) : Prop := digitZero ≤ b ∧ b < digitZero + 8

instance (b : UInt8) : Decidable (IsOctal b) := inferInstanceAs (Decidable (_ ∧ _))

/-- Where `echo` is in an escape sequence. -/
inductive EscapeState where
  | plain
  | backslash
  /-- Up to `left` more digits belong to a number that is `value` so far. -/
  | octal (left : Nat) (value : UInt8)
deriving DecidableEq

/-- What `echo` does with a character outside an escape sequence. -/
def nextPlain (b : UInt8) : Bytes × EscapeState :=
  if b = backslash then ([], .backslash) else ([b], .plain)

def nextEscape (d : Dash) : EscapeState → UInt8 → Option (Bytes × EscapeState)
  | .plain, b => some (nextPlain b)
  | .backslash, b =>
    if b = letterC then none
    else
      match escapeLetter d b with
      | some value => some ([value], .plain)
      | none =>
        -- A zero in front of an octal number is not one of its three digits.
        if b = digitZero then some ([], .octal 3 0)
        else if IsOctal b then some ([], .octal 2 (b - digitZero))
        else some ([backslash, b], .plain)
  | .octal left value, b =>
    if 0 < left ∧ IsOctal b then some ([], .octal (left - 1) (8 * value + (b - digitZero)))
    else some (value :: (nextPlain b).1, (nextPlain b).2)

/-- What is printed of an escape sequence that the end of the text cuts short. -/
def flushEscape : EscapeState → Bytes
  | .plain => []
  | .backslash => [backslash]
  | .octal _ value => [value]

/-- `echo`'s reading of its argument. -/
def escapes (d : Dash) : Transducer EscapeState UInt8 UInt8 where
  next := nextEscape d
  flush := flushEscape

/-- The option that `echo` knows. -/
def optionN : Bytes := Bytes.ofString "-n"

/-- `echo` with one argument. -/
def echo (d : Dash) (arg : Bytes) : Bytes :=
  if arg = optionN then []
  else
    match (escapes d).run .plain arg with
    | (text, true) => text ++ [newline]
    | (text, false) => text

example : echo ⟨false⟩ (Bytes.ofString "a\\tb\\e\\0101\\c!") = Bytes.ofString "a\tb\\eA" := by
  decide

/-! ### Texts that `echo` prints as they are -/

/-- What `echo` expands after a backslash. -/
def Expanded (d : Dash) (b : UInt8) : Prop := b = letterC ∨ (escapeLetter d b).isSome ∨ IsOctal b

instance (d : Dash) (b : UInt8) : Decidable (Expanded d b) := inferInstanceAs (Decidable (_ ∨ _))

/-- Some backslash of the text is followed by a character that `echo` expands. -/
def HasEscape (d : Dash) (text : Bytes) : Prop := ∃ b, Expanded d b ∧ [backslash, b] <:+: text

variable {d : Dash}

theorem HasEscape.cons {text : Bytes} (h : HasEscape d text) (a : UInt8) :
    HasEscape d (a :: text) := by
  obtain ⟨b, hb, hwithin⟩ := h
  exact ⟨b, hb, hwithin.trans (List.suffix_cons a text).isInfix⟩

/-- An escape starts at the head of a text or in its tail. -/
theorem hasEscape_cons {a : UInt8} {text : Bytes} :
    HasEscape d (a :: text) ↔
      (a = backslash ∧ ∃ b rest, Expanded d b ∧ text = b :: rest) ∨ HasEscape d text := by
  refine ⟨?_, ?_⟩
  · intro h
    obtain ⟨b, hb, hwithin⟩ := h
    rcases List.infix_cons_iff.mp hwithin with hbegins | htail
    · obtain ⟨rest, hrest⟩ := hbegins
      simp only [List.cons_append, List.nil_append, List.cons.injEq] at hrest
      exact Or.inl ⟨hrest.1.symm, b, rest, hb, hrest.2.symm⟩
    · exact Or.inr ⟨b, hb, htail⟩
  · intro h
    rcases h with ⟨rfl, b, rest, hb, rfl⟩ | h
    · exact ⟨b, hb, ⟨[], rest, rfl⟩⟩
    · exact h.cons a

theorem not_hasEscape_nil : ¬ HasEscape d [] := by
  intro h
  obtain ⟨b, -, hwithin⟩ := h
  simp at hwithin

theorem not_hasEscape_of_not_mem {text : Bytes} (h : backslash ∉ text) : ¬ HasEscape d text := by
  intro hescape
  obtain ⟨b, -, hwithin⟩ := hescape
  exact h (hwithin.subset (by simp))

theorem expanded_backslash : Expanded d backslash := Or.inr (Or.inl rfl)

/-- A backslash in front of anything else stays. -/
theorem nextEscape_of_not_expanded {b : UInt8} (h : ¬ Expanded d b) :
    nextEscape d .backslash b = some ([backslash, b], .plain) := by
  unfold Expanded at h
  rw [not_or, not_or, Option.not_isSome_iff_eq_none] at h
  obtain ⟨hc, hletter, hoctal⟩ := h
  have hzero : b ≠ digitZero := by
    intro hb
    rw [hb] at hoctal
    exact hoctal (by decide)
  simp only [nextEscape, if_neg hc, hletter, if_neg hzero, if_neg hoctal]

theorem nextPlain_of_ne {b : UInt8} (h : b ≠ backslash) : nextPlain b = ([b], .plain) :=
  if_neg h

/-- **A text without escapes is printed as it is.** -/
theorem escapes_run_of_not_hasEscape {text : Bytes} (h : ¬ HasEscape d text) :
    (escapes d).run .plain text = (text, true) := by
  -- Outside octal numbers, what is pending is a backslash that was read.
  let P : EscapeState → Bytes → Prop := fun st rest =>
    (∀ left value, st ≠ .octal left value) ∧ ¬ HasEscape d (flushEscape st ++ rest)
  have hstep : ∀ st b rest, P st (b :: rest) → ∃ out t, (escapes d).next st b = some (out, t) ∧
      out ++ (escapes d).flush t = (escapes d).flush st ++ [b] ∧ P t rest := by
    intro st b rest hP
    obtain ⟨hnum, hnone⟩ := hP
    cases st with
    | plain =>
        by_cases hb : b = backslash
        · subst hb
          exact ⟨[], .backslash, rfl, rfl, by simp, hnone⟩
        · refine ⟨[b], .plain, ?_, rfl, by simp, fun hrest => hnone (hrest.cons b)⟩
          show some (nextPlain b) = _
          rw [nextPlain_of_ne hb]
    | backslash =>
        have hb : ¬ Expanded d b := fun hb =>
          hnone (hasEscape_cons.mpr (Or.inl ⟨rfl, b, rest, hb, rfl⟩))
        refine ⟨[backslash, b], .plain, nextEscape_of_not_expanded hb, rfl, by simp, ?_⟩
        intro hrest
        exact hnone ((hrest.cons b).cons backslash)
    | octal left value => exact absurd rfl (hnum left value)
  have hrun : (escapes d).run .plain text = (flushEscape .plain ++ text, true) :=
    Transducer.run_eq_of_copies hstep ⟨by simp, h⟩
  exact hrun

/-! ### Texts that `echo` makes shorter -/

/-- One character is owed inside an escape sequence. -/
def EscapeState.weight : EscapeState → Nat
  | .plain => 0
  | .backslash => 1
  | .octal _ _ => 1

theorem weight_nextPlain (b : UInt8) :
    (nextPlain b).1.length + (nextPlain b).2.weight = 1 := by
  unfold nextPlain
  by_cases hb : b = backslash
  · rw [if_pos hb]
    rfl
  · rw [if_neg hb]
    rfl

theorem escapes_contracts : (escapes d).Contracts EscapeState.weight where
  next := by
    intro st b out t h
    cases st with
    | plain =>
        have hplain : nextPlain b = (out, t) := Option.some.inj h
        have hw := weight_nextPlain b
        rw [hplain] at hw
        simp only [EscapeState.weight] at hw ⊢
        omega
    | backslash =>
        simp only [escapes, nextEscape] at h
        split at h
        · simp at h
        · split at h
          · simp only [Option.some.injEq, Prod.mk.injEq] at h
            obtain ⟨rfl, rfl⟩ := h
            simp [EscapeState.weight]
          · split at h
            · simp only [Option.some.injEq, Prod.mk.injEq] at h
              obtain ⟨rfl, rfl⟩ := h
              simp [EscapeState.weight]
            · split at h
              all_goals
                simp only [Option.some.injEq, Prod.mk.injEq] at h
                obtain ⟨rfl, rfl⟩ := h
                simp [EscapeState.weight]
    | octal left value =>
        simp only [escapes, nextEscape] at h
        split at h
        · simp only [Option.some.injEq, Prod.mk.injEq] at h
          obtain ⟨rfl, rfl⟩ := h
          simp [EscapeState.weight]
        · simp only [Option.some.injEq, Prod.mk.injEq] at h
          obtain ⟨rfl, rfl⟩ := h
          have hw := weight_nextPlain b
          have hown : (EscapeState.octal left value).weight = 1 := rfl
          rw [List.length_cons, hown]
          omega
  flush := by
    intro st
    cases st <;> simp [escapes, flushEscape, EscapeState.weight]

/-- An escape sequence prints less than it takes. -/
theorem escapes_loses {b : UInt8} (h : Expanded d b) :
    (escapes d).Loses EscapeState.weight .backslash b := by
  intro out t hnext
  simp only [escapes, nextEscape] at hnext
  split at hnext
  · simp at hnext
  · rename_i hc
    split at hnext
    · simp only [Option.some.injEq, Prod.mk.injEq] at hnext
      obtain ⟨rfl, rfl⟩ := hnext
      simp [EscapeState.weight]
    · rename_i hletter
      have hoctal : IsOctal b := by
        rcases h with h | h | h
        · exact absurd h hc
        · rw [hletter] at h
          exact absurd h (by simp)
        · exact h
      split at hnext
      · simp only [Option.some.injEq, Prod.mk.injEq] at hnext
        obtain ⟨rfl, rfl⟩ := hnext
        simp [EscapeState.weight]
      · simp only [Option.some.injEq, Prod.mk.injEq] at hnext
        obtain ⟨rfl, rfl⟩ := hnext
        simp [EscapeState.weight]

/-- A backslash is no digit: it ends the number and starts an escape sequence. -/
theorem nextEscape_octal_backslash (left : Nat) (value : UInt8) :
    (escapes d).next (.octal left value) backslash = some ([value], .backslash) := by
  have hdigit : ¬ (0 < left ∧ IsOctal backslash) := fun h => absurd h.2 (by decide)
  simp only [escapes, nextEscape, if_neg hdigit]
  rfl

/-- **A text with an escape is printed shorter.** -/
theorem length_escapes_run_lt : ∀ {text : Bytes} {st : EscapeState},
    HasEscape d text ∨ (st = .backslash ∧ ∃ b rest, Expanded d b ∧ text = b :: rest) →
      ((escapes d).run st text).1.length < st.weight + text.length := by
  intro text
  induction text with
  | nil =>
      intro st h
      rcases h with h | ⟨-, b, rest, -, hnil⟩
      · exact absurd h not_hasEscape_nil
      · simp at hnil
  | cons a text ih =>
      intro st h
      rcases h with h | ⟨rfl, b, rest, hb, heq⟩
      · cases hnext : (escapes d).next st a with
        | none =>
            have hloses : (escapes d).Loses EscapeState.weight st a := by
              intro out t hsome
              rw [hnext] at hsome
              simp at hsome
            exact escapes_contracts.length_run_lt hloses text
        | some r =>
            obtain ⟨out, t⟩ := r
            rcases hasEscape_cons.mp h with ⟨rfl, b, rest, hb, rfl⟩ | htail
            · cases st with
              | plain =>
                  obtain ⟨rfl, rfl⟩ := Prod.mk.inj (Option.some.inj hnext)
                  exact escapes_contracts.length_run_lt_of_rest hnext
                    (ih (Or.inr ⟨rfl, b, rest, hb, rfl⟩))
              | backslash =>
                  exact escapes_contracts.length_run_lt (escapes_loses expanded_backslash) _
              | octal left value =>
                  rw [nextEscape_octal_backslash, Option.some.injEq] at hnext
                  obtain ⟨rfl, rfl⟩ := Prod.mk.inj hnext
                  exact escapes_contracts.length_run_lt_of_rest
                    (nextEscape_octal_backslash left value) (ih (Or.inr ⟨rfl, b, rest, hb, rfl⟩))
            · exact escapes_contracts.length_run_lt_of_rest hnext (ih (Or.inl htail))
      · rw [List.cons.injEq] at heq
        rw [heq.1]
        exact escapes_contracts.length_run_lt (escapes_loses hb) text

/-! ### A text through substitution, `echo` and a line reader -/

/-- What a line reader gets of a text that a script reads from a file and echoes. -/
def line (d : Dash) (text : Bytes) : Bytes := readLine (echo d (commandSubstitution text))

/-- The text is one line, not the option, and has no escape in it. -/
structure Verbatim (d : Dash) (text : Bytes) : Prop where
  oneLine : newline ∉ text
  notOption : text ≠ optionN
  noEscape : ¬ HasEscape d text

theorem commandSubstitution_eq_self {text : Bytes} (hnul : 0 ∉ text) (hline : newline ∉ text) :
    commandSubstitution text = text := substitution_eq_self hnul hline

theorem not_mem_readLine (input : Bytes) : newline ∉ readLine input := by
  intro h
  have hne := List.mem_takeWhile_imp h
  simp at hne

theorem readLine_append_newline (text : Bytes) :
    readLine (text ++ [newline]) = readLine text := by
  induction text with
  | nil => rfl
  | cons b text ih =>
      unfold readLine at ih ⊢
      by_cases hb : b = newline
      · simp [hb]
      · simp only [List.cons_append, List.takeWhile_cons]
        rw [ih]

theorem readLine_echo {arg : Bytes} (h : arg ≠ optionN) :
    readLine (echo d arg) = readLine ((escapes d).run .plain arg).1 := by
  unfold echo
  rw [if_neg h]
  rcases hrun : (escapes d).run .plain arg with ⟨text, ended⟩
  cases ended with
  | true => exact readLine_append_newline text
  | false => rfl

theorem readLine_eq_self {text : Bytes} (h : newline ∉ text) : readLine text = text := by
  unfold readLine
  rw [List.takeWhile_eq_self_iff]
  intro b hb
  have hne : b ≠ newline := fun heq => h (heq ▸ hb)
  simpa using hne

/-- **A text without NUL bytes comes through exactly when it is verbatim.** -/
theorem line_eq_iff {text : Bytes} (hnul : 0 ∉ text) : line d text = text ↔ Verbatim d text := by
  refine ⟨?_, ?_⟩
  · intro h
    have hline : newline ∉ text := by
      rw [← h]
      exact not_mem_readLine _
    unfold line at h
    rw [commandSubstitution_eq_self hnul hline] at h
    have hoption : text ≠ optionN := by
      intro hoption
      have hnothing : echo d optionN = [] := if_pos rfl
      rw [hoption, hnothing] at h
      exact absurd h (by decide)
    refine ⟨hline, hoption, ?_⟩
    · intro hescape
      have hshorter : ((escapes d).run .plain text).1.length < 0 + text.length :=
        length_escapes_run_lt (Or.inl hescape)
      have hread : (readLine ((escapes d).run .plain text).1).length
          ≤ ((escapes d).run .plain text).1.length := (List.takeWhile_prefix _).length_le
      rw [← readLine_echo hoption, h] at hread
      omega
  · intro h
    unfold line
    rw [commandSubstitution_eq_self hnul h.oneLine]
    rw [readLine_echo h.notOption, escapes_run_of_not_hasEscape h.noEscape]
    exact readLine_eq_self h.oneLine

end Shell
