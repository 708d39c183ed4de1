/-
Perl regular expressions, and `grep -o` with them.

A backtracking matcher tries its choices in a fixed order, greedy ones first, and takes the
first that leads to a match.  `Regex.run` lists the places where a match can end in the
order in which they are tried, so the match is the head of the list.  A proof about a match
follows its first choices: each rule below says what an expression takes first, and
`first_seq` puts two of them together.

`grep -o` prints what each match took, without empty matches, line by line; `\K` makes it
forget what was taken before.
-/
import SnpGuard.Lib.Text

namespace Perl

/-- Regular expressions, as far as they are used: repetition is of one class. -/
inductive Regex where
  | empty
  /-- A character of a class. -/
  | one (p : Char → Bool)
  | seq (r s : Regex)
  /-- `r|s`. -/
  | alt (r s : Regex)
  /-- As many characters of a class as there are. -/
  | many (p : Char → Bool)
  /-- `^`. -/
  | bol
  /-- `\K`. -/
  | keep
  /-- `(?=r)`. -/
  | ahead (r : Regex)

/-- A place in a line, with what the match has taken so far. -/
structure Cursor where
  atStart : Bool
  taken : List Char
  rest : List Char
deriving DecidableEq

/-- The places that a greedy repetition can end in, the farthest first. -/
def greedy (p : Char → Bool) (atStart : Bool) (taken : List Char) : List Char → List Cursor
  | [] => [⟨atStart, taken, []⟩]
  | a :: rest =>
    if p a then greedy p false (taken ++ [a]) rest ++ [⟨atStart, taken, a :: rest⟩]
    else [⟨atStart, taken, a :: rest⟩]

namespace Regex

/-- The places where a match can end, in the order in which they are tried. -/
def run : Regex → Cursor → List Cursor
  | empty, c => [c]
  | one p, c =>
    match c.rest with
    | [] => []
    | a :: rest => if p a then [⟨false, c.taken ++ [a], rest⟩] else []
  | seq r s, c => (r.run c).flatMap s.run
  | alt r s, c => r.run c ++ s.run c
  | many p, c => greedy p c.atStart c.taken c.rest
  | bol, c => if c.atStart then [c] else []
  | keep, c => [{ c with taken := [] }]
  | ahead r, c => if (r.run c).isEmpty then [] else [c]

/-- Where the match ends. -/
def first (r : Regex) (c : Cursor) : Option Cursor := (r.run c).head?

/-- The characters of a text, one after the other. -/
def literal : List Char → Regex
  | [] => empty
  | a :: text => seq (one (· == a)) (literal text)

/-- `r` repeated at least once. -/
def some (p : Char → Bool) : Regex := seq (one p) (many p)

/-! ### What is taken first -/

attribute [local simp] run in
theorem first_one {p : Char → Bool} {a : Char} (h : p a = true) (atStart : Bool)
    (taken rest : List Char) :
    (one p).first ⟨atStart, taken, a :: rest⟩ = Option.some ⟨false, taken ++ [a], rest⟩ := by
  simp [first, h]

theorem run_one_eq_nil {p : Char → Bool} {a : Char} (h : p a = false) (atStart : Bool)
    (taken rest : List Char) : (one p).run ⟨atStart, taken, a :: rest⟩ = [] := by
  simp [run, h]

/-- The first choice of `r` is the one taken when `s` can go on from there. -/
theorem first_seq {r s : Regex} {c c' c'' : Cursor} (hr : r.first c = Option.some c')
    (hs : s.first c' = Option.some c'') : (seq r s).first c = Option.some c'' := by
  obtain ⟨tail, hrun⟩ := List.head?_eq_some_iff.mp hr
  obtain ⟨tail', hrun'⟩ := List.head?_eq_some_iff.mp hs
  simp [first, run, hrun, hrun']

theorem run_seq_eq_nil {r s : Regex} {c : Cursor} (h : r.run c = []) : (seq r s).run c = [] := by
  simp [run, h]

theorem first_alt_left {r s : Regex} {c c' : Cursor} (h : r.first c = Option.some c') :
    (alt r s).first c = Option.some c' := by
  obtain ⟨tail, hrun⟩ := List.head?_eq_some_iff.mp h
  simp [first, run, hrun]

theorem first_alt_right {r s : Regex} {c c' : Cursor} (hr : r.run c = [])
    (hs : s.first c = Option.some c') : (alt r s).first c = Option.some c' := by
  unfold first at hs ⊢
  simp only [run, hr, List.nil_append]
  exact hs

/-- A greedy repetition takes all there is of its class. -/
theorem first_many {p : Char → Bool} {rest : List Char} (hrest : ∀ a ∈ rest.head?, p a = false) :
    ∀ {xs : List Char} (taken : List Char) (atStart : Bool), (∀ a ∈ xs, p a = true) →
      (many p).first ⟨atStart, taken, xs ++ rest⟩
        = Option.some ⟨atStart && xs.isEmpty, taken ++ xs, rest⟩ := by
  intro xs
  induction xs with
  | nil =>
      intro taken atStart _
      cases rest with
      | nil => simp [first, run, greedy]
      | cons b rest =>
          have hb : p b = false := hrest b rfl
          simp [first, run, greedy, hb]
  | cons a xs ih =>
      intro taken atStart hxs
      have ha : p a = true := hxs a (by simp)
      have htail := ih (taken ++ [a]) false fun b hb => hxs b (by simp [hb])
      obtain ⟨tail, hrun⟩ := List.head?_eq_some_iff.mp htail
      simp only [run] at hrun
      simp [first, run, greedy, ha, hrun]

theorem first_some {p : Char → Bool} {a : Char} {xs rest : List Char}
    (hrest : ∀ b ∈ rest.head?, p b = false) (ha : p a = true) (hxs : ∀ b ∈ xs, p b = true)
    (atStart : Bool) (taken : List Char) :
    (some p).first ⟨atStart, taken, a :: xs ++ rest⟩
      = Option.some ⟨false, taken ++ a :: xs, rest⟩ := by
  have hmany := first_many hrest (taken ++ [a]) false hxs
  have hend : taken ++ [a] ++ xs = taken ++ a :: xs := by simp
  rw [hend] at hmany
  exact first_seq (first_one ha atStart taken (xs ++ rest)) hmany

theorem first_bol (taken rest : List Char) :
    bol.first ⟨true, taken, rest⟩ = Option.some ⟨true, taken, rest⟩ := rfl

theorem first_keep (atStart : Bool) (taken rest : List Char) :
    keep.first ⟨atStart, taken, rest⟩ = Option.some ⟨atStart, [], rest⟩ := rfl

theorem first_ahead {r : Regex} {c c' : Cursor} (h : r.first c = Option.some c') :
    (ahead r).first c = Option.some c := by
  obtain ⟨tail, hrun⟩ := List.head?_eq_some_iff.mp h
  simp [first, run, hrun]

theorem first_literal : ∀ (text taken rest : List Char), text ≠ [] → ∀ atStart : Bool,
    (literal text).first ⟨atStart, taken, text ++ rest⟩
      = Option.some ⟨false, taken ++ text, rest⟩ := by
  intro text
  induction text with
  | nil => intro _ _ hne; exact absurd rfl hne
  | cons a text ih =>
      intro taken rest _ atStart
      have ha : (a == a) = true := by simp
      refine first_seq (first_one ha atStart taken (text ++ rest)) ?_
      by_cases hnil : text = []
      · subst hnil
        rfl
      · have htail := ih (taken ++ [a]) rest hnil false
        rw [List.append_assoc] at htail
        exact htail

/-! ### What a match has taken -/

theorem rest_of_greedy {p : Char → Bool} {rest : List Char} {atStart : Bool} {taken : List Char}
    {c : Cursor} (h : c ∈ greedy p atStart taken rest) :
    ∃ w, (∀ a ∈ w, p a = true) ∧ rest = w ++ c.rest := by
  induction rest generalizing atStart taken with
  | nil =>
      rw [greedy, List.mem_singleton] at h
      exact ⟨[], by simp, by rw [h]; rfl⟩
  | cons a rest ih =>
      unfold greedy at h
      split_ifs at h with ha
      · rcases List.mem_append.mp h with h | h
        · obtain ⟨w, hw, hrest⟩ := ih h
          exact ⟨a :: w, by simpa [ha] using hw, by rw [hrest, List.cons_append]⟩
        · exact ⟨[], by simp, by rw [List.mem_singleton.mp h]; rfl⟩
      · exact ⟨[], by simp, by rw [List.mem_singleton.mp h]; rfl⟩

theorem rest_of_literal {text : List Char} {c c' : Cursor} (h : c' ∈ (literal text).run c) :
    c.rest = text ++ c'.rest := by
  induction text generalizing c with
  | nil =>
      rw [literal, run, List.mem_singleton] at h
      rw [h, List.nil_append]
  | cons a text ih =>
      rw [literal, run, List.mem_flatMap] at h
      obtain ⟨d, hd, hrest⟩ := h
      obtain ⟨start, taken, rest⟩ := c
      cases rest with
      | nil => simp [run] at hd
      | cons b rest =>
          simp only [run] at hd
          split_ifs at hd with hb
          · rw [List.mem_singleton] at hd
            have htail := ih hrest
            subst hd
            rw [← beq_iff_eq.mp hb, List.cons_append, ← htail]
          · simp at hd

end Regex

/-! ### `grep -o` -/

/-- What `grep -o` prints from a place in a line on. -/
def only (r : Regex) : Nat → Bool → List Char → List (List Char)
  | 0, _, _ => []
  | fuel + 1, atStart, rest =>
    match r.first ⟨atStart, [], rest⟩ with
    | none => only r fuel false rest.tail
    | some c =>
      -- An empty match is not printed, and the search goes on behind the next character.
      if c.taken = [] then only r fuel false c.rest.tail
      else c.taken :: only r fuel false c.rest

/-- What `grep -o` prints of a line. -/
def onlyMatching (r : Regex) (line : List Char) : List (List Char) :=
  only r (line.length + 1) true line

/-- The line has a match. -/
def Matches (r : Regex) (line : List Char) : Prop := (r.first ⟨true, [], line⟩).isSome

instance (r : Regex) (line : List Char) : Decidable (Matches r line) :=
  inferInstanceAs (Decidable (_ = true))

/-- A line that matches begins with the literal, behind characters of the class. -/
theorem prefix_of_matches {p : Char → Bool} {key line : List Char} {r : Regex}
    (h : Matches (.seq .bol (.seq (.many p) (.seq (.literal key) r))) line) :
    ∃ w, (∀ a ∈ w, p a = true) ∧ w ++ key <+: line := by
  obtain ⟨c, hc⟩ := Option.isSome_iff_exists.mp h
  have hmem := List.mem_of_head? hc
  simp only [Regex.run, if_true, List.flatMap_cons, List.flatMap_nil, List.append_nil,
    List.mem_flatMap] at hmem
  obtain ⟨d, hd, e, he, -⟩ := hmem
  obtain ⟨w, hw, hline⟩ := Regex.rest_of_greedy hd
  refine ⟨w, hw, e.rest, ?_⟩
  rw [hline, Regex.rest_of_literal he, List.append_assoc]

/-- An anchored expression matches only at the start of a line. -/
theorem only_anchored (r : Regex) : ∀ (fuel : Nat) (rest : List Char),
    only (.seq .bol r) fuel false rest = [] := by
  intro fuel
  induction fuel with
  | zero => intro rest; rfl
  | succ fuel ih =>
      intro rest
      have hnone : (Regex.seq .bol r).first ⟨false, [], rest⟩ = none := rfl
      simp only [only, hnone, ih]

theorem onlyMatching_of_first {r : Regex} {line : List Char} {c : Cursor}
    (h : (Regex.seq .bol r).first ⟨true, [], line⟩ = some c) :
    onlyMatching (.seq .bol r) line = if c.taken = [] then [] else [c.taken] := by
  simp only [onlyMatching, only, h, only_anchored]

theorem onlyMatching_of_not_matches {r : Regex} {line : List Char}
    (h : ¬ Matches (.seq .bol r) line) : onlyMatching (.seq .bol r) line = [] := by
  have hnone : (Regex.seq .bol r).first ⟨true, [], line⟩ = none := by
    simpa [Matches] using h
  simp only [onlyMatching, only, hnone, only_anchored]

/-! ### `grep -o` on a text -/

/-- What `grep -o` prints of a text. -/
def grepOnly (r : Regex) (text : List Char) : List (List Char) :=
  (Text.lines text).flatMap (onlyMatching r)

/-- Where one element of a list has something to give, the list gives that. -/
theorem flatMap_of_unique {α β : Type} {p : α → Bool} {f : α → List β}
    (hnone : ∀ x, p x = false → f x = []) {x : α} (hx : p x = true) :
    ∀ {xs : List α}, xs.countP p ≤ 1 → x ∈ xs → xs.flatMap f = f x := by
  intro xs
  induction xs with
  | nil => intro _ hmem; simp at hmem
  | cons y ys ih =>
      intro hcount hmem
      rw [List.flatMap_cons]
      by_cases hy : p y = true
      · rw [List.countP_cons_of_pos hy] at hcount
        have hzero : ys.countP p = 0 := by omega
        have hrest : ∀ z ∈ ys, f z = [] := by
          intro z hz
          have hpz : ¬ p z = true := List.countP_eq_zero.mp hzero z hz
          exact hnone z (by simpa using hpz)
        have hsame : x = y := by
          rcases List.mem_cons.mp hmem with h | h
          · exact h
          · exact absurd hx (List.countP_eq_zero.mp hzero x h)
        rw [List.flatMap_eq_nil_iff.mpr hrest, List.append_nil, hsame]
      · rw [List.countP_cons_of_neg hy] at hcount
        have hxs : x ∈ ys := by
          rcases List.mem_cons.mp hmem with h | h
          · rw [h] at hx
            exact absurd hx hy
          · exact h
        rw [hnone y (by simpa using hy), List.nil_append, ih hcount hxs]

/-- **Where one line of a text matches, `grep -o` prints what it prints of that line.** -/
theorem grepOnly_of_unique {r : Regex} {text line : List Char}
    (hcount : (Text.lines text).countP (Matches (.seq .bol r)) ≤ 1)
    (hline : line ∈ Text.lines text) (hmatch : Matches (.seq .bol r) line) :
    grepOnly (.seq .bol r) text = onlyMatching (.seq .bol r) line := by
  let p : List Char → Bool := fun l => decide (Matches (.seq .bol r) l)
  have hnone : ∀ l, p l = false → onlyMatching (.seq .bol r) l = [] := by
    intro l hl
    exact onlyMatching_of_not_matches (of_decide_eq_false hl)
  exact flatMap_of_unique hnone (decide_eq_true hmatch) hcount hline

end Perl
