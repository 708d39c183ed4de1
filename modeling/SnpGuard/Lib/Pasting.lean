/-
Command lines that are put together from values as text.

A value is pasted as it is, between double quotes, or as the words of an unquoted expansion.
The line comes apart into the same values exactly when each of them is inert where it stands.
What goes in inert comes out as it was (`run_text`).  The converse counts characters: a quote
or a backslash that is removed is missing from the words, and nothing can make up for it
(`inert_of_read`).
-/
import SnpGuard.Lib.CommandLine

namespace CommandLine

open Words Word State

/-! ### Command lines that are put together -/

/-- What is written to a command line, each with a blank behind it. -/
inductive Piece where
  /-- Nothing but the blank. -/
  | gap
  | bare (value : List Char)
  /-- Between double quotes. -/
  | quoted (value : List Char)
  /-- The words of an unquoted expansion. -/
  | split (value : List Char)

namespace Piece

def text : Piece → List Char
  | gap => [' ']
  | bare v => v ++ [' ']
  | quoted v => '"' :: (v ++ ['"', ' '])
  | split v => (words v).flatMap (· ++ [' '])

/-- The word that it is meant to be. -/
def wanted : Piece → List (List Char)
  | gap => []
  | bare v => [v]
  | quoted v => [v]
  | split v => [v]

/-- The words that it comes to where nothing is removed. -/
def found : Piece → List Word
  | gap => []
  | bare v => (words v).map (marked false)
  | quoted v => [marked true v]
  | split v => (words v).map (marked false)

/-- These words without their marks. -/
def foundText : Piece → List (List Char)
  | gap => []
  | bare v => words v
  | quoted v => [v]
  | split v => words v

theorem map_found (p : Piece) : p.found.map Word.text = p.foundText := by
  have hmarked : ∀ ws : List (List Char), (ws.map (marked false)).map Word.text = ws := by
    intro ws
    rw [List.map_map]
    exact (List.map_congr_left fun w _ => text_marked false w).trans (List.map_id ws)
  cases p with
  | gap => rfl
  | bare v => exact hmarked (words v)
  | quoted v =>
      show [(marked true v).text] = [v]
      rw [text_marked]
  | split v => exact hmarked (words v)

/-- Everything in it stands for itself. -/
def Inert : Piece → Prop
  | gap => True
  | bare v => Bare v
  | quoted v => Quoted v
  | split v => Bare v

/-- The same, up to blanks. -/
def Still : Piece → Prop
  | gap => True
  | bare v => Quiet v
  | quoted v => Quoted v
  | split v => ∀ w ∈ words v, Quiet w

/-- How it ends up in the line where it is inert. -/
theorem found_inert {p : Piece} (h : p.Inert) : p.found.map Word.text = p.wanted := by
  rw [map_found]
  cases p with
  | gap => rfl
  | bare v => exact words_of_plain h.blanks h.nonempty
  | quoted v => rfl
  | split v => exact words_of_plain h.blanks h.nonempty

end Piece

theorem run_bare {v : List Char} (h : Bare v) (done : List Word) :
    run (reading done [] .bare) (v ++ [' ']) = some (reading (done ++ [marked false v]) [] .bare) := by
  have hended : ended v = [marked false v] := if_neg h.nonempty
  rw [run_inert (.inl rfl) h.chars h.blanks h.dollars (by simp) (fun _ => h.comment),
    List.nil_append, hended]

theorem run_quoted {v : List Char} (h : Quoted v) (done : List Word) :
    run (reading done [] .bare) ('"' :: (v ++ ['"', ' ']))
      = some (reading (done ++ [marked true v]) [] .bare) := by
  have hopen : step (reading done [] .bare) '"' = some (quoting done [] .double) := rfl
  have hclose : ∀ w : Word, step ⟨done, some w, .bare⟩ ' ' = some (reading (done ++ [w]) [] .bare) :=
    fun _ => rfl
  have hrest : v ++ ['"', ' '] = (v ++ ['"']) ++ [' '] := by simp
  rw [run_cons, hopen, Option.bind_some, hrest, run_append,
    run_quotedFrom (.inl rfl) (quotedFrom_double.mpr h), Option.bind_some, run_cons, hclose]
  rfl

/-- **What is inert is read as it is meant to be.** -/
theorem run_text {p : Piece} (h : p.Inert) (done : List Word) :
    run (reading done [] .bare) p.text = some (reading (done ++ p.found) [] .bare) := by
  cases p with
  | gap => rfl
  | bare v =>
      show run _ (v ++ [' ']) = some (reading (done ++ (words v).map (marked false)) [] .bare)
      rw [run_bare h, words_of_plain h.blanks h.nonempty, List.map_singleton]
  | quoted v => exact run_quoted h done
  | split v =>
      show run _ ((words v).flatMap (· ++ [' '])) = some (reading (done ++ (words v).map _) [] .bare)
      rw [words_of_plain h.blanks h.nonempty, List.flatMap_cons, List.flatMap_nil, List.append_nil,
        run_bare h, List.map_singleton]

theorem run_pieces {pieces : List Piece} (h : ∀ p ∈ pieces, p.Inert) : ∀ done : List Word,
    run (reading done [] .bare) (pieces.flatMap Piece.text)
      = some (reading (done ++ pieces.flatMap Piece.found) [] .bare) := by
  induction pieces with
  | nil =>
      intro done
      simp
  | cons p pieces ih =>
      intro done
      rw [List.flatMap_cons, run_append, run_text (h p List.mem_cons_self), Option.bind_some,
        ih (fun q hq => h q (List.mem_cons_of_mem p hq)), List.flatMap_cons, List.append_assoc]

theorem read_inert {pieces : List Piece} (h : ∀ p ∈ pieces, p.Inert) :
    read (pieces.flatMap Piece.text) = some (pieces.flatMap Piece.found) := by
  have hrun := run_pieces h []
  have hinitial : State.initial = reading [] [] .bare := rfl
  rw [read, hinitial, hrun]
  simp [finish, reading, close, ended]

/-! ### And nothing else is -/

theorem still_bare {v : List Char} {done : List Word} {s' : State} (hquote : '"' ∉ v)
    (h : run (reading done [] .bare) (v ++ [' ']) = some s')
    (hkeeps : Keeps (reading done [] .bare) (v ++ [' ']) s') :
    Quiet v ∧ s' = reading (done ++ (words v).map (marked false)) [] .bare := by
  obtain ⟨hchars, hchain, -, hcomment, hs'⟩ := quiet_of_run (.inl rfl) (by simp) hquote h hkeeps
  exact ⟨⟨hchars, hchain, hcomment rfl⟩, hs'⟩

theorem still_quoted {v : List Char} {done : List Word} {s' : State} (hquote : '"' ∉ v)
    (h : run (reading done [] .bare) ('"' :: (v ++ ['"', ' '])) = some s')
    (hkeeps : Keeps (reading done [] .bare) ('"' :: (v ++ ['"', ' '])) s') :
    Quoted v ∧ s' = reading (done ++ [marked true v]) [] .bare := by
  have hrest : v ++ ['"', ' '] = (v ++ ['"']) ++ [' '] := by simp
  have hopen : step (reading done [] .bare) '"' = some (quoting done [] .double) := rfl
  have hrun := h
  rw [run_cons, hopen, Option.bind_some] at hrun
  have hinside := (hkeeps.cons hopen hrun).2
  rw [hrest] at hrun hinside
  obtain ⟨s₂, hvalue, hend⟩ := run_append_eq_some.mp hrun
  have hquoted : Quoted v := quotedFrom_double.mp
    (quotedFrom_of_run (.inl rfl) hquote hvalue (hinside.append hvalue hend).1)
  refine ⟨hquoted, ?_⟩
  rw [run_quoted hquoted, Option.some.injEq] at h
  exact h.symm

theorem still_split {ws : List (List Char)} (hws : ∀ w ∈ ws, w ≠ [] ∧ ∀ c ∈ w, isBlank c = false) :
    ∀ {done : List Word} {s' : State}, '"' ∉ ws.flatten →
      run (reading done [] .bare) (ws.flatMap (· ++ [' '])) = some s' →
      Keeps (reading done [] .bare) (ws.flatMap (· ++ [' '])) s' →
      (∀ w ∈ ws, Quiet w) ∧ s' = reading (done ++ ws.map (marked false)) [] .bare := by
  induction ws with
  | nil =>
      intro done s' _ h _
      cases h
      simp
  | cons w ws ih =>
      intro done s' hquote h hkeeps
      rw [List.flatten_cons, List.mem_append, not_or] at hquote
      rw [List.flatMap_cons] at h hkeeps
      obtain ⟨s₁, hfirst, hrest⟩ := run_append_eq_some.mp h
      obtain ⟨hkeeps₁, hkeeps₂⟩ := hkeeps.append hfirst hrest
      obtain ⟨hw, rfl⟩ := still_bare hquote.1 hfirst hkeeps₁
      obtain ⟨hne, hblank⟩ := hws w List.mem_cons_self
      obtain ⟨hquiet, rfl⟩ :=
        ih (fun w' hw' => hws w' (List.mem_cons_of_mem w hw')) hquote.2 hrest hkeeps₂
      refine ⟨List.forall_mem_cons.mpr ⟨hw, hquiet⟩, ?_⟩
      rw [words_of_plain hblank hne]
      simp

theorem still_piece {p : Piece} {done : List Word} {s' : State} (hquote : '"' ∉ p.wanted.flatten)
    (h : run (reading done [] .bare) p.text = some s')
    (hkeeps : Keeps (reading done [] .bare) p.text s') :
    p.Still ∧ s' = reading (done ++ p.found) [] .bare := by
  cases p with
  | gap =>
      have hinert : Piece.Inert .gap := trivial
      rw [run_text hinert, Option.some.injEq] at h
      exact ⟨trivial, h.symm⟩
  | bare v => exact still_bare (by simpa [Piece.wanted] using hquote) h hkeeps
  | quoted v => exact still_quoted (by simpa [Piece.wanted] using hquote) h hkeeps
  | split v =>
      refine still_split (fun w hw => plain_of_mem_words hw) (fun hmem => ?_) h hkeeps
      rw [flatten_words, List.mem_filter] at hmem
      exact hquote (by simpa [Piece.wanted] using hmem.1)

/-- A line that is read with everything in it kept is still, and its words are those that its
pieces come to. -/
theorem still_pieces {pieces : List Piece} (hquote : ∀ p ∈ pieces, '"' ∉ p.wanted.flatten) :
    ∀ {done : List Word} {s' : State},
      run (reading done [] .bare) (pieces.flatMap Piece.text) = some s' →
      Keeps (reading done [] .bare) (pieces.flatMap Piece.text) s' →
      (∀ p ∈ pieces, p.Still) ∧ s' = reading (done ++ pieces.flatMap Piece.found) [] .bare := by
  induction pieces with
  | nil =>
      intro done s' h _
      cases h
      simp
  | cons p pieces ih =>
      intro done s' h hkeeps
      rw [List.flatMap_cons] at h hkeeps
      obtain ⟨s₁, hfirst, hrest⟩ := run_append_eq_some.mp h
      obtain ⟨hkeeps₁, hkeeps₂⟩ := hkeeps.append hfirst hrest
      obtain ⟨hp, rfl⟩ := still_piece (hquote p List.mem_cons_self) hfirst hkeeps₁
      obtain ⟨hstill, rfl⟩ :=
        ih (fun q hq => hquote q (List.mem_cons_of_mem p hq)) hrest hkeeps₂
      refine ⟨List.forall_mem_cons.mpr ⟨hp, hstill⟩, ?_⟩
      rw [List.flatMap_cons, List.append_assoc]

/-- Two lists of words in which the same quotes, backslashes and blanks occur. -/
structure Alike (a b : List (List Char)) : Prop where
  marks : ∀ d, d = '\'' ∨ d = '\\' ∨ d = '"' → a.flatten.count d = b.flatten.count d
  blanks : a.flatten.countP isBlank = b.flatten.countP isBlank
  length : a.length = b.length

theorem Alike.refl (a : List (List Char)) : Alike a a := ⟨fun _ _ => rfl, rfl, rfl⟩

/-- The words hold what the run has kept. -/
theorem chars_of_finish {s : State} {ws : List Word} (h : finish s = some ws) :
    (ws.map Word.text).flatten = s.chars := by
  have hclose : ∀ s : State, (s.close.words.map Word.text).flatten = s.text := by
    intro s
    rw [← text_close s]
    simp [State.text, close]
  unfold finish at h
  split at h
  · rename_i hmode
    cases h
    rw [hclose, chars, hmode, pending_bare, List.append_nil]
  · rename_i hmode
    cases h
    rw [hclose, chars_eq (by rw [hmode]; rfl)]
  · rename_i hmode
    cases h
    rw [hclose, text_add, chars, hmode, pending_escape]
  · cases h

/-- Quotes of the line itself aside, its pieces bring in what is in the words that they are
meant to be. -/
theorem count_text {d : Char} (hblank : isBlank d = false) (hquote : d ≠ '"')
    (pieces : List Piece) : (pieces.flatMap Piece.text).count d
      = (pieces.flatMap Piece.wanted).flatten.count d := by
  have hspace : d ≠ ' ' := by
    rintro rfl
    exact absurd hblank (by decide)
  have hsplit : ∀ ws : List (List Char), (ws.flatMap (· ++ [' '])).count d = ws.flatten.count d := by
    intro ws
    induction ws with
    | nil => rfl
    | cons w ws ih => simp [List.count_append, ih, hspace.symm]
  induction pieces with
  | nil => rfl
  | cons p pieces ih =>
      rw [List.flatMap_cons, List.flatMap_cons, List.flatten_append, List.count_append,
        List.count_append, ih]
      congr 1
      cases p with
      | gap => simp [Piece.text, Piece.wanted, hspace.symm]
      | bare v => simp [Piece.text, Piece.wanted, hspace.symm]
      | quoted v => simp [Piece.text, Piece.wanted, hspace.symm, Ne.symm hquote]
      | split v =>
          show ((words v).flatMap (· ++ [' '])).count d = [v].flatten.count d
          rw [hsplit, flatten_words, List.flatten_singleton,
            List.count_filter (by simpa using hblank)]

/-- Where totals agree, so do the parts that are no greater. -/
theorem eq_of_total {α β : Type} {f g : α → List β} (size : List β → Nat)
    (hsize : ∀ a b, size (a ++ b) = size a + size b) {l : List α}
    (hle : ∀ x ∈ l, size (f x) ≤ size (g x)) :
    size (l.flatMap f) ≤ size (l.flatMap g) ∧
      (size (l.flatMap f) = size (l.flatMap g) → ∀ x ∈ l, size (f x) = size (g x)) := by
  induction l with
  | nil => simp
  | cons x l ih =>
      obtain ⟨hrest, heq⟩ := ih fun y hy => hle y (List.mem_cons_of_mem x hy)
      have hx := hle x List.mem_cons_self
      rw [List.flatMap_cons, List.flatMap_cons, hsize, hsize]
      refine ⟨by omega, fun htotal => List.forall_mem_cons.mpr ⟨by omega, ?_⟩⟩
      exact heq (by omega)

theorem blanks_words (v : List Char) : (words v).flatten.countP isBlank = 0 := by
  rw [List.countP_eq_zero]
  intro c hc
  rw [flatten_words, List.mem_filter] at hc
  simpa using hc.2

theorem blanks_foundText_le (p : Piece) :
    p.foundText.flatten.countP isBlank ≤ p.wanted.flatten.countP isBlank := by
  cases p with
  | gap => exact Nat.le_refl 0
  | bare v => exact (blanks_words v).trans_le (Nat.zero_le _)
  | quoted v => exact Nat.le_refl _
  | split v => exact (blanks_words v).trans_le (Nat.zero_le _)

/-- A value that has no more blanks than its words is one word at most. -/
theorem one_word {v : List Char}
    (h : (words v).flatten.countP isBlank = [v].flatten.countP isBlank) :
    (∀ c ∈ v, isBlank c = false) ∧ (words v).length ≤ 1 ∧ ((words v).length = 1 → v ≠ []) := by
  rw [blanks_words, List.flatten_singleton, eq_comm, List.countP_eq_zero] at h
  have hblank : ∀ c ∈ v, isBlank c = false := fun c hc => by simpa using h c hc
  refine ⟨hblank, ?_⟩
  by_cases hv : v = []
  · simp [hv]
  · simp [words_of_plain hblank hv, hv]

/-- Pieces that are still, and come to as many blanks and words as they are meant to. -/
theorem inert_of_still {pieces : List Piece} (hstill : ∀ p ∈ pieces, p.Still)
    (hblanks : (pieces.flatMap Piece.foundText).flatten.countP isBlank
      = (pieces.flatMap Piece.wanted).flatten.countP isBlank)
    (hlength : (pieces.flatMap Piece.foundText).length = (pieces.flatMap Piece.wanted).length) :
    ∀ p ∈ pieces, p.Inert := by
  have hfree := (eq_of_total (fun ws : List (List Char) => ws.flatten.countP isBlank)
    (by simp) fun p _ => blanks_foundText_le p).2 hblanks
  have hle : ∀ p ∈ pieces, p.foundText.length ≤ p.wanted.length := by
    intro p hp
    have hp' := hfree p hp
    cases p with
    | gap => exact Nat.le_refl 0
    | bare v => exact (one_word hp').2.1
    | quoted v => exact Nat.le_refl _
    | split v => exact (one_word hp').2.1
  have hone := (eq_of_total List.length (fun _ _ => List.length_append) hle).2 hlength
  intro p hp
  have hstill' := hstill p hp
  have hfree' := hfree p hp
  have hone' := hone p hp
  cases p with
  | gap => trivial
  | bare v =>
      obtain ⟨hblank, -, hne⟩ := one_word hfree'
      exact ⟨hstill', hne hone', hblank⟩
  | quoted v => exact hstill'
  | split v =>
      obtain ⟨hblank, -, hne⟩ := one_word hfree'
      have hword : v ∈ words v := by simp [words_of_plain hblank (hne hone')]
      exact ⟨hstill' v hword, hne hone', hblank⟩

/-- **A line whose words are those it is meant to have, up to what quoting and splitting
cannot change, has only inert pieces.** -/
theorem inert_of_read {pieces : List Piece} {ws : List Word}
    (h : read (pieces.flatMap Piece.text) = some ws)
    (halike : Alike (ws.map Word.text) (pieces.flatMap Piece.wanted)) :
    (∀ p ∈ pieces, p.Inert) ∧ ws = pieces.flatMap Piece.found := by
  obtain ⟨s', hrun, hfinish⟩ := Option.bind_eq_some_iff.mp h
  have hchars := chars_of_finish hfinish
  have hkeeps : Keeps .initial (pieces.flatMap Piece.text) s' := by
    intro d hd
    have hblank : isBlank d = false ∧ d ≠ '"' := by
      rcases hd with rfl | rfl
      · decide
      · decide
    have hmarks := halike.marks d (by tauto)
    rw [← hchars, hmarks, count_text hblank.1 hblank.2]
    simp [State.initial, State.chars, State.text]
  have hquotes : ∀ p ∈ pieces, '"' ∉ p.wanted.flatten := by
    -- All double quotes are removed, so none of them is in a value.
    have hnone := hkeeps.quotes_run (by decide) hrun
    rw [← hchars, halike.marks '"' (by simp)] at hnone
    intro p hp hmem
    obtain ⟨v, hv, hquote⟩ := List.mem_flatten.mp hmem
    have hin := List.mem_flatten.mpr ⟨v, List.mem_flatMap.mpr ⟨p, hp, hv⟩, hquote⟩
    exact List.count_eq_zero.mp hnone hin
  obtain ⟨hstill, rfl⟩ := still_pieces hquotes hrun hkeeps
  have hws : ws = pieces.flatMap Piece.found := by
    simpa [finish, reading, close, ended] using hfinish.symm
  have hfound : ws.map Word.text = pieces.flatMap Piece.foundText := by
    rw [hws, List.map_flatMap]
    exact List.flatMap_congr fun p _ => p.map_found
  refine ⟨inert_of_still hstill ?_ ?_, hws⟩
  · rw [← hfound]
    exact halike.blanks
  · rw [← hfound]
    exact halike.length

end CommandLine
