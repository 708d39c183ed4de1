/-
`sed` scripts that change whole lines.

An edit replaces every line that it hits by its own text, and a script is a list of edits,
each of which goes over all lines of what the one before left.  As each edit looks at one
line at a time, so does the script (`run_eq_map`).  A line ends up as it was, or as the text
of an edit, and once it is the text of an edit only a later edit can take it away
(`settle_eq_text_iff`).
-/
import Mathlib.Data.List.Basic

namespace Sed

variable {α : Type}

/-- `/address/c text`. -/
structure Edit (α : Type) where
  hits : α → Bool
  text : α

def Edit.apply (line : α) (e : Edit α) : α := if e.hits line then e.text else line

/-- A script, edit by edit. -/
def run (script : List (Edit α)) (lines : List α) : List α :=
  script.foldl (fun lines e => lines.map (Edit.apply · e)) lines

/-- What becomes of one line. -/
def settle (script : List (Edit α)) (line : α) : α := script.foldl Edit.apply line

theorem run_eq_map (script : List (Edit α)) (lines : List α) :
    run script lines = lines.map (settle script) := by
  induction script generalizing lines with
  | nil => exact (List.map_id lines).symm
  | cons e script ih =>
      show run script (lines.map (Edit.apply · e)) = _
      rw [ih, List.map_map]
      rfl

/-- A line that no edit hits stays. -/
theorem settle_of_missed {script : List (Edit α)} {line : α}
    (h : ∀ e ∈ script, e.hits line = false) : settle script line = line := by
  induction script with
  | nil => rfl
  | cons e script ih =>
      have happly : Edit.apply line e = line := by simp [Edit.apply, h e List.mem_cons_self]
      show settle script (Edit.apply line e) = line
      rw [happly]
      exact ih fun e' he' => h e' (List.mem_cons_of_mem e he')

/-- A line that some edit hits ends up as the text of one of them. -/
theorem settle_of_hit {script : List (Edit α)} {line : α} (h : ∃ e ∈ script, e.hits line = true) :
    ∃ e ∈ script, settle script line = e.text := by
  induction script generalizing line with
  | nil => simp at h
  | cons e script ih =>
      show ∃ e' ∈ e :: script, settle script (Edit.apply line e) = e'.text
      by_cases hlater : ∃ e' ∈ script, e'.hits (Edit.apply line e) = true
      · obtain ⟨e', he', hsettle⟩ := ih hlater
        exact ⟨e', List.mem_cons_of_mem e he', hsettle⟩
      · have hmissed : settle script (Edit.apply line e) = Edit.apply line e := by
          refine settle_of_missed fun e' he' => ?_
          by_contra hhit
          exact hlater ⟨e', he', by simpa using hhit⟩
        refine ⟨e, List.mem_cons_self, ?_⟩
        rw [hmissed]
        obtain ⟨e', he', hhit⟩ := h
        rcases List.mem_cons.mp he' with rfl | he'
        · simp [Edit.apply, hhit]
        · by_cases hfirst : e.hits line = true
          · simp [Edit.apply, hfirst]
          · have hsame : Edit.apply line e = line := by simp [Edit.apply, hfirst]
            rw [hsame] at hlater
            exact absurd ⟨e', he', hhit⟩ hlater

variable {before after : List (Edit α)} {e : Edit α}

/-- Up to the first edit that hits, a line stays as it is. -/
theorem settle_of_first {line : α} (hbefore : ∀ e' ∈ before, e'.hits line = false)
    (hhit : e.hits line = true) :
    settle (before ++ e :: after) line = settle after e.text := by
  have happly : Edit.apply line e = e.text := by simp [Edit.apply, hhit]
  have hstay : settle before line = line := settle_of_missed hbefore
  unfold settle at *
  rw [List.foldl_append, hstay, List.foldl_cons, happly]

/-- **The text of an edit survives exactly if no later edit hits it.** -/
theorem settle_text_iff (hdistinct : ∀ e' ∈ after, e'.text ≠ e.text) :
    settle after e.text = e.text ↔ ∀ e' ∈ after, e'.hits e.text = false := by
  refine ⟨?_, settle_of_missed⟩
  intro h e' he'
  by_contra hhit
  obtain ⟨e'', he'', hsettle⟩ := settle_of_hit ⟨e', he', by simpa using hhit⟩
  exact hdistinct e'' he'' (hsettle.symm.trans h)

/-- **A line ends up as the text of an edit only if that text survives.** -/
theorem survives_of_settle (hdistinct : ∀ e' ∈ after, e'.text ≠ e.text)
    (hself : e.hits e.text = true) {line : α}
    (h : settle (before ++ e :: after) line = e.text) :
    ∀ e' ∈ after, e'.hits e.text = false := by
  rw [← settle_text_iff hdistinct]
  have hsplit : settle (before ++ e :: after) line
      = settle after (Edit.apply (settle before line) e) := by
    unfold settle
    rw [List.foldl_append, List.foldl_cons]
  rw [hsplit] at h
  by_cases hhit : e.hits (settle before line) = true
  · rwa [Edit.apply, if_pos hhit] at h
  · have hsame : Edit.apply (settle before line) e = settle before line := by
      simp [Edit.apply, hhit]
    rw [hsame] at h
    by_cases hlater : ∃ e' ∈ after, e'.hits (settle before line) = true
    · obtain ⟨e', he', hsettle⟩ := settle_of_hit hlater
      exact absurd (hsettle.symm.trans h) (hdistinct e' he')
    · have hmissed : settle after (settle before line) = settle before line := by
        refine settle_of_missed fun e' he' => ?_
        by_contra hhit'
        exact hlater ⟨e', he', by simpa using hhit'⟩
      rw [hmissed] at h
      rw [h] at hhit
      exact absurd hself hhit

end Sed
