/-
Words: what a shell makes of an unquoted expansion, and `awk` of a line.

A text is cut at its blanks, and what lies between them are its words; a text without blanks
is one word, or none if it is empty.  The shell then takes every word with a pattern
character in it for a pattern and puts the matching file names in its place.
-/
import Mathlib.Data.List.DropRight
import SnpGuard.Lib.Shell

namespace Words

def isBlank (c : Char) : Bool := c == ' ' || c == '\t' || c == '\n'

def nul : Char := Char.ofNat 0

/-- The words of a text. -/
def words (text : List Char) : List (List Char) := (text.splitOnP isBlank).filter (!·.isEmpty)

@[simp] theorem words_nil : words [] = [] := rfl

/-- No word reaches over a blank. -/
theorem words_append {c : Char} (hc : isBlank c = true) (a b : List Char) :
    words (a ++ c :: b) = words a ++ words b := by
  unfold words
  rw [List.splitOnP_append_cons _ _ hc, List.filter_append]

/-- A text without blanks is a word. -/
theorem words_of_plain {w : List Char} (h : ∀ c ∈ w, isBlank c = false) (hne : w ≠ []) :
    words w = [w] := by
  unfold words
  rw [List.splitOnP_eq_singleton h, List.filter_cons_of_pos (by simpa using hne), List.filter_nil]

theorem flatten_splitOnP {α : Type} (p : α → Bool) (xs : List α) :
    (xs.splitOnP p).flatten = xs.filter (!p ·) := by
  induction xs with
  | nil => rfl
  | cons x xs ih =>
      rw [List.splitOnP_cons_eq_if_modifyHead]
      split_ifs with hx
      · simp [ih, hx]
      · obtain ⟨head, tail, hsplit⟩ := List.exists_cons_of_ne_nil (List.splitOnP_ne_nil p xs)
        rw [hsplit, List.flatten_cons] at ih
        simp [hsplit, hx, ← ih]

/-- Nothing but blanks is missing from the words. -/
theorem flatten_words (text : List Char) : (words text).flatten = text.filter (!isBlank ·) := by
  unfold words
  rw [List.flatten_filter_not_isEmpty, flatten_splitOnP]

/-- Words are not empty, and there are no blanks in them. -/
theorem plain_of_mem_words {w text : List Char} (hw : w ∈ words text) :
    w ≠ [] ∧ ∀ c ∈ w, isBlank c = false := by
  refine ⟨?_, fun c hc => ?_⟩
  · have hne := List.of_mem_filter hw
    simpa using hne
  · have hmem := List.mem_flatten.mpr ⟨w, hw, hc⟩
    rw [flatten_words, List.mem_filter] at hmem
    simpa using hmem.2

/-- Command substitution changes no word. -/
theorem words_substitution {nul : Char} {text : List Char} (hnul : nul ∉ text) :
    words (Shell.substitution nul '\n' text) = words text := by
  unfold Shell.substitution
  rw [Shell.filter_nul hnul]
  induction text using List.reverseRecOn with
  | nil => rfl
  | append_singleton text c ih =>
      by_cases hc : c = '\n'
      · subst hc
        have hrest : nul ∉ text := fun h => hnul (by simp [h])
        rw [List.rdropWhile_concat_pos _ _ _ (by simp), ih hrest, words_append rfl, words_nil,
          List.append_nil]
      · rw [List.rdropWhile_concat_neg _ _ _ (by simpa using hc)]

/-- Nor does it if there are NULs, but for these. -/
theorem words_substitution_filter (nul : Char) (text : List Char) :
    words (Shell.substitution nul '\n' text) = words (text.filter (· ≠ nul)) := by
  have hsame : Shell.substitution nul '\n' text =
      Shell.substitution nul '\n' (text.filter (· ≠ nul)) := by
    unfold Shell.substitution
    rw [List.filter_filter]
    simp
  rw [hsame, words_substitution (by simp)]

/-- The words of lines that are words. -/
theorem words_flatMap_lines {lines : List (List Char)}
    (h : ∀ l ∈ lines, l ≠ [] ∧ ∀ c ∈ l, isBlank c = false) :
    words (lines.flatMap (· ++ ['\n'])) = lines := by
  induction lines with
  | nil => rfl
  | cons l lines ih =>
      obtain ⟨hne, hl⟩ := h l List.mem_cons_self
      have hrest := ih fun l' hl' => h l' (List.mem_cons_of_mem l hl')
      rw [List.flatMap_cons, List.append_assoc, List.singleton_append, words_append rfl,
        words_of_plain hl hne, hrest, List.singleton_append]

/-- The words of words with blanks between them. -/
theorem words_intercalate {ws : List (List Char)}
    (h : ∀ w ∈ ws, w ≠ [] ∧ ∀ c ∈ w, isBlank c = false) : words ([' '].intercalate ws) = ws := by
  induction ws with
  | nil => rfl
  | cons w ws ih =>
      obtain ⟨hne, hw⟩ := h w List.mem_cons_self
      have hrest := ih fun w' hw' => h w' (List.mem_cons_of_mem w hw')
      cases ws with
      | nil => simpa using words_of_plain hw hne
      | cons w' ws =>
          rw [List.intercalate_cons_cons, List.append_assoc, List.singleton_append,
            words_append rfl, words_of_plain hw hne, hrest, List.singleton_append]

/-! ### Pathname expansion -/

/-- A word with one of these is a pattern. -/
def isPattern (c : Char) : Bool := c == '*' || c == '?' || c == '[' || c == '\\'

/-- What the shell finds for a word; one that is no pattern stays. -/
structure Expansion where
  expand : List Char → List (List Char)
  plain : ∀ {w}, (∀ c ∈ w, isPattern c = false) → expand w = [w]

/-- Where there are no files, every word stays. -/
def Expansion.noFiles : Expansion := ⟨fun w => [w], fun _ => rfl⟩

/-- What an unquoted expansion of a variable comes to. -/
def Expansion.unquoted (x : Expansion) (text : String) : List String :=
  ((words text.toList).flatMap x.expand).map String.ofList

/-- One word that is no pattern. -/
def Plain (text : List Char) : Prop :=
  text ≠ [] ∧ ∀ c ∈ text, isBlank c = false ∧ isPattern c = false

instance (text : List Char) : Decidable (Plain text) :=
  haveI := List.decidableBAll (fun c => isBlank c = false ∧ isPattern c = false) text
  inferInstanceAs (Decidable (_ ∧ _))

theorem Expansion.unquoted_of_plain (x : Expansion) {text : String} (h : Plain text.toList) :
    x.unquoted text = [text] := by
  unfold Expansion.unquoted
  rw [words_of_plain (fun c hc => (h.2 c hc).1) h.1, List.flatMap_cons, List.flatMap_nil,
    List.append_nil, x.plain fun c hc => (h.2 c hc).2, List.map_singleton, String.ofList_toList]

/-- Words that are no patterns come out as they are. -/
theorem Expansion.unquoted_of_words (x : Expansion) {text : String} {ws : List (List Char)}
    (hwords : words text.toList = ws) (h : ∀ w ∈ ws, ∀ c ∈ w, isPattern c = false) :
    x.unquoted text = ws.map String.ofList := by
  have hsame : ws.flatMap x.expand = ws := by
    clear hwords
    induction ws with
    | nil => rfl
    | cons w ws ih =>
        rw [List.flatMap_cons, x.plain (h w List.mem_cons_self),
          ih fun w' hw' => h w' (List.mem_cons_of_mem w hw'), List.singleton_append]
  unfold Expansion.unquoted
  rw [hwords, hsame]

/-! ### Fields of a line -/

/-- `awk '{ print $2 }'`, of a line. -/
def awkSecond (line : List Char) : List Char := (words line)[1]?.getD []

/-- `awk '{ print $3 }'`, of a line. -/
def awkThird (line : List Char) : List Char := (words line)[2]?.getD []

/-- `cut -d ":" -f 2`, of a line; one without a colon is printed whole. -/
def cutSecond (line : List Char) : List Char := (line.splitOn ':')[1]?.getD line

theorem awkSecond_of_words {a b rest : List Char} (ha : a ≠ [] ∧ ∀ c ∈ a, isBlank c = false)
    (hb : b ≠ [] ∧ ∀ c ∈ b, isBlank c = false) :
    awkSecond (a ++ ' ' :: (b ++ ' ' :: rest)) = b := by
  unfold awkSecond
  rw [words_append rfl, words_append rfl, words_of_plain ha.2 ha.1, words_of_plain hb.2 hb.1]
  rfl

theorem awkThird_of_words {a b c rest : List Char} (ha : a ≠ [] ∧ ∀ c ∈ a, isBlank c = false)
    (hb : b ≠ [] ∧ ∀ c ∈ b, isBlank c = false) (hc : c ≠ [] ∧ ∀ d ∈ c, isBlank d = false) :
    awkThird (a ++ ' ' :: (b ++ ' ' :: (c ++ ' ' :: rest))) = c := by
  unfold awkThird
  rw [words_append rfl, words_append rfl, words_append rfl, words_of_plain ha.2 ha.1,
    words_of_plain hb.2 hb.1, words_of_plain hc.2 hc.1]
  rfl

theorem cutSecond_of_colon {a b : List Char} (ha : ':' ∉ a) (hb : ':' ∉ b) :
    cutSecond (a ++ ':' :: b) = b := by
  have hnot : ∀ {t : List Char}, ':' ∉ t → ∀ c ∈ t, (c == ':') = false := by
    intro t ht c hc
    simpa using fun heq : c = ':' => ht (heq ▸ hc)
  unfold cutSecond
  rw [List.splitOn_eq_splitOnP, List.splitOnP_append_cons _ _ (by simp),
    List.splitOnP_eq_singleton (hnot ha), List.splitOnP_eq_singleton (hnot hb)]
  rfl

end Words
