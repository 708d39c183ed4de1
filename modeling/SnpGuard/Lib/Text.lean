/-
Names and URLs assembled from fields.

A name made of numbers and fixed words can be taken apart again where each number is
followed by a character that is no digit: `toString_append_inj` takes one number off the
front.  `hexEncode_injective` reads a field of hexadecimal digits.  `lines` are those that
a line by line reader sees.
-/
import Mathlib.Data.List.Basic
import Std.Data.String.ToNat
import SnpGuard.Lib.Bytes

namespace Text

/-- Where a character first stands splits a text in one way. -/
theorem append_cons_inj {c : Char} {as bs xs ys : List Char} (has : c ∉ as) (hbs : c ∉ bs)
    (h : as ++ c :: xs = bs ++ c :: ys) : as = bs ∧ xs = ys := by
  induction as generalizing bs with
  | nil =>
      cases bs with
      | nil => simpa using h
      | cons b bs =>
          simp only [List.nil_append, List.cons_append, List.cons.injEq] at h
          exact absurd h.1 (by simpa using fun hc => hbs (by simp [hc]))
  | cons a as ih =>
      cases bs with
      | nil =>
          simp only [List.nil_append, List.cons_append, List.cons.injEq] at h
          exact absurd h.1.symm (by simpa using fun hc => has (by simp [hc]))
      | cons b bs =>
          simp only [List.cons_append, List.cons.injEq] at h
          simp only [List.mem_cons, not_or] at has hbs
          obtain ⟨htail, hrest⟩ := ih has.2 hbs.2 h.2
          exact ⟨by rw [h.1, htail], hrest⟩

/-- What holds of the first character of a text. -/
theorem forall_head {P : Char → Prop} {c : Char} {t : List Char} (h : P c) :
    ∀ d ∈ (c :: t).head?, P d := by
  intro d hd
  have hcd : c = d := Option.some.inj hd
  rw [← hcd]
  exact h

/-- Where a class of characters ends splits a text in one way. -/
theorem append_inj_of_class {p : Char → Bool} {as bs xs ys : List Char}
    (has : ∀ c ∈ as, p c = true) (hbs : ∀ c ∈ bs, p c = true)
    (hxs : ∀ c ∈ xs.head?, p c = false) (hys : ∀ c ∈ ys.head?, p c = false)
    (h : as ++ xs = bs ++ ys) : as = bs ∧ xs = ys := by
  have htake : ∀ {as xs : List Char}, (∀ c ∈ as, p c = true) → (∀ c ∈ xs.head?, p c = false) →
      (as ++ xs).takeWhile p = as := by
    intro as xs has hxs
    have hnone : xs.takeWhile p = [] := by
      cases xs with
      | nil => rfl
      | cons c xs =>
          have hc : p c = false := hxs c rfl
          simp [hc]
    rw [List.takeWhile_append_of_pos has, hnone, List.append_nil]
  have hsame : as = bs := by rw [← htake has hxs, h, htake hbs hys]
  subst hsame
  exact ⟨rfl, List.append_cancel_left h⟩

/-- A word does not reach over a character that it does not have. -/
theorem infix_of_not_mem {c : Char} {s as bs : List Char} (hs : c ∉ s)
    (h : s <:+: as ++ c :: bs) : s <:+: as ∨ s <:+: bs := by
  obtain ⟨pre, post, h⟩ := h
  rcases List.append_eq_append_iff.mp h with ⟨mid, hleft, -⟩ | ⟨mid, hleft, hright⟩
  · exact .inl ⟨pre, mid, hleft.symm⟩
  · cases mid with
    | nil =>
        rw [List.append_nil] at hleft
        exact .inl ⟨pre, [], by rw [List.append_nil, hleft]⟩
    | cons d mid =>
        rw [List.cons_append, List.cons.injEq] at hright
        obtain ⟨rfl, rfl⟩ := hright
        rcases List.append_eq_append_iff.mp hleft with ⟨mid', -, hword⟩ | ⟨mid', -, hword⟩
        · exact absurd (hword ▸ by simp) hs
        · cases mid' with
          | nil =>
              rw [List.nil_append] at hword
              exact absurd (hword ▸ List.mem_cons_self) hs
          | cons e mid' =>
              rw [List.cons_append, List.cons.injEq] at hword
              exact .inr ⟨mid', post, by rw [hword.2]⟩

theorem digit_of_mem_toString {n : Nat} {c : Char} (h : c ∈ (toString n).toList) :
    c.isDigit = true := by
  change c ∈ (Nat.repr n).toList at h
  rw [Nat.repr, String.toList_ofList] at h
  exact Nat.isDigit_of_mem_toDigits (by decide) (by decide) h

/-- A number in front of a character that is no digit can be read off. -/
theorem toString_append_inj {m n : Nat} {c : Char} {xs ys : List Char}
    (hc : c.isDigit = false)
    (h : (toString m).toList ++ c :: xs = (toString n).toList ++ c :: ys) : m = n ∧ xs = ys := by
  have hnot : ∀ k : Nat, c ∉ (toString k).toList := by
    intro k hk
    rw [digit_of_mem_toString hk] at hc
    exact Bool.noConfusion hc
  obtain ⟨hrepr, hrest⟩ := append_cons_inj (hnot m) (hnot n) h
  exact ⟨Nat.repr_injective (String.toList_injective hrepr), hrest⟩

/-! ### Lines -/

/-- The lines of a text. -/
def lines : List Char → List (List Char)
  | [] => []
  | c :: text =>
    if c = '\n' then [] :: lines text
    else
      match lines text with
      | [] => [[c]]
      | l :: ls => (c :: l) :: ls

theorem lines_newline_ne_nil (front : List Char) : lines (front ++ ['\n']) ≠ [] := by
  cases front with
  | nil => simp [lines]
  | cons c front =>
      rw [List.cons_append, lines]
      by_cases hc : c = '\n'
      · rw [if_pos hc]
        simp
      · rw [if_neg hc]
        cases lines (front ++ ['\n']) <;> simp

/-- A newline ends a line, whatever comes before and behind it. -/
theorem lines_append (front text : List Char) :
    lines (front ++ '\n' :: text) = lines (front ++ ['\n']) ++ lines text := by
  induction front with
  | nil => simp [lines]
  | cons c front ih =>
      simp only [List.cons_append, lines]
      by_cases hc : c = '\n'
      · rw [if_pos hc, if_pos hc, ih]
        rfl
      · rw [if_neg hc, if_neg hc, ih]
        obtain ⟨l, ls, hls⟩ := List.exists_cons_of_ne_nil (lines_newline_ne_nil front)
        rw [hls]
        rfl

theorem lines_line {line : List Char} (h : '\n' ∉ line) : lines (line ++ ['\n']) = [line] := by
  induction line with
  | nil => simp [lines]
  | cons c line ih =>
      simp only [List.mem_cons, not_or] at h
      have hc : c ≠ '\n' := fun heq => h.1 heq.symm
      rw [List.cons_append, lines, if_neg hc, ih h.2]

theorem lines_last {line : List Char} (h : '\n' ∉ line) (hne : line ≠ []) :
    lines line = [line] := by
  induction line with
  | nil => exact absurd rfl hne
  | cons c line ih =>
      simp only [List.mem_cons, not_or] at h
      have hc : c ≠ '\n' := fun heq => h.1 heq.symm
      rw [lines, if_neg hc]
      by_cases hnil : line = []
      · rw [hnil]
        rfl
      · rw [ih h.2 hnil]

/-- A line is a piece of the text, without the newline. -/
theorem mem_of_mem_lines {text line : List Char} (h : line ∈ lines text) :
    '\n' ∉ line ∧ ∀ c ∈ line, c ∈ text := by
  induction text generalizing line with
  | nil => simp [lines] at h
  | cons d text ih =>
      rw [lines] at h
      by_cases hd : d = '\n'
      · rw [if_pos hd, List.mem_cons] at h
        rcases h with rfl | h
        · simp
        · obtain ⟨hline, hmem⟩ := ih h
          exact ⟨hline, fun c hc => List.mem_cons_of_mem d (hmem c hc)⟩
      · rw [if_neg hd] at h
        cases hlines : lines text with
        | nil =>
            simp only [hlines, List.mem_singleton] at h
            subst h
            exact ⟨by simpa using Ne.symm hd, by simp⟩
        | cons l ls =>
            simp only [hlines, List.mem_cons] at h
            rcases h with rfl | h
            · obtain ⟨hline, hmem⟩ := ih (hlines ▸ List.mem_cons_self)
              refine ⟨by simpa using ⟨Ne.symm hd, hline⟩, ?_⟩
              intro c hc
              rcases List.mem_cons.mp hc with rfl | hc
              · exact List.mem_cons_self
              · exact List.mem_cons_of_mem d (hmem c hc)
            · obtain ⟨hline, hmem⟩ := ih (hlines ▸ List.mem_cons_of_mem l h)
              exact ⟨hline, fun c hc => List.mem_cons_of_mem d (hmem c hc)⟩

end Text

namespace Bytes

theorem hexDigit_injective {m n : Nat} (hm : m < 16) (hn : n < 16)
    (h : hexDigit m = hexDigit n) : m = n := by
  have hall : ∀ a : Fin 16, ∀ b : Fin 16, hexDigit a = hexDigit b → a = b := by decide
  have hfin := hall ⟨m, hm⟩ ⟨n, hn⟩ h
  exact Fin.mk.inj hfin

theorem hexEncode_toList (bs : Bytes) : (hexEncode bs).toList
    = bs.flatMap fun b => [hexDigit (b.toNat / 16), hexDigit (b.toNat % 16)] := by
  rw [hexEncode, String.toList_ofList]

theorem length_hexEncode (bs : Bytes) : (hexEncode bs).toList.length = 2 * bs.length := by
  rw [hexEncode_toList]
  induction bs with
  | nil => rfl
  | cons b bs ih =>
      rw [List.flatMap_cons, List.length_append, ih]
      simp only [List.length_cons, List.length_nil]
      omega

theorem hexEncode_injective {xs ys : Bytes} (h : (hexEncode xs).toList = (hexEncode ys).toList) :
    xs = ys := by
  rw [hexEncode_toList, hexEncode_toList] at h
  induction xs generalizing ys with
  | nil =>
      cases ys with
      | nil => rfl
      | cons y ys => simp at h
  | cons x xs ih =>
      cases ys with
      | nil => simp at h
      | cons y ys =>
          simp only [List.flatMap_cons, List.cons_append, List.nil_append, List.cons.injEq] at h
          obtain ⟨hhigh, hlow, hrest⟩ := h
          have hx := x.toNat_lt
          have hy := y.toNat_lt
          have hdiv := hexDigit_injective (by omega) (by omega) hhigh
          have hmod := hexDigit_injective (by omega) (by omega) hlow
          have hbyte : x = y := UInt8.toNat_inj.mp (by omega)
          rw [hbyte, ih hrest]

end Bytes
