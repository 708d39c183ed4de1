/-
What the plainest lines of TOML stand for.

The grammar lets a line be taken apart in many ways on paper.  Where it assigns to a bare
key, where the key and the `=` are is settled by character classes (`assign_inv`).  A string
without quotes and backslashes inside stands for itself (`string_of_quoted`), and a number
without sign and underscores for the number its digits spell (`integer_of_numeral`).
-/
import SnpGuard.Lib.Toml.Grammar

namespace Toml

/-! ### Classes of characters -/

/-- A digit of base `base`. -/
def isDigit (base : Nat) (c : Char) : Bool := (digitValue c).any (· < base)

/-- A digit of base `base` or an underscore. -/
def isNumeral (base : Nat) (c : Char) : Bool := c == '_' || isDigit base c

/-- What is in a value, not in an integer without sign, and ends a run of digits. -/
def marks : List Char := ['.', 'e', 'E', '+', '-', ':', 'i', 'n', 'o', 'b']

theorem marks_spec : ∀ c ∈ marks,
    isNumeral 10 c = false ∧ isWs c = false ∧ c ≠ 'x' ∧ c ≠ quote := by
  intro c hc
  simp only [marks, List.mem_cons, List.not_mem_nil, or_false] at hc
  rcases hc with rfl | rfl | rfl | rfl | rfl | rfl | rfl | rfl | rfl | rfl
  all_goals decide

theorem isWs_iff {c : Char} : isWs c = true ↔ c = ' ' ∨ c = '\t' := by
  simp [isWs]

theorem isNumeral_of_isDigit {base : Nat} {c : Char} (h : isDigit base c = true) :
    isNumeral base c = true := by
  rw [isNumeral, h, Bool.or_true]

theorem isNumeral_of_digit {base d : Nat} {c : Char} (h : Digit base c d) :
    isNumeral base c = true := by
  have hdigit : isDigit base c = true := by simp [isDigit, h.1, h.2]
  exact isNumeral_of_isDigit hdigit

/-- The digits of the standard library. -/
theorem isDigit_ten {c : Char} (h : c.isDigit = true) : isDigit 10 c = true := by
  have hrange : '0' ≤ c ∧ c ≤ '9' := by
    simp only [Char.isDigit, Bool.and_eq_true, decide_eq_true_eq] at h
    exact h
  have hval : digitValue c = some (c.toNat - 48) := if_pos hrange
  have hle : c.toNat ≤ 57 := hrange.2
  have hlt : c.toNat - 48 < 10 := by omega
  simp [isDigit, hval, hlt]

theorem range_of_isNumeral {base : Nat} {c : Char} (h : isNumeral base c = true) :
    48 ≤ c.toNat ∧ c.toNat ≤ 122 := by
  simp only [isNumeral, isDigit, Bool.or_eq_true, beq_iff_eq] at h
  rcases h with rfl | h
  · decide
  · unfold digitValue at h
    split at h
    · rename_i hrange
      have hlo : 48 ≤ c.toNat := hrange.1
      have hhi : c.toNat ≤ 57 := hrange.2
      omega
    · split at h
      · rename_i hrange
        have hlo : 97 ≤ c.toNat := hrange.1
        have hhi : c.toNat ≤ 102 := hrange.2
        omega
      · split at h
        · rename_i hrange
          have hlo : 65 ≤ c.toNat := hrange.1
          have hhi : c.toNat ≤ 70 := hrange.2
          omega
        · simp at h

theorem isWs_of_isNumeral {base : Nat} {c : Char} (h : isNumeral base c = true) :
    isWs c = false := by
  by_contra hws
  rw [Bool.not_eq_false, isWs_iff] at hws
  rcases hws with rfl | rfl <;> simp [isNumeral, isDigit, digitValue] at h

theorem isWs_of_isBare {c : Char} (h : isBare c = true) : isWs c = false := by
  by_contra hws
  rw [Bool.not_eq_false, isWs_iff] at hws
  rcases hws with rfl | rfl <;> exact absurd h (by decide)

theorem quote_of_isNumeral {base : Nat} {c : Char} (h : isNumeral base c = true) :
    c ≠ quote := by
  rintro rfl
  simp [isNumeral, isDigit, digitValue, quote] at h

/-! ### Digits -/

/-- The number that digits of base `base` spell. -/
def number (base : Nat) (t : List Char) : Nat :=
  t.foldl (fun n c => n * base + (digitValue c).getD 0) 0

theorem number_concat (base : Nat) (t : List Char) (c : Char) :
    number base (t ++ [c]) = number base t * base + (digitValue c).getD 0 := by
  simp [number]

theorem Digits.isNumeral {base n : Nat} {t : List Char} (h : Digits base t n) :
    ∀ c ∈ t, isNumeral base c = true := by
  induction h with
  | one hd =>
      intro c hc
      rw [List.mem_singleton.mp hc]
      exact isNumeral_of_digit hd
  | more _ hd ih =>
      intro c hc
      rcases List.mem_append.mp hc with hc | hc
      · exact ih c hc
      · rw [List.mem_singleton.mp hc]
        exact isNumeral_of_digit hd
  | underscore _ hd ih =>
      intro c hc
      simp only [List.mem_append, List.mem_cons, List.not_mem_nil, or_false] at hc
      rcases hc with hc | rfl | rfl
      · exact ih c hc
      · rfl
      · exact isNumeral_of_digit hd

theorem Digits.ne_nil {base n : Nat} {t : List Char} (h : Digits base t n) : t ≠ [] := by
  cases h <;> simp

/-- Without underscores, digits spell their number. -/
theorem Digits.eq_number {base n : Nat} {t : List Char} (h : Digits base t n) :
    '_' ∉ t → n = number base t := by
  induction h with
  | one hd =>
      intro _
      simp [number, hd.1]
  | more _ hd ih =>
      intro hplain
      simp only [List.mem_append, not_or] at hplain
      rw [number_concat, ← ih hplain.1, hd.1, Option.getD_some]
  | underscore _ _ _ =>
      intro hplain
      exact absurd (by simp) hplain

theorem FixedDigits.isNumeral {n : Nat} {t : List Char} (h : FixedDigits n t) :
    ∀ c ∈ t, isNumeral 10 c = true := fun c hc => isNumeral_of_isDigit (isDigit_ten (h.2 c hc))

/-! ### Numbers with something in them -/

/-- A run of digits that ends with something else. -/
def Broken (t : List Char) : Prop :=
  ∃ ds c more, t = ds ++ c :: more ∧ (∀ d ∈ ds, isNumeral 10 d = true) ∧ c ∈ marks

theorem Broken.of_mark {c : Char} (h : c ∈ marks) (t : List Char) : Broken (c :: t) :=
  ⟨[], c, t, rfl, by simp, h⟩

theorem Broken.append {t : List Char} (h : Broken t) (more : List Char) : Broken (t ++ more) := by
  obtain ⟨ds, c, t, rfl, hds, hc⟩ := h
  exact ⟨ds, c, t ++ more, by simp, hds, hc⟩

theorem Broken.behind {t ds : List Char} (h : Broken t) (hds : ∀ d ∈ ds, isNumeral 10 d = true) :
    Broken (ds ++ t) := by
  obtain ⟨ds', c, t, rfl, hds', hc⟩ := h
  refine ⟨ds ++ ds', c, t, by simp, ?_, hc⟩
  intro d hd
  rcases List.mem_append.mp hd with hd | hd
  · exact hds d hd
  · exact hds' d hd

theorem Broken.of_sign {s : List Char} {sign : Int} (h : Sign s sign) (t : List Char) :
    Broken (s ++ t) ∨ (s = [] ∧ sign = 1) := by
  cases h with
  | absent => exact Or.inr ⟨rfl, rfl⟩
  | plus => exact Or.inl (Broken.of_mark (by decide) t)
  | minus => exact Or.inl (Broken.of_mark (by decide) t)

/-- A decimal integer has a sign or is all digits. -/
theorem Decimal.kinds {t : List Char} {n : Int} (h : Decimal t n) :
    Broken t ∨ ∃ m : Nat, n = m ∧ Digits 10 t m ∧ (t.head? = some '0' → t = ['0']) := by
  cases h with
  | @mk s t sign m hs ht hzero =>
      rcases Broken.of_sign hs t with hbroken | ⟨rfl, rfl⟩
      · exact Or.inl hbroken
      · exact Or.inr ⟨m, by omega, ht, hzero⟩

theorem Decimal.append_mark {t : List Char} {n : Int} (h : Decimal t n) {c : Char}
    (hc : c ∈ marks) (more : List Char) : Broken (t ++ c :: more) := by
  rcases h.kinds with hbroken | ⟨m, -, hdigits, -⟩
  · exact hbroken.append (c :: more)
  · exact (Broken.of_mark hc more).behind hdigits.isNumeral

theorem Exponent.head {t : List Char} (h : Exponent t) : ∃ c more, t = c :: more ∧ c ∈ marks := by
  cases h with
  | @mk e s t _ _ he _ _ =>
      refine ⟨e, s ++ t, rfl, ?_⟩
      rcases he with rfl | rfl
      · decide
      · decide

theorem Float.broken {t : List Char} (h : Float t) : Broken t := by
  cases h with
  | frac hi _ _ => exact hi.append_mark (by decide) _
  | exp hi he =>
      obtain ⟨c, more, rfl, hc⟩ := he.head
      exact hi.append_mark hc more
  | @special s t sign hs ht =>
      rcases Broken.of_sign hs t with hbroken | ⟨rfl, rfl⟩
      · exact hbroken
      · rcases ht with rfl | rfl
        · exact Broken.of_mark (by decide) _
        · exact Broken.of_mark (by decide) _

theorem Date.broken {t : List Char} (h : Date t) : Broken t := by
  cases h with
  | mk hy _ _ => exact (Broken.of_mark (by decide) _).behind hy.isNumeral

theorem Time.broken {t : List Char} (h : Time t) : Broken t := by
  cases h with
  | mk hh _ _ _ => exact (Broken.of_mark (by decide) _).behind hh.isNumeral

theorem DateTime.broken {t : List Char} (h : DateTime t) : Broken t := by
  cases h with
  | date hd => exact hd.broken
  | time ht => exact ht.broken
  | both hd _ _ _ => exact hd.broken.append _

/-- An integer is broken, or decimal digits, or hexadecimal digits behind `0x`. -/
theorem Integer.kinds {t : List Char} {n : Int} (h : Integer t n) :
    Broken t ∨ (∃ m : Nat, n = m ∧ Digits 10 t m ∧ (t.head? = some '0' → t = ['0'])) ∨
      ∃ (m : Nat) (ds : List Char), n = m ∧ t = '0' :: 'x' :: ds ∧ Digits 16 ds m := by
  have hzero : ∀ d ∈ ['0'], isNumeral 10 d = true := List.all_eq_true.mp rfl
  cases h with
  | dec h =>
      rcases h.kinds with hbroken | hdigits
      · exact Or.inl hbroken
      · exact Or.inr (Or.inl hdigits)
  | hex h => exact Or.inr (Or.inr ⟨_, _, rfl, rfl, h⟩)
  | oct h => exact Or.inl ((Broken.of_mark (by decide) _).behind hzero)
  | bin h => exact Or.inl ((Broken.of_mark (by decide) _).behind hzero)

/-! ### What a value begins with -/

/-- What a value begins with that is no number. -/
def openers : List Char := [quote, apostrophe, '[', '{', 't', 'f']

theorem openers_spec : ∀ c ∈ openers, isWs c = false ∧ isNumeral 10 c = false := by
  intro c hc
  simp only [openers, List.mem_cons, List.not_mem_nil, or_false] at hc
  rcases hc with rfl | rfl | rfl | rfl | rfl | rfl
  all_goals decide

/-- A value is opened by a character of its own, or is a number. -/
theorem Value.kinds {t : List Char} {v : Val} (h : Value t v) :
    (∃ c more, t = c :: more ∧ c ∈ openers) ∨ Broken t ∨
      ∃ n, v = .integer n ∧ Integer t n := by
  cases h with
  | basic _ => exact Or.inl ⟨_, _, rfl, by decide⟩
  | literal _ => exact Or.inl ⟨_, _, rfl, by decide⟩
  | mlBasic _ _ => exact Or.inl ⟨_, _, rfl, by decide⟩
  | mlLiteral _ _ _ => exact Or.inl ⟨_, _, rfl, by decide⟩
  | integer h => exact Or.inr (Or.inr ⟨_, rfl, h⟩)
  | float h => exact Or.inr (Or.inl h.broken)
  | dateTime h => exact Or.inr (Or.inl h.broken)
  | @boolean b =>
      cases b with
      | true => exact Or.inl ⟨'t', _, rfl, by decide⟩
      | false => exact Or.inl ⟨'f', _, rfl, by decide⟩
  | array _ => exact Or.inl ⟨_, _, rfl, by decide⟩
  | emptyTable _ => exact Or.inl ⟨_, _, rfl, by decide⟩
  | inlineTable _ _ _ => exact Or.inl ⟨_, _, rfl, by decide⟩

/-- What a number begins with is no white space and no quote. -/
theorem Broken.head {t : List Char} (h : Broken t) :
    ∃ c more, t = c :: more ∧ isWs c = false ∧ c ≠ quote := by
  obtain ⟨ds, c, more, rfl, hds, hc⟩ := h
  cases ds with
  | nil =>
      obtain ⟨-, hws, -, hquote⟩ := marks_spec c hc
      exact ⟨c, more, rfl, hws, hquote⟩
  | cons d ds =>
      have hd : isNumeral 10 d = true := hds d (by simp)
      exact ⟨d, ds ++ c :: more, rfl, isWs_of_isNumeral hd, quote_of_isNumeral hd⟩

theorem Digits.head {base n : Nat} {t : List Char} (h : Digits base t n) :
    ∃ c more, t = c :: more ∧ isWs c = false ∧ c ≠ quote := by
  obtain ⟨c, more, rfl⟩ := List.exists_cons_of_ne_nil h.ne_nil
  have hc : Toml.isNumeral base c = true := h.isNumeral c (by simp)
  exact ⟨c, more, rfl, isWs_of_isNumeral hc, quote_of_isNumeral hc⟩

theorem Integer.head {t : List Char} {n : Int} (h : Integer t n) :
    ∃ c more, t = c :: more ∧ isWs c = false ∧ c ≠ quote := by
  rcases h.kinds with hbroken | ⟨m, -, hdigits, -⟩ | ⟨m, ds, -, rfl, -⟩
  · exact hbroken.head
  · exact hdigits.head
  · exact ⟨'0', 'x' :: ds, rfl, by decide, by decide⟩

theorem Value.head {t : List Char} {v : Val} (h : Value t v) :
    ∃ c more, t = c :: more ∧ isWs c = false := by
  rcases h.kinds with ⟨c, more, rfl, hc⟩ | hbroken | ⟨n, -, hint⟩
  · exact ⟨c, more, rfl, (openers_spec c hc).1⟩
  · obtain ⟨c, more, ht, hws, -⟩ := hbroken.head
    exact ⟨c, more, ht, hws⟩
  · obtain ⟨c, more, ht, hws, -⟩ := hint.head
    exact ⟨c, more, ht, hws⟩

/-! ### A line that assigns to a bare key -/

/-- A key that needs no quotes. -/
def BareKey (k : List Char) : Prop := k ≠ [] ∧ k.all isBare = true

instance (k : List Char) : Decidable (BareKey k) := inferInstanceAs (Decidable (_ ∧ _))

/-- The line is the key, an `=` and `body`, with white space between them. -/
def Assigning (k body text : List Char) : Prop :=
  ∃ w w' w'', Ws w ∧ Ws w' ∧ Ws w'' ∧ text = w ++ (k ++ (w' ++ '=' :: (w'' ++ body)))

/-- What may stand behind a value. -/
def Trailer (t : List Char) : Prop := ∃ w c, Ws w ∧ Comment c ∧ t = w ++ c

theorem Key.ne_nil {t : List Char} {path : Path} (h : Key t path) : path ≠ [] := by
  cases h <;> simp

theorem Key.simple {t k : List Char} (h : Key t [k]) : SimpleKey t k := by
  cases h with
  | one h => exact h
  | dot _ _ _ ht => exact absurd rfl ht.ne_nil

/-- A key that begins with a bare character is a bare key. -/
theorem SimpleKey.head {t k : List Char} (h : SimpleKey t k) :
    ∃ c more, t = c :: more ∧ isWs c = false ∧ (isBare c = true → t = k ∧ BareKey k) := by
  cases h with
  | bare hne h =>
      obtain ⟨c, more, rfl⟩ := List.exists_cons_of_ne_nil hne
      have hkey : BareKey (c :: more) := ⟨hne, List.all_eq_true.mpr h⟩
      exact ⟨c, more, rfl, isWs_of_isBare (h c (by simp)), fun _ => ⟨rfl, hkey⟩⟩
  | basic _ => exact ⟨_, _, rfl, by decide, fun hbare => absurd hbare (by decide)⟩
  | literal _ => exact ⟨_, _, rfl, by decide, fun hbare => absurd hbare (by decide)⟩

/-- White space in front of something else splits off in one way. -/
theorem ws_append_inj {w w' xs ys : List Char} (hw : Ws w) (hw' : Ws w')
    (hxs : ∀ c ∈ xs.head?, isWs c = false) (hys : ∀ c ∈ ys.head?, isWs c = false)
    (h : w ++ xs = w' ++ ys) : xs = ys :=
  (Text.append_inj_of_class hw hw' hxs hys h).2

/-- **A line that is spelled as an assignment to a bare key assigns what stands behind
its `=`.** -/
theorem assign_inv {text k body : List Char} {v : Val} (h : Expression text (.assign [k] v))
    (hk : BareKey k) (hbody : ∀ c ∈ body.head?, isWs c = false)
    (htext : Assigning k body text) :
    ∃ t trailer, Value t v ∧ Trailer trailer ∧ body = t ++ trailer := by
  obtain ⟨a, a', a'', ha, ha', ha'', htext⟩ := htext
  cases h with
  | @assign w kv w' c _ _ hw hkv hw' hc =>
      cases hkv with
      | @mk kt w1 w2 t _ _ hkey hw1 hw2 hval =>
          obtain ⟨hne, hall⟩ := hk
          have hbare := List.all_eq_true.mp hall
          obtain ⟨d, k', rfl⟩ := List.exists_cons_of_ne_nil hne
          obtain ⟨b, more, rfl, hws, hsame⟩ := hkey.simple.head
          simp only [List.append_assoc, List.cons_append] at htext
          have hd : isBare d = true := hbare d (by simp)
          have hfront : b :: (more ++ (w1 ++ '=' :: (w2 ++ (t ++ (w' ++ c)))))
              = d :: (k' ++ (a' ++ '=' :: (a'' ++ body))) :=
            ws_append_inj hw ha (by simpa using hws) (by simpa using isWs_of_isBare hd) htext
          have hbd : b = d := (List.cons.inj hfront).1
          subst hbd
          obtain ⟨hkt, -⟩ := hsame hd
          have hmore : more = k' := (List.cons.inj hkt).2
          subst hmore
          have hbehind : w1 ++ '=' :: (w2 ++ (t ++ (w' ++ c))) = a' ++ '=' :: (a'' ++ body) :=
            List.append_cancel_left (List.cons.inj hfront).2
          have hequals : '=' :: (w2 ++ (t ++ (w' ++ c))) = '=' :: (a'' ++ body) :=
            ws_append_inj hw1 ha' (by simp [isWs]) (by simp [isWs]) hbehind
          obtain ⟨e, t', rfl, he⟩ := hval.head
          have hvalue : e :: t' ++ (w' ++ c) = body :=
            ws_append_inj hw2 ha'' (by simpa using he) hbody (List.cons.inj hequals).2
          exact ⟨e :: t', w' ++ c, hval, ⟨w', c, hw', hc, rfl⟩, hvalue.symm⟩

/-! ### Plain values -/

/-- The string `s` in quotes, with nothing in it that needs an escape sequence. -/
def Quoted (s body : List Char) : Prop :=
  quote ∉ s ∧ backslash ∉ s ∧ ∃ trailer, Trailer trailer ∧ body = quote :: (s ++ quote :: trailer)

/-- Digits in base ten without leading zeros, or in base sixteen behind `0x`, and their
number. -/
inductive Numeral : List Char → Nat → Prop
  | dec {t : List Char} (hne : t ≠ []) (h : ∀ c ∈ t, isDigit 10 c = true)
      (hzero : t.head? = some '0' → t = ['0']) : Numeral t (number 10 t)
  | hex {t : List Char} (hne : t ≠ []) (h : ∀ c ∈ t, isDigit 16 c = true) :
      Numeral ('0' :: 'x' :: t) (number 16 t)

/-- A numeral that ends with its line or in front of white space. -/
def Spaced (n : Nat) (body : List Char) : Prop :=
  ∃ t trailer, Numeral t n ∧ Trailer trailer ∧ (∀ c ∈ trailer.head?, isWs c = true) ∧
    body = t ++ trailer

theorem Trailer.head {t : List Char} (h : Trailer t) :
    ∀ c ∈ t.head?, isWs c = true ∨ c = '#' := by
  obtain ⟨w, u, hw, hu, rfl⟩ := h
  cases w with
  | cons d w => exact Text.forall_head (Or.inl (hw d (by simp)))
  | nil =>
      cases hu with
      | absent => simp
      | text _ => exact Text.forall_head (Or.inr rfl)

theorem Trailer.not_numeral {t : List Char} (h : Trailer t) (base : Nat) :
    ∀ c ∈ t.head?, isNumeral base c = false := by
  intro c hc
  rcases h.head c hc with hws | rfl
  · by_contra hnum
    rw [Bool.not_eq_false] at hnum
    rw [isWs_of_isNumeral hnum] at hws
    exact Bool.noConfusion hws
  · simp [isNumeral, isDigit, digitValue]

/-! ### Strings -/

theorem isUnescaped_iff {c : Char} :
    isUnescaped c = true ↔ isNonEol c = true ∧ c ≠ quote ∧ c ≠ backslash := by
  simp [isUnescaped, and_assoc]

theorem Escape.head {e : List Char} {c : Char} (h : Escape e c) : ∃ t, e = backslash :: t := by
  cases h
  · exact ⟨_, rfl⟩
  · exact ⟨_, rfl⟩

/-- Up to the first quote, where there is no backslash, a basic string is what it is
spelled as. -/
theorem BasicBody.eq_of_append {t u : List Char} (h : BasicBody t u) :
    ∀ {s xs ys : List Char}, quote ∉ s → backslash ∉ s → t ++ quote :: xs = s ++ quote :: ys →
      t = s ∧ u = s ∧ ∀ c ∈ s, isNonEol c = true := by
  induction h with
  | nil =>
      intro s xs ys hquote _ heq
      cases s with
      | nil => exact ⟨rfl, rfl, by simp⟩
      | cons a s =>
          have ha : quote = a := (List.cons.inj heq).1
          exact absurd (by simp [ha]) hquote
  | @plain c t u hc _ ih =>
      intro s xs ys hquote hback heq
      obtain ⟨heol, hcq, -⟩ := isUnescaped_iff.mp hc
      cases s with
      | nil => exact absurd (List.cons.inj heq).1 hcq
      | cons a s =>
          simp only [List.mem_cons, not_or] at hquote hback
          obtain ⟨hca, htail⟩ := List.cons.inj heq
          subst hca
          obtain ⟨rfl, rfl, hall⟩ := ih hquote.2 hback.2 htail
          refine ⟨rfl, rfl, ?_⟩
          intro d hd
          rcases List.mem_cons.mp hd with rfl | hd
          · exact heol
          · exact hall d hd
  | escape he _ _ =>
      intro s xs ys _ hback heq
      obtain ⟨e, rfl⟩ := he.head
      cases s with
      | nil => exact absurd (List.cons.inj heq).1 (by decide)
      | cons a s =>
          have ha : backslash = a := (List.cons.inj heq).1
          exact absurd (by simp [ha]) hback

/-- **A value spelled as a plain string is that string.** -/
theorem string_of_quoted {s t trailer : List Char} {v : Val} (h : Value t v)
    (hs : Quoted s (t ++ trailer)) : v = .string s ∧ ∀ c ∈ s, isNonEol c = true := by
  obtain ⟨hquote, hback, rest, hrest, heq⟩ := hs
  have hhead : ∀ {c : Char} {more : List Char}, t = c :: more → c = quote := by
    rintro c more rfl
    exact (List.cons.inj heq).1
  have hnumber : ¬ ∃ c more, t = c :: more ∧ isWs c = false ∧ c ≠ quote := by
    rintro ⟨c, more, ht, -, hc⟩
    exact hc (hhead ht)
  cases h with
  | @basic t u h =>
      have htail : t ++ quote :: trailer = s ++ quote :: rest := by
        simpa using (List.cons.inj heq).2
      obtain ⟨-, rfl, hall⟩ := h.eq_of_append hquote hback htail
      exact ⟨rfl, hall⟩
  | @mlBasic q n t u _ _ =>
      -- Right behind the two quotes of an empty string there is no third.
      exfalso
      have htail := (List.cons.inj heq).2
      cases s with
      | nil =>
          have hthird := (List.cons.inj htail).2
          cases rest with
          | nil => simp at hthird
          | cons d rest =>
              have hd : quote = d := (List.cons.inj hthird).1
              rcases hrest.head d rfl with hws | hhash
              · rw [← hd] at hws
                exact absurd hws (by decide)
              · rw [← hd] at hhash
                exact absurd hhash (by decide)
      | cons a s =>
          have ha : quote = a := (List.cons.inj htail).1
          exact hquote (by simp [ha])
  | literal _ => exact absurd (hhead rfl) (by decide)
  | mlLiteral _ _ _ => exact absurd (hhead rfl) (by decide)
  | integer h => exact absurd h.head hnumber
  | float h => exact absurd h.broken.head hnumber
  | dateTime h => exact absurd h.broken.head hnumber
  | @boolean b =>
      cases b with
      | true => exact absurd (hhead rfl) (by decide)
      | false => exact absurd (hhead rfl) (by decide)
  | array _ => exact absurd (hhead rfl) (by decide)
  | emptyTable _ => exact absurd (hhead rfl) (by decide)
  | inlineTable _ _ _ => exact absurd (hhead rfl) (by decide)

/-! ### Numbers -/

theorem not_isNumeral_of_isWs {base : Nat} {rest : List Char}
    (h : ∀ c ∈ rest.head?, isWs c = true) : ∀ c ∈ rest.head?, isNumeral base c = false := by
  intro c hc
  by_contra hnum
  rw [Bool.not_eq_false] at hnum
  have hws := h c hc
  rw [isWs_of_isNumeral hnum] at hws
  exact Bool.noConfusion hws

/-- A numeral is no part of a longer number. -/
theorem Numeral.not_broken {n : Nat} {num rest t trailer : List Char} (hnum : Numeral num n)
    (hrest : ∀ c ∈ rest.head?, isWs c = true) (h : Broken t) : t ++ trailer ≠ num ++ rest := by
  intro heq
  obtain ⟨ds, c, more, rfl, hds, hc⟩ := h
  obtain ⟨hnot, hws, hx, -⟩ := marks_spec c hc
  rw [List.append_assoc, List.cons_append] at heq
  have hhead : ∀ d ∈ (c :: (more ++ trailer)).head?, isNumeral 10 d = false := by
    simpa using hnot
  cases hnum with
  | dec _ hdigits _ =>
      have hall : ∀ d ∈ num, isNumeral 10 d = true :=
        fun d hd => isNumeral_of_isDigit (hdigits d hd)
      obtain ⟨-, htail⟩ := Text.append_inj_of_class hds hall hhead
        (not_isNumeral_of_isWs hrest) heq
      have hc' : isWs c = true := hrest c (by rw [← htail]; rfl)
      rw [hws] at hc'
      exact Bool.noConfusion hc'
  | @hex u _ _ =>
      have hzero : ∀ d ∈ ['0'], isNumeral 10 d = true := List.all_eq_true.mp rfl
      have hnext : ∀ d ∈ ('x' :: (u ++ rest)).head?, isNumeral 10 d = false := by
        simp [isNumeral, isDigit, digitValue]
      obtain ⟨-, htail⟩ := Text.append_inj_of_class hds hzero hhead hnext heq
      exact hx (List.cons.inj htail).1

theorem Numeral.ne_nil {n : Nat} {num : List Char} (h : Numeral num n) : num ≠ [] := by
  cases h with
  | dec hne _ _ => exact hne
  | hex _ _ => simp

/-- Numerals are made of digits and letters. -/
theorem Numeral.range {n : Nat} {num : List Char} (h : Numeral num n) :
    ∀ c ∈ num, 48 ≤ c.toNat ∧ c.toNat ≤ 122 := by
  intro c hc
  cases h with
  | dec _ hdigits _ => exact range_of_isNumeral (isNumeral_of_isDigit (hdigits c hc))
  | hex _ hdigits =>
      simp only [List.mem_cons] at hc
      rcases hc with rfl | rfl | hc
      · decide
      · decide
      · exact range_of_isNumeral (isNumeral_of_isDigit (hdigits c hc))

/-- A numeral begins with a digit. -/
theorem Numeral.head {n : Nat} {num : List Char} (h : Numeral num n) :
    ∃ c more, num = c :: more ∧ isNumeral 10 c = true := by
  cases h with
  | dec hne hdigits _ =>
      obtain ⟨c, more, rfl⟩ := List.exists_cons_of_ne_nil hne
      exact ⟨c, more, rfl, isNumeral_of_isDigit (hdigits c (by simp))⟩
  | hex _ _ => exact ⟨'0', _, rfl, by decide⟩

/-- Where plain digits are, nothing but white space or a comment behind what is read, the
number read is theirs. -/
theorem Digits.eq_of_append {base m : Nat} {num rest t trailer : List Char}
    (h : Digits base t m) (hnum : ∀ c ∈ num, Toml.isDigit base c = true)
    (htrailer : Trailer trailer) (hrest : ∀ c ∈ rest.head?, isWs c = true)
    (heq : t ++ trailer = num ++ rest) : m = number base num := by
  have hall : ∀ c ∈ num, Toml.isNumeral base c = true :=
    fun c hc => isNumeral_of_isDigit (hnum c hc)
  obtain ⟨rfl, -⟩ := Text.append_inj_of_class h.isNumeral hall (htrailer.not_numeral base)
    (not_isNumeral_of_isWs hrest) heq
  refine h.eq_number ?_
  intro hmem
  have hunderscore := hnum '_' hmem
  simp [Toml.isDigit, digitValue] at hunderscore

/-- **A value spelled as a plain number is that number.** -/
theorem integer_of_numeral {n : Nat} {t trailer : List Char} {v : Val} (h : Value t v)
    (htrailer : Trailer trailer) (hn : Spaced n (t ++ trailer)) : v = .integer n := by
  obtain ⟨num, rest, hnum, -, hrest, heq⟩ := hn
  rcases h.kinds with ⟨c, more, rfl, hc⟩ | hbroken | ⟨m, rfl, hint⟩
  · -- No numeral begins like a string, a table or a truth value.
    obtain ⟨d, more', rfl, hd⟩ := hnum.head
    have hcd : c = d := (List.cons.inj heq).1
    rw [← hcd, (openers_spec c hc).2] at hd
    exact Bool.noConfusion hd
  · exact absurd heq (hnum.not_broken hrest hbroken)
  · rcases hint.kinds with hbroken | ⟨m, rfl, hdigits, hzero⟩ | ⟨m, ds, rfl, rfl, hdigits⟩
    · exact absurd heq (hnum.not_broken hrest hbroken)
    · cases hnum with
      | dec _ hdec _ => rw [hdigits.eq_of_append hdec htrailer hrest heq]
      | hex _ _ =>
          -- A zero is followed by no other digit, and not by an `x`.
          exfalso
          obtain ⟨c, more, rfl⟩ := List.exists_cons_of_ne_nil hdigits.ne_nil
          obtain ⟨rfl, htail⟩ := List.cons.inj heq
          have hmore : more = [] := (List.cons.inj (hzero rfl)).2
          subst hmore
          have hx : 'x' ∈ trailer.head? := by
            rw [show trailer = _ from htail]
            rfl
          rcases htrailer.head 'x' hx with hws | hhash
          · exact absurd hws (by decide)
          · exact absurd hhash (by decide)
    · cases hnum with
      | hex _ hhex =>
          have htail := (List.cons.inj (List.cons.inj heq).2).2
          rw [hdigits.eq_of_append hhex htrailer hrest htail]
      | dec hne hdec _ =>
          exfalso
          obtain ⟨c, more, rfl⟩ := List.exists_cons_of_ne_nil hne
          have htail := (List.cons.inj heq).2
          cases more with
          | nil =>
              have hx : isWs 'x' = true := hrest 'x' (by rw [← show _ = rest from htail]; rfl)
              exact absurd hx (by decide)
          | cons d more =>
              have hxd : 'x' = d := (List.cons.inj htail).1
              have hd := hdec d (by simp)
              rw [← hxd] at hd
              exact absurd hd (by decide)

/-! ### Lines of text -/

theorem isWs_newline {t : List Char} (h : Ws t) : '\n' ∉ t := by
  intro hmem
  exact absurd (h '\n' hmem) (by decide)

theorem not_newline_of_nonEol {t : List Char} (h : ∀ c ∈ t, isNonEol c = true) : '\n' ∉ t := by
  intro hmem
  exact absurd (h '\n' hmem) (by decide)

theorem BareKey.not_newline {k : List Char} (h : BareKey k) : '\n' ∉ k := by
  intro hmem
  exact absurd (List.all_eq_true.mp h.2 '\n' hmem) (by decide)

theorem Trailer.not_newline {t : List Char} (h : Trailer t) : '\n' ∉ t := by
  obtain ⟨w, c, hw, hc, rfl⟩ := h
  cases hc with
  | absent => simpa using isWs_newline hw
  | text ht => simp [isWs_newline hw, not_newline_of_nonEol ht]

/-- An assignment goes on over several lines only where its value does. -/
theorem Assigning.not_newline {k body text : List Char} (h : Assigning k body text)
    (hk : BareKey k) (hbody : '\n' ∉ body) : '\n' ∉ text := by
  obtain ⟨w, w', w'', hw, hw', hw'', rfl⟩ := h
  simp [isWs_newline hw, isWs_newline hw', isWs_newline hw'', hk.not_newline, hbody]

theorem Assigning.append {k body text : List Char} (h : Assigning k body text)
    (more : List Char) : Assigning k (body ++ more) (text ++ more) := by
  obtain ⟨w, w', w'', hw, hw', hw'', rfl⟩ := h
  exact ⟨w, w', w'', hw, hw', hw'', by simp⟩

theorem Assigning.ne_nil {k body text : List Char} (h : Assigning k body text) : text ≠ [] := by
  obtain ⟨w, w', w'', -, -, -, rfl⟩ := h
  simp

/-- **A line of a document that has no newline inside is a line of its text**, up to a
carriage return at its end. -/
theorem Document.mem_lines {l : Line} (hline : '\n' ∉ l.text) (hne : l.text ≠ []) :
    ∀ {doc : Document}, l ∈ doc →
      ∃ cr, (cr = [] ∨ cr = ['\r']) ∧ l.text ++ cr ∈ Text.lines doc.text := by
  intro doc
  induction doc with
  | nil => intro hl; simp at hl
  | cons first doc ih =>
      intro hl
      cases doc with
      | nil =>
          have hfirst : l = first := List.mem_singleton.mp hl
          subst hfirst
          refine ⟨[], Or.inl rfl, ?_⟩
          show l.text ++ [] ∈ Text.lines l.text
          rw [Text.lines_last hline hne, List.append_nil]
          exact List.mem_singleton.mpr rfl
      | cons second rest =>
          obtain ⟨cr, hcr, htext⟩ : ∃ cr, (cr = [] ∨ cr = ['\r']) ∧
              Document.text (first :: second :: rest)
                = (first.text ++ cr) ++ '\n' :: Document.text (second :: rest) := by
            cases hcrlf : first.crlf with
            | true => exact ⟨['\r'], Or.inr rfl, by simp [Document.text, Line.newline, hcrlf]⟩
            | false => exact ⟨[], Or.inl rfl, by simp [Document.text, Line.newline, hcrlf]⟩
          rw [htext, Text.lines_append]
          rcases List.mem_cons.mp hl with rfl | hl
          · have hboth : '\n' ∉ l.text ++ cr := by
              rcases hcr with rfl | rfl
              · simpa using hline
              · simpa using hline
            refine ⟨cr, hcr, List.mem_append_left _ ?_⟩
            rw [Text.lines_line hboth]
            exact List.mem_singleton.mpr rfl
          · obtain ⟨cr', hcr', hmem⟩ := ih hl
            exact ⟨cr', hcr', List.mem_append_right _ hmem⟩

/-! ### Writing plain lines -/

theorem BasicBody.of_unescaped {s : List Char} (h : ∀ c ∈ s, isUnescaped c = true) :
    BasicBody s s := by
  induction s with
  | nil => exact .nil
  | cons c s ih =>
      have hc : isUnescaped c = true := h c (by simp)
      have hs : BasicBody s s := ih fun d hd => h d (by simp [hd])
      exact .plain hc hs

theorem digits_number {base : Nat} : ∀ {t : List Char}, t ≠ [] →
    (∀ c ∈ t, isDigit base c = true) → Digits base t (number base t) := by
  intro t
  induction t using List.reverseRecOn with
  | nil => intro hne; exact absurd rfl hne
  | append_singleton t c ih =>
      intro _ hall
      have hc : isDigit base c = true := hall c (by simp)
      obtain ⟨d, hval, hlt⟩ : ∃ d, digitValue c = some d ∧ d < base := by
        simpa [isDigit, Option.any_eq_true] using hc
      by_cases hnil : t = []
      · subst hnil
        have hone : number base ([] ++ [c]) = d := by simp [number, hval]
        rw [hone]
        exact .one ⟨hval, hlt⟩
      · have ht := ih hnil fun b hb => hall b (by simp [hb])
        rw [number_concat, hval]
        exact .more ht ⟨hval, hlt⟩

theorem Value.of_unescaped {s : List Char} (h : ∀ c ∈ s, isUnescaped c = true) :
    Value (quote :: (s ++ [quote])) (.string s) := .basic (.of_unescaped h)

theorem Value.of_numeral {n : Nat} {t : List Char} (h : Numeral t n) : Value t (.integer n) := by
  cases h with
  | hex hne hdigits => exact .integer (.hex (digits_number hne hdigits))
  | dec hne hdigits hzero =>
      have hdec := Decimal.mk .absent (digits_number hne hdigits) hzero
      rw [Int.one_mul] at hdec
      exact .integer (.dec hdec)

/-- `k = v`. -/
def Line.ofValue (k : List Char) {t : List Char} {v : Val} (hk : BareKey k) (h : Value t v) :
    Line where
  text := k ++ ' ' :: '=' :: ' ' :: t
  means := .assign [k] v
  spelled := by
    have hnone : Ws [] := by simp [Ws]
    have hblank : Ws [' '] := by simp [Ws, isWs]
    have hkey : Key k [k] := .one (.bare hk.1 (List.all_eq_true.mp hk.2))
    have hline := Expression.assign hnone (.mk hkey hblank hblank h) hnone .absent
    simpa using hline
  crlf := false

theorem Line.ofValue_assigning {k t : List Char} {v : Val} (hk : BareKey k) (h : Value t v) :
    Assigning k t (Line.ofValue k hk h).text := by
  have hblank : Ws [' '] := by simp [Ws, isWs]
  exact ⟨[], [' '], [' '], by simp [Ws], hblank, hblank, rfl⟩

theorem Quoted.of_unescaped {s : List Char} (h : ∀ c ∈ s, isUnescaped c = true) :
    Quoted s (quote :: (s ++ [quote])) := by
  refine ⟨?_, ?_, [], ⟨[], [], by simp [Ws], .absent, rfl⟩, rfl⟩
  · intro hmem
    exact (isUnescaped_iff.mp (h quote hmem)).2.1 rfl
  · intro hmem
    exact (isUnescaped_iff.mp (h backslash hmem)).2.2 rfl

theorem Spaced.of_numeral {n : Nat} {t : List Char} (h : Numeral t n) : Spaced n t :=
  ⟨t, [], h, ⟨[], [], by simp [Ws], .absent, rfl⟩, by simp, by simp⟩

/-- `[k]`. -/
def Line.ofTable (k : List Char) (hk : BareKey k) : Line where
  text := '[' :: (k ++ [']'])
  means := .table [k]
  spelled := by
    have hnone : Ws [] := by simp [Ws]
    have hkey : Key k [k] := .one (.bare hk.1 (List.all_eq_true.mp hk.2))
    have hline := Expression.table hnone hnone hkey hnone hnone .absent
    simpa using hline
  crlf := false

end Toml
