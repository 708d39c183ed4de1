/-
TOML 1.0, by its grammar.

A relation here holds of a text and what it stands for: `Value t v` is a value `v` written
as `t`.  A document is a list of lines in the sense of the grammar (an assignment may go on
over several lines of text) and carries with each of them that it is spelled right.

Of the rules on defining a key twice, those are kept that bear on the values of the root
table.  The ranges of integers and dates are not checked, nor is how tables open one
another: the relation accepts more than a parser does, and assuming it assumes less.
-/
import Mathlib.Data.List.Infix
import SnpGuard.Lib.Text

namespace Toml

/-! ### Characters -/

def quote : Char := Char.ofNat 34

def apostrophe : Char := Char.ofNat 39

def backslash : Char := Char.ofNat 92

def isWs (c : Char) : Bool := c == ' ' || c == '\t'

/-- What may stand in a comment. -/
def isNonEol (c : Char) : Bool := c == '\t' || (32 ≤ c.toNat && c.toNat ≠ 127)

/-- What a bare key is made of. -/
def isBare (c : Char) : Bool := c.isAlphanum || c == '_' || c == '-'

/-- What may stand for itself in a basic string. -/
def isUnescaped (c : Char) : Bool := isNonEol c && c ≠ quote && c ≠ backslash

def Ws (t : List Char) : Prop := ∀ c ∈ t, isWs c = true

inductive Newline : List Char → Prop
  | lf : Newline ['\n']
  | crlf : Newline ['\r', '\n']

/-- A comment, or nothing. -/
inductive Comment : List Char → Prop
  | absent : Comment []
  | text {t : List Char} (h : ∀ c ∈ t, isNonEol c = true) : Comment ('#' :: t)

/-! ### Numbers -/

def digitValue (c : Char) : Option Nat :=
  if '0' ≤ c ∧ c ≤ '9' then some (c.toNat - 48)
  else if 'a' ≤ c ∧ c ≤ 'f' then some (c.toNat - 87)
  else if 'A' ≤ c ∧ c ≤ 'F' then some (c.toNat - 55)
  else none

/-- A digit of base `base`. -/
def Digit (base : Nat) (c : Char) (d : Nat) : Prop := digitValue c = some d ∧ d < base

/-- Digits with single underscores between them, and the number they spell. -/
inductive Digits (base : Nat) : List Char → Nat → Prop
  | one {c : Char} {d : Nat} (h : Digit base c d) : Digits base [c] d
  | more {t : List Char} {n d : Nat} {c : Char} (ht : Digits base t n) (h : Digit base c d) :
      Digits base (t ++ [c]) (n * base + d)
  | underscore {t : List Char} {n d : Nat} {c : Char} (ht : Digits base t n)
      (h : Digit base c d) : Digits base (t ++ ['_', c]) (n * base + d)

inductive Sign : List Char → Int → Prop
  | absent : Sign [] 1
  | plus : Sign ['+'] 1
  | minus : Sign ['-'] (-1)

/-- A decimal integer: zeros do not lead. -/
inductive Decimal : List Char → Int → Prop
  | mk {s t : List Char} {sign : Int} {n : Nat} (hs : Sign s sign) (ht : Digits 10 t n)
      (hzero : t.head? = some '0' → t = ['0']) : Decimal (s ++ t) (sign * n)

inductive Integer : List Char → Int → Prop
  | dec {t : List Char} {n : Int} (h : Decimal t n) : Integer t n
  | hex {t : List Char} {n : Nat} (h : Digits 16 t n) : Integer ('0' :: 'x' :: t) n
  | oct {t : List Char} {n : Nat} (h : Digits 8 t n) : Integer ('0' :: 'o' :: t) n
  | bin {t : List Char} {n : Nat} (h : Digits 2 t n) : Integer ('0' :: 'b' :: t) n

inductive Exponent : List Char → Prop
  | mk {e : Char} {s t : List Char} {sign : Int} {n : Nat} (he : e = 'e' ∨ e = 'E')
      (hs : Sign s sign) (ht : Digits 10 t n) : Exponent (e :: (s ++ t))

inductive Float : List Char → Prop
  | frac {i t e : List Char} {n : Int} {m : Nat} (hi : Decimal i n) (ht : Digits 10 t m)
      (he : e = [] ∨ Exponent e) : Float (i ++ '.' :: (t ++ e))
  | exp {i e : List Char} {n : Int} (hi : Decimal i n) (he : Exponent e) : Float (i ++ e)
  | special {s t : List Char} {sign : Int} (hs : Sign s sign)
      (ht : t = "inf".toList ∨ t = "nan".toList) : Float (s ++ t)

/-! ### Dates and times -/

/-- Exactly `n` decimal digits. -/
def FixedDigits (n : Nat) (t : List Char) : Prop := t.length = n ∧ ∀ c ∈ t, c.isDigit = true

inductive Date : List Char → Prop
  | mk {y m d : List Char} (hy : FixedDigits 4 y) (hm : FixedDigits 2 m) (hd : FixedDigits 2 d) :
      Date (y ++ '-' :: (m ++ '-' :: d))

inductive Time : List Char → Prop
  | mk {h m s f : List Char} (hh : FixedDigits 2 h) (hm : FixedDigits 2 m) (hs : FixedDigits 2 s)
      (hf : f = [] ∨ ∃ t, f = '.' :: t ∧ t ≠ [] ∧ ∀ c ∈ t, c.isDigit = true) :
      Time (h ++ ':' :: (m ++ ':' :: (s ++ f)))

inductive Offset : List Char → Prop
  | utc {z : Char} (hz : z = 'Z' ∨ z = 'z') : Offset [z]
  | hours {s : Char} {h m : List Char} (hs : s = '+' ∨ s = '-') (hh : FixedDigits 2 h)
      (hm : FixedDigits 2 m) : Offset (s :: (h ++ ':' :: m))

inductive DateTime : List Char → Prop
  | date {d : List Char} (hd : Date d) : DateTime d
  | time {t : List Char} (ht : Time t) : DateTime t
  | both {d t o : List Char} {sep : Char} (hd : Date d) (hsep : sep = 'T' ∨ sep = 't' ∨ sep = ' ')
      (ht : Time t) (ho : o = [] ∨ Offset o) : DateTime (d ++ sep :: (t ++ o))

/-! ### Strings -/

def escapeLetter (c : Char) : Option Char :=
  if c = 'b' then some (Char.ofNat 8)
  else if c = 't' then some '\t'
  else if c = 'n' then some '\n'
  else if c = 'f' then some (Char.ofNat 12)
  else if c = 'r' then some '\r'
  else if c = quote then some quote
  else if c = backslash then some backslash
  else none

/-- An escape sequence, and the character it stands for. -/
inductive Escape : List Char → Char → Prop
  | letter {c d : Char} (h : escapeLetter c = some d) : Escape [backslash, c] d
  | unicode {u : Char} {t : List Char} {n : Nat}
      (hu : (u = 'u' ∧ t.length = 4) ∨ (u = 'U' ∧ t.length = 8)) (ht : Digits 16 t n)
      (hplain : '_' ∉ t) (hn : n.isValidChar) : Escape (backslash :: u :: t) (Char.ofNat n)

/-- The inside of a basic string, and what it stands for. -/
inductive BasicBody : List Char → List Char → Prop
  | nil : BasicBody [] []
  | plain {c : Char} {t s : List Char} (hc : isUnescaped c = true) (h : BasicBody t s) :
      BasicBody (c :: t) (c :: s)
  | escape {e t s : List Char} {c : Char} (he : Escape e c) (h : BasicBody t s) :
      BasicBody (e ++ t) (c :: s)

def LiteralBody (t : List Char) : Prop := ∀ c ∈ t, isNonEol c = true ∧ c ≠ apostrophe

/-- White space and newlines. -/
inductive Blank : List Char → Prop
  | nil : Blank []
  | ws {c : Char} {t : List Char} (hc : isWs c = true) (h : Blank t) : Blank (c :: t)
  | newline {n t : List Char} (hn : Newline n) (h : Blank t) : Blank (n ++ t)

def isBlank (c : Char) : Bool := isWs c || c == '\n' || c == '\r'

/-- The inside of a multi-line basic string that begins with `q` quotes, of which there may
be two in a row. -/
inductive MlBasicBody : Nat → List Char → List Char → Prop
  | nil : MlBasicBody 0 [] []
  | plain {q : Nat} {c : Char} {t s : List Char} (hc : isUnescaped c = true)
      (h : MlBasicBody q t s) : MlBasicBody 0 (c :: t) (c :: s)
  | quote {q : Nat} {t s : List Char} (hq : q < 2) (h : MlBasicBody q t s) :
      MlBasicBody (q + 1) (quote :: t) (quote :: s)
  | newline {q : Nat} {n t s : List Char} (hn : Newline n) (h : MlBasicBody q t s) :
      MlBasicBody 0 (n ++ t) ('\n' :: s)
  | escape {q : Nat} {e t s : List Char} {c : Char} (he : Escape e c) (h : MlBasicBody q t s) :
      MlBasicBody 0 (e ++ t) (c :: s)
  /-- A backslash at the end of a line takes the blank behind it with it. -/
  | continued {q : Nat} {w n b t s : List Char} (hw : Ws w) (hn : Newline n) (hb : Blank b)
      (hstop : ∀ c ∈ t.head?, isBlank c = false) (h : MlBasicBody q t s) :
      MlBasicBody 0 (backslash :: (w ++ (n ++ (b ++ t)))) s

/-- The inside of a multi-line literal string. -/
inductive MlLiteralBody : List Char → List Char → Prop
  | nil : MlLiteralBody [] []
  | plain {c : Char} {t s : List Char} (hc : isNonEol c = true) (h : MlLiteralBody t s) :
      MlLiteralBody (c :: t) (c :: s)
  | newline {n t s : List Char} (hn : Newline n) (h : MlLiteralBody t s) :
      MlLiteralBody (n ++ t) ('\n' :: s)

/-- The delimiter of a multi-line string. -/
def triple (c : Char) : List Char := [c, c, c]

/-- A newline right behind the opening delimiter does not count. -/
def Opening (n t : List Char) : Prop :=
  Newline n ∨ (n = [] ∧ ∀ c ∈ t.head?, c ≠ '\n' ∧ c ≠ '\r')

/-! ### Keys and values -/

abbrev Path := List (List Char)

inductive SimpleKey : List Char → List Char → Prop
  | bare {t : List Char} (hne : t ≠ []) (h : ∀ c ∈ t, isBare c = true) : SimpleKey t t
  | basic {t s : List Char} (h : BasicBody t s) : SimpleKey (quote :: (t ++ [quote])) s
  | literal {t : List Char} (h : LiteralBody t) : SimpleKey (apostrophe :: (t ++ [apostrophe])) t

inductive Key : List Char → Path → Prop
  | one {t k : List Char} (h : SimpleKey t k) : Key t [k]
  | dot {t k w w' t' : List Char} {path : Path} (h : SimpleKey t k) (hw : Ws w) (hw' : Ws w')
      (ht : Key t' path) : Key (t ++ (w ++ '.' :: (w' ++ t'))) (k :: path)

inductive Val where
  | string (s : List Char)
  | integer (n : Int)
  | boolean (b : Bool)
  /-- By how it is written. -/
  | float (t : List Char)
  | dateTime (t : List Char)
  | array (items : List Val)
  | table (pairs : List (Path × Val))

/-- What may stand between the items of an array. -/
inductive Filler : List Char → Prop
  | nil : Filler []
  | ws {c : Char} {t : List Char} (hc : isWs c = true) (h : Filler t) : Filler (c :: t)
  | line {c n t : List Char} (hc : Comment c) (hn : Newline n) (h : Filler t) :
      Filler (c ++ (n ++ t))

mutual

inductive Value : List Char → Val → Prop
  | basic {t s : List Char} (h : BasicBody t s) : Value (quote :: (t ++ [quote])) (.string s)
  | literal {t : List Char} (h : LiteralBody t) :
      Value (apostrophe :: (t ++ [apostrophe])) (.string t)
  | mlBasic {q : Nat} {n t s : List Char} (hn : Opening n t) (h : MlBasicBody q t s) :
      Value (quote :: quote :: quote :: (n ++ (t ++ triple quote))) (.string s)
  | mlLiteral {n t s : List Char} (hn : Opening n t) (h : MlLiteralBody t s)
      (hfree : ¬ triple apostrophe <:+: t) :
      Value (apostrophe :: apostrophe :: apostrophe :: (n ++ (t ++ triple apostrophe))) (.string s)
  | integer {t : List Char} {n : Int} (h : Integer t n) : Value t (.integer n)
  | float {t : List Char} (h : Float t) : Value t (.float t)
  | dateTime {t : List Char} (h : DateTime t) : Value t (.dateTime t)
  | boolean {b : Bool} : Value (toString b).toList (.boolean b)
  | array {t : List Char} {items : List Val} (h : Items t items) :
      Value ('[' :: (t ++ [']'])) (.array items)
  | emptyTable {w : List Char} (hw : Ws w) : Value ('{' :: (w ++ ['}'])) (.table [])
  | inlineTable {w t w' : List Char} {pairs : List (Path × Val)} (hw : Ws w) (h : Pairs t pairs)
      (hw' : Ws w') : Value ('{' :: (w ++ (t ++ (w' ++ ['}'])))) (.table pairs)

/-- The inside of an array; a comma may end it. -/
inductive Items : List Char → List Val → Prop
  | nil {f : List Char} (hf : Filler f) : Items f []
  | last {f t f' : List Char} {v : Val} (hf : Filler f) (h : Value t v) (hf' : Filler f') :
      Items (f ++ (t ++ f')) [v]
  | more {f t f' t' : List Char} {v : Val} {items : List Val} (hf : Filler f) (h : Value t v)
      (hf' : Filler f') (ht : Items t' items) : Items (f ++ (t ++ (f' ++ ',' :: t'))) (v :: items)

inductive KeyValue : List Char → Path → Val → Prop
  | mk {k w w' t : List Char} {path : Path} {v : Val} (hk : Key k path) (hw : Ws w) (hw' : Ws w')
      (h : Value t v) : KeyValue (k ++ (w ++ '=' :: (w' ++ t))) path v

/-- The inside of an inline table. -/
inductive Pairs : List Char → List (Path × Val) → Prop
  | last {t : List Char} {path : Path} {v : Val} (h : KeyValue t path v) : Pairs t [(path, v)]
  | more {t w w' t' : List Char} {path : Path} {v : Val} {pairs : List (Path × Val)}
      (h : KeyValue t path v) (hw : Ws w) (hw' : Ws w') (ht : Pairs t' pairs) :
      Pairs (t ++ (w ++ ',' :: (w' ++ t'))) ((path, v) :: pairs)

end

/-! ### Documents -/

inductive Statement where
  | blank
  | assign (path : Path) (v : Val)
  | table (path : Path)
  | arrayTable (path : Path)

/-- What comes between two newlines of a document. -/
inductive Expression : List Char → Statement → Prop
  | blank {w c : List Char} (hw : Ws w) (hc : Comment c) : Expression (w ++ c) .blank
  | assign {w t w' c : List Char} {path : Path} {v : Val} (hw : Ws w) (h : KeyValue t path v)
      (hw' : Ws w') (hc : Comment c) : Expression (w ++ (t ++ (w' ++ c))) (.assign path v)
  | table {w u k u' w' c : List Char} {path : Path} (hw : Ws w) (hu : Ws u) (hk : Key k path)
      (hu' : Ws u') (hw' : Ws w') (hc : Comment c) :
      Expression (w ++ '[' :: (u ++ (k ++ (u' ++ ']' :: (w' ++ c))))) (.table path)
  | arrayTable {w u k u' w' c : List Char} {path : Path} (hw : Ws w) (hu : Ws u) (hk : Key k path)
      (hu' : Ws u') (hw' : Ws w') (hc : Comment c) :
      Expression (w ++ '[' :: '[' :: (u ++ (k ++ (u' ++ ']' :: ']' :: (w' ++ c)))))
        (.arrayTable path)

/-- An expression of a document, and how the newline behind it is written. -/
structure Line where
  text : List Char
  means : Statement
  spelled : Expression text means
  crlf : Bool

def Line.newline (l : Line) : List Char := if l.crlf then ['\r', '\n'] else ['\n']

abbrev Document := List Line

namespace Document

/-- The text of a document. -/
def text : Document → List Char
  | [] => []
  | [l] => l.text
  | l :: l' :: ls => l.text ++ (l.newline ++ text (l' :: ls))

def isHeader : Statement → Bool
  | .table _ => true
  | .arrayTable _ => true
  | _ => false

/-- The lines in front of the first table header. -/
def root (doc : Document) : List Line := doc.takeWhile fun l => !isHeader l.means

/-- The root table has `v` under `k`. -/
def Assigns (doc : Document) (k : List Char) (v : Val) : Prop :=
  ∃ l ∈ doc.root, l.means = .assign [k] v

/-- The paths that the root table is given values under. -/
def rootPaths (doc : Document) : List Path :=
  doc.root.filterMap fun l =>
    match l.means with
    | .assign path _ => some path
    | _ => none

def headers (doc : Document) : List Path :=
  doc.filterMap fun l =>
    match l.means with
    | .table path => some path
    | .arrayTable path => some path
    | _ => none

/-- No value of the root table is assigned twice, or is a table as well. -/
structure WellFormed (doc : Document) : Prop where
  once : doc.rootPaths.Pairwise fun p q => ¬ p <+: q ∧ ¬ q <+: p
  noTable : ∀ p ∈ doc.rootPaths, ∀ q ∈ doc.headers, ¬ p <+: q

end Document

end Toml
