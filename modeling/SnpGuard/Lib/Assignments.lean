/-
Words of the form `name=value`.

    for x in ..; do
      case $x in
        name=*) NAME=${x#name=} ;;
        other=*) OTHER=${x#other=} ;;
      esac
    done

A name has no `=` in it, so a word assigns to one name at most and the order of the cases
does not matter.  What the loop leaves in a variable is the last value that a word assigns to
its name (`SetBy.read`).
-/
import Mathlib.Data.List.Basic
import Mathlib.Data.List.Induction

namespace Assignments

variable {σ : Type}

/-- What a word assigns to a name. -/
def valueOf (name word : String) : Option String :=
  if (name.toList ++ ['=']).isPrefixOf word.toList then
    some (String.ofList (word.toList.drop (name.toList.length + 1)))
  else none

/-- A case of the loop. -/
structure Case (σ : Type) where
  name : String
  set : String → σ → σ

/-- One word: the first case whose name it assigns to. -/
def step (cases : List (Case σ)) (s : σ) (word : String) : σ :=
  (cases.findSome? fun c => (valueOf c.name word).map fun value => c.set value s).getD s

def read (cases : List (Case σ)) (words : List String) (s : σ) : σ := words.foldl (step cases) s

/-- The last value that a word assigns to a name. -/
def lastValue (name : String) (words : List String) : Option String :=
  (words.filterMap (valueOf name)).getLast?

theorem valueOf_eq_some {name word value : String} :
    valueOf name word = some value ↔ word.toList = name.toList ++ '=' :: value.toList := by
  unfold valueOf
  split_ifs with h
  · rw [List.isPrefixOf_iff_prefix] at h
    obtain ⟨rest, hrest⟩ := h
    have hdrop : word.toList.drop (name.toList.length + 1) = rest := by
      rw [← hrest]
      exact List.drop_left' (by simp)
    rw [hdrop, Option.some.injEq, ← hrest, List.append_assoc, List.singleton_append,
      List.append_cancel_left_eq, List.cons.injEq]
    refine ⟨?_, ?_⟩
    · rintro rfl
      simp
    · intro heq
      rw [heq.2, String.ofList_toList]
  · refine ⟨by simp, fun heq => absurd ?_ h⟩
    rw [List.isPrefixOf_iff_prefix, heq]
    exact ⟨value.toList, by simp⟩

/-- What assigns `value`. -/
theorem valueOf_append (name value : String) :
    valueOf name (name ++ "=" ++ value) = some value := by
  rw [valueOf_eq_some]
  simp

/-- A word assigns to one name at most. -/
theorem name_unique {a b word : String} (ha : '=' ∉ a.toList) (hb : '=' ∉ b.toList)
    (hword : (valueOf a word).isSome) (hword' : (valueOf b word).isSome) : a = b := by
  obtain ⟨v, hv⟩ := Option.isSome_iff_exists.mp hword
  obtain ⟨w, hw⟩ := Option.isSome_iff_exists.mp hword'
  have hname : ∀ {name value : String}, '=' ∉ name.toList →
      valueOf name word = some value → word.toList.takeWhile (· != '=') = name.toList := by
    intro name value hname hvalue
    rw [valueOf_eq_some.mp hvalue, List.takeWhile_append_of_pos, List.takeWhile_cons_of_neg,
      List.append_nil]
    · simp
    · intro c hc
      simpa using fun heq : c = '=' => hname (heq ▸ hc)
  have heq := (hname ha hv).symm.trans (hname hb hw)
  exact String.toList_injective heq

theorem lastValue_snoc (name : String) (words : List String) (word : String) :
    lastValue name (words ++ [word]) = (valueOf name word).or (lastValue name words) := by
  unfold lastValue
  rw [List.filterMap_append]
  cases h : valueOf name word with
  | none => simp [h]
  | some value => simp [h]

theorem lastValue_append (name : String) (front back : List String) :
    lastValue name (front ++ back) = (lastValue name back).or (lastValue name front) := by
  induction back using List.reverseRecOn with
  | nil => simp [lastValue]
  | append_singleton back word ih =>
      rw [← List.append_assoc, lastValue_snoc, lastValue_snoc, ih, Option.or_assoc]

/-- `get` reads the variable that the case of `name` sets, and no other case does. -/
structure SetBy (cases : List (Case σ)) (name : String) (get : σ → String) : Prop where
  known : ∃ c ∈ cases, c.name = name
  noEquals : ∀ c ∈ cases, '=' ∉ c.name.toList
  set : ∀ c ∈ cases, ∀ value s, get (c.set value s) = if c.name = name then value else get s

/-- What one word does to the variable. -/
theorem SetBy.step {cases : List (Case σ)} {name : String} {get : σ → String}
    (h : SetBy cases name get) (s : σ) (word : String) :
    get (step cases s word) = (valueOf name word).getD (get s) := by
  unfold Assignments.step
  cases hfound : cases.findSome? fun c => (valueOf c.name word).map fun value => c.set value s with
  | none =>
      rw [List.findSome?_eq_none_iff] at hfound
      obtain ⟨c, hc, rfl⟩ := h.known
      have hnone := hfound c hc
      rw [Option.map_eq_none_iff] at hnone
      rw [hnone]
      rfl
  | some s' =>
      obtain ⟨c, hc, hset⟩ := List.exists_of_findSome?_eq_some hfound
      obtain ⟨value, hvalue, rfl⟩ := Option.map_eq_some_iff.mp hset
      rw [Option.getD_some, h.set c hc]
      split_ifs with hname
      · rw [← hname, hvalue]
        rfl
      · -- The word belongs to another name.
        have hnone : valueOf name word = none := by
          obtain ⟨c', hc', rfl⟩ := h.known
          by_contra hsome
          exact hname (name_unique (h.noEquals c hc) (h.noEquals c' hc') (by rw [hvalue]; rfl)
            (Option.isSome_iff_ne_none.mpr hsome))
        rw [hnone]
        rfl

/-- **A variable ends up with the last value that is assigned to its name.** -/
theorem SetBy.read {cases : List (Case σ)} {name : String} {get : σ → String}
    (h : SetBy cases name get) (words : List String) (s : σ) :
    get (read cases words s) = (lastValue name words).getD (get s) := by
  induction words using List.reverseRecOn with
  | nil => rfl
  | append_singleton words word ih =>
      show get ((words ++ [word]).foldl (Assignments.step cases) s) = _
      rw [List.foldl_concat, h.step, lastValue_snoc]
      change get (words.foldl (Assignments.step cases) s) = _ at ih
      rw [ih]
      cases valueOf name word <;> rfl

end Assignments
