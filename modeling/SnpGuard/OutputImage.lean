/-
The size of the output image: `create_output_image` in `common.sh`.

The script takes the size of the source image from the text that `qemu-img info` prints for
people: a number of three significant digits and a unit that goes with its magnitude.  It
puts a `G` behind the number, whatever the unit was, and creates an image of that size.
Below 1000 MiB the unit is smaller and the output image far larger; from 1000 GiB on the unit
is larger and the output image far too small.  In between the size is right up to rounding,
and the output image is large enough unless the number was rounded down beyond the sector in
which the source image ends (`largeEnough_iff`).
-/
import Mathlib.Data.List.Infix
import Mathlib.Data.Nat.Log
import Mathlib.Tactic.Linarith
import SnpGuard.Lib.Decimal
import SnpGuard.Lib.Words

namespace SnpGuard.OutputImage

open Decimal Words

/-! ### `qemu-img` -/

/-- What `qemu-img` prints besides the size, and what it rounds the sizes of images to. -/
structure QemuImg where
  front : List (List Char)
  back : List (List Char)
  other : ∀ l ∈ front ++ back, ¬ "virtual size:".toList <:+: l
  sector : Nat
  sector_pos : 0 < sector
  sector_le : sector ≤ 2 ^ 30

/-- The power of 1024 in which a size is printed: in front of it stands less than 1000. -/
def unitIndex (v : Nat) : Nat := Nat.log 1024 (1024 * v / 1000)

def suffixes : List String := ["", "Ki", "Mi", "Gi", "Ti", "Pi", "Ei"]

/-- The line with the virtual size. -/
def sizeLine (v : Nat) : List Char :=
  "virtual".toList ++ ' ' :: ("size:".toList ++ ' ' :: (general v (1024 ^ unitIndex v) ++ ' ' ::
    (suffixes.getD (unitIndex v) "" ++ "B (" ++ toString v ++ " bytes)").toList))

variable (q : QemuImg)

/-- `qemu-img info`, line by line. -/
def QemuImg.info (v : Nat) : List (List Char) := q.front ++ sizeLine v :: q.back

/-- The size that `qemu-img create` gives an image, if it understands it.  Numbers with an exponent
are read, as `qemu-img` did before version 6.0. -/
def QemuImg.create (size : String) : Option Nat :=
  if size.toList.getLast? = some 'G' then
    (read? size.toList.dropLast).map fun n : ℚ => roundUp q.sector ⌊n * (2 ^ 30 : Nat)⌋₊
  else none

/-! ### The script -/

/-- `$(qemu-img info "$SRC_IMAGE" | awk '/virtual size:/ { print $3 "G" }')`. -/
def size (v : Nat) : String :=
  String.ofList (Shell.substitution nul '\n'
    (((q.info v).filter fun l => "virtual size:".toList <:+: l).flatMap fun l =>
      awkThird l ++ ['G'] ++ ['\n']))

/-- `create_output_image`, from the virtual size of one image to that of the other.  The size
is not quoted. -/
def createOutputImage (x : Expansion) (v : Nat) : Option Nat :=
  match x.unquoted (size q v) with
  | [size] => q.create size
  | _ => none

/-- An image is created, and what is in the source image fits in. -/
def LargeEnough (x : Expansion) (v : Nat) : Prop := ∃ n, createOutputImage q x v = some n ∧ v ≤ n

/-- The size in units of the last place that is printed of it in GiB, times `2 ^ 30`. -/
def inLastPlace (v : Nat) : Nat := 10 ^ shownPlaces v (2 ^ 30) * v

/-- In GiB, the number was rounded up, or not down by more than what makes up the sector
again in which the image ends. -/
def Kept (v : Nat) : Prop :=
  inLastPlace v % 2 ^ 30 ≤ 10 ^ shownPlaces v (2 ^ 30) * ((v - 1) % q.sector) ∨
    2 ^ 30 < 2 * (inLastPlace v % 2 ^ 30) ∨
    2 * (inLastPlace v % 2 ^ 30) = 2 ^ 30 ∧ inLastPlace v / 2 ^ 30 % 2 = 1

instance (v : Nat) : Decidable (Kept q v) := inferInstanceAs (Decidable (_ ∨ _))

/-! ### The way of the number through the text -/

theorem isNumeral_plain {c : Char} (h : isNumeral c = true ∨ c = 'e' ∨ c = '+' ∨ c = 'G') :
    isBlank c = false ∧ isPattern c = false ∧ c ≠ nul ∧ c ≠ '\n' := by
  have hne : ∀ {d : Char}, isNumeral d = false → d ≠ 'e' → d ≠ '+' → d ≠ 'G' → c ≠ d := by
    rintro d hd he hp hg rfl
    simp [hd, he, hp, hg] at h
  refine ⟨?_, ?_, ?_, ?_⟩
  · unfold isBlank
    simp only [Bool.or_eq_false_iff, beq_eq_false_iff_ne]
    exact ⟨⟨hne rfl (by decide) (by decide) (by decide),
      hne rfl (by decide) (by decide) (by decide)⟩, hne rfl (by decide) (by decide) (by decide)⟩
  · unfold isPattern
    simp only [Bool.or_eq_false_iff, beq_eq_false_iff_ne]
    exact ⟨⟨⟨hne rfl (by decide) (by decide) (by decide),
      hne rfl (by decide) (by decide) (by decide)⟩, hne rfl (by decide) (by decide) (by decide)⟩,
      hne rfl (by decide) (by decide) (by decide)⟩
  · exact hne rfl (by decide) (by decide) (by decide)
  · exact hne rfl (by decide) (by decide) (by decide)

theorem general_plain {v u : Nat} {c : Char} (h : c ∈ general v u ++ ['G']) :
    isBlank c = false ∧ isPattern c = false ∧ c ≠ nul ∧ c ≠ '\n' := by
  refine isNumeral_plain ?_
  rcases List.mem_append.mp h with h | h
  · rcases isNumeral_of_mem_general h with h | h | h
    · exact .inl h
    · exact .inr (.inl h)
    · exact .inr (.inr (.inl h))
  · exact .inr (.inr (.inr (List.mem_singleton.mp h)))

theorem awkThird_sizeLine (v : Nat) :
    awkThird (sizeLine v) = general v (1024 ^ unitIndex v) := by
  have hplain : ∀ {w : List Char}, w.all (fun c => !isBlank c) = true →
      ∀ c ∈ w, isBlank c = false := by
    intro w hw c hc
    simpa using List.all_eq_true.mp hw c hc
  refine awkThird_of_words ⟨by decide, hplain (by decide)⟩ ⟨by decide, hplain (by decide)⟩
    ⟨general_ne_nil _ _, fun c hc => ?_⟩
  exact (general_plain (List.mem_append_left _ hc)).1

/-- Of all that is printed, the size line is left over. -/
theorem filter_info (v : Nat) :
    ((q.info v).filter fun l => "virtual size:".toList <:+: l) = [sizeLine v] := by
  have hnone : ∀ {ls : List (List Char)}, (∀ l ∈ ls, l ∈ q.front ++ q.back) →
      (ls.filter fun l => "virtual size:".toList <:+: l) = [] := by
    intro ls hls
    rw [List.filter_eq_nil_iff]
    intro l hl
    rw [decide_eq_true_eq]
    exact q.other l (hls l hl)
  have hline : "virtual size:".toList <:+: sizeLine v := by
    unfold sizeLine
    exact ⟨[], _, rfl⟩
  unfold QemuImg.info
  have hkeep : decide ("virtual size:".toList <:+: sizeLine v) = true := decide_eq_true hline
  rw [List.filter_append, List.filter_cons, if_pos hkeep,
    hnone fun l hl => List.mem_append_left _ hl, hnone fun l hl => List.mem_append_right _ hl,
    List.nil_append]

theorem size_eq (v : Nat) :
    size q v = String.ofList (general v (1024 ^ unitIndex v) ++ ['G']) := by
  unfold size
  rw [filter_info, List.flatMap_cons, List.flatMap_nil, List.append_nil, awkThird_sizeLine,
    Shell.substitution_line (fun h => (general_plain h).2.2.1 rfl)
      (fun h => (general_plain h).2.2.2 rfl) (by decide)]

/-- **The number that was printed comes out in GiB.** -/
theorem createOutputImage_eq (x : Expansion) (v : Nat) :
    createOutputImage q x v = some (roundUp q.sector
      ((threeDigits v (1024 ^ unitIndex v)).mantissa * 2 ^ 30
        / 10 ^ (threeDigits v (1024 ^ unitIndex v)).places)) := by
  have hplain : Plain (size q v).toList := by
    rw [size_eq, String.toList_ofList]
    exact ⟨by simp, fun c hc => ⟨(general_plain hc).1, (general_plain hc).2.1⟩⟩
  unfold createOutputImage
  rw [x.unquoted_of_plain hplain]
  show q.create (size q v) = _
  unfold QemuImg.create
  rw [size_eq, String.toList_ofList, List.getLast?_concat, if_pos rfl, List.dropLast_concat,
    read?_general, Option.map_some, floor_value_mul]

/-! ### The size that comes out -/

theorem unitIndex_le_iff (v k : Nat) : unitIndex v ≤ k ↔ v < 1000 * 1024 ^ k := by
  unfold unitIndex
  by_cases hzero : 1024 * v / 1000 = 0
  · have hpos : 0 < 1024 ^ k := Nat.pow_pos (by decide)
    rw [hzero, Nat.log_zero_right]
    omega
  · rw [← Nat.lt_succ_iff, Nat.log_lt_iff_lt_pow (by decide) hzero,
      Nat.div_lt_iff_lt_mul (by decide), Nat.pow_succ]
    omega

variable {v : Nat}

/-- A size that is not zero is one in the last place that is printed. -/
theorem unit_le_inPlace (hv : 0 < v) :
    1024 ^ unitIndex v ≤ 10 ^ shownPlaces v (1024 ^ unitIndex v) * v := by
  have hunit : 1024 ^ unitIndex v ≤ 1024 * v / 1000 :=
    Nat.pow_log_le_self 1024 (by omega)
  generalize 1024 ^ unitIndex v = u at hunit
  unfold shownPlaces
  split_ifs
  all_goals omega

/-- Up to MiB, the size that comes out is larger: the number is taken in a larger unit. -/
theorem le_size_of_small (hv : 0 < v) (h : unitIndex v ≤ 2) :
    v ≤ (threeDigits v (1024 ^ unitIndex v)).mantissa * 2 ^ 30
      / 10 ^ (threeDigits v (1024 ^ unitIndex v)).places := by
  have hunit := unit_le_inPlace hv
  have hpos : 0 < 1024 ^ unitIndex v := Nat.pow_pos (by decide)
  have hlarger : 1024 ^ unitIndex v * 2 ^ 10 ≤ 2 ^ 30 := by
    have hpow : (1024 : Nat) ^ unitIndex v ≤ 1024 ^ 2 := Nat.pow_le_pow_right (by decide) h
    omega
  simp only [threeDigits]
  generalize 1024 ^ unitIndex v = u at *
  obtain ⟨-, hnear⟩ := roundDiv_mul_near (a := 10 ^ shownPlaces v u * v) hpos
  rw [Nat.le_div_iff_mul_le (Nat.pow_pos (by decide)), Nat.mul_comm v]
  generalize 10 ^ shownPlaces v u * v = a at *
  have hmul := Nat.mul_le_mul_left (roundDiv a u) hlarger
  rw [← Nat.mul_assoc] at hmul
  omega

/-- A number taken for one of a unit that is smaller by 1024 comes to a five hundredth of the
size at most. -/
theorem smaller_unit_le {m g u t : Nat} (ht : 0 < t) (hu : g * 1024 ≤ u) (hunit : u ≤ t * v)
    (hnear : 2 * (m * u) ≤ 2 * (t * v) + u) : m * g / t ≤ v / 500 := by
  have hmul : m * g * 1024 ≤ m * u := by
    rw [Nat.mul_assoc]
    exact Nat.mul_le_mul_left m hu
  have hdiv : t * (m * g / t) ≤ m * g := Nat.mul_div_le _ t
  have hscaled : t * (m * g / t * 500) ≤ t * v := by linarith
  rw [Nat.le_div_iff_mul_le (by decide)]
  exact Nat.le_of_mul_le_mul_left hscaled ht

/-- From TiB on it is smaller by far. -/
theorem size_lt_of_large (h : 3 < unitIndex v) :
    roundUp q.sector ((threeDigits v (1024 ^ unitIndex v)).mantissa * 2 ^ 30
      / 10 ^ (threeDigits v (1024 ^ unitIndex v)).places) < v := by
  have hv : 1000 * 1024 ^ 3 ≤ v := by
    rw [← Nat.not_lt, ← unitIndex_le_iff]
    omega
  have hunit := unit_le_inPlace (v := v) (by omega)
  have hpos : 0 < 1024 ^ unitIndex v := Nat.pow_pos (by decide)
  have hsmaller : 2 ^ 30 * 1024 ≤ 1024 ^ unitIndex v := by
    have hpow : (1024 : Nat) ^ 4 ≤ 1024 ^ unitIndex v := Nat.pow_le_pow_right (by decide) h
    omega
  have hsector := q.sector_le
  refine Nat.lt_of_le_of_lt (roundUp_le _ _) ?_
  simp only [threeDigits]
  generalize 1024 ^ unitIndex v = u at *
  obtain ⟨hnear, -⟩ := roundDiv_mul_near (a := 10 ^ shownPlaces v u * v) hpos
  have hplaces : 0 < 10 ^ shownPlaces v u := Nat.pow_pos (by decide)
  have hsize := smaller_unit_le hplaces hsmaller hunit hnear
  omega

/-- In GiB, it falls short by what the rounding takes away. -/
theorem le_size_iff_kept (hv : 0 < v) :
    v ≤ roundUp q.sector ((threeDigits v (2 ^ 30)).mantissa * 2 ^ 30
      / 10 ^ (threeDigits v (2 ^ 30)).places) ↔ Kept q v := by
  have hplaces : 0 < 10 ^ shownPlaces v (2 ^ 30) := Nat.pow_pos (by decide)
  rw [le_roundUp_iff q.sector_pos hv]
  unfold Kept
  show v ≤ roundDiv (inLastPlace v) (2 ^ 30) * 2 ^ 30 / 10 ^ shownPlaces v (2 ^ 30)
    + (v - 1) % q.sector ↔ _
  by_cases hup : inLastPlace v ≤ roundDiv (inLastPlace v) (2 ^ 30) * 2 ^ 30
  · have hle : v ≤ roundDiv (inLastPlace v) (2 ^ 30) * 2 ^ 30 / 10 ^ shownPlaces v (2 ^ 30) := by
      rw [Nat.le_div_iff_mul_le hplaces, Nat.mul_comm v]
      exact hup
    have hcases := (le_roundDiv_mul_iff (by decide)).mp hup
    refine iff_of_true (by omega) ?_
    rcases hcases with hexact | hcases
    · exact .inl (by omega)
    · exact .inr hcases
  · have hdown := roundDiv_of_lt (by decide) (Nat.not_le.mp hup)
    have hnot := mt (le_roundDiv_mul_iff (by decide)).mpr hup
    have hdiv : inLastPlace v / 2 ^ 30 * 2 ^ 30 + inLastPlace v % 2 ^ 30 = inLastPlace v :=
      Nat.div_add_mod' _ _
    have hsector : (v - 1) % q.sector ≤ v - 1 := Nat.mod_le _ _
    have hshort : v ≤ roundDiv (inLastPlace v) (2 ^ 30) * 2 ^ 30 / 10 ^ shownPlaces v (2 ^ 30)
        + (v - 1) % q.sector ↔
        inLastPlace v % 2 ^ 30 ≤ 10 ^ shownPlaces v (2 ^ 30) * ((v - 1) % q.sector) := by
      rw [hdown, ← Nat.sub_le_iff_le_add, Nat.le_div_iff_mul_le hplaces, Nat.sub_mul,
        Nat.mul_comm v, Nat.mul_comm ((v - 1) % q.sector)]
      show inLastPlace v - _ ≤ _ ↔ _
      omega
    rw [hshort]
    exact ⟨Or.inl, fun h => h.resolve_right fun h' => hnot (.inr h')⟩

/-- **When the output image is large enough.**  For a source image below 1000 MiB it always is,
for one from 1000 GiB on it never is, and in between it is if the number of GiB was not
rounded down, or by no more than what the last sector makes up for. -/
theorem largeEnough_iff (x : Expansion) (v : Nat) :
    LargeEnough q x v ↔ v < 1000 * 2 ^ 20 ∨ v < 1000 * 2 ^ 30 ∧ Kept q v := by
  have hMiB := unitIndex_le_iff v 2
  have hGiB := unitIndex_le_iff v 3
  have hle : ∀ n, n ≤ roundUp q.sector n := by
    intro n
    rcases Nat.eq_zero_or_pos n with rfl | hn
    · exact Nat.zero_le _
    · exact (le_roundUp_iff q.sector_pos hn).mpr (Nat.le_add_right _ _)
  unfold LargeEnough
  rw [createOutputImage_eq]
  simp only [Option.some.injEq, exists_eq_left']
  by_cases hsmall : unitIndex v ≤ 2
  · refine iff_of_true ?_ (.inl (by omega))
    rcases Nat.eq_zero_or_pos v with hv | hv
    · rw [hv]
      exact Nat.zero_le _
    · exact (le_size_of_small hv hsmall).trans (hle _)
  by_cases hlarge : 3 < unitIndex v
  · refine iff_of_false (Nat.not_le.mpr (size_lt_of_large q hlarge)) ?_
    omega
  · have hunit : unitIndex v = 3 := by omega
    rw [hunit]
    refine (le_size_iff_kept q (by omega)).trans ⟨fun h => .inr ⟨by omega, h⟩, fun h => ?_⟩
    exact (h.resolve_left (by omega)).2

/-- A `qemu-img` that prints nothing else. -/
def QemuImg.plain : QemuImg := ⟨[], [], by simp, 512, by decide, by decide⟩

/-- The number of a source image of a tebibyte is taken for one gibibyte, and one that is a
little over two gibibytes loses what is over. -/
theorem one_tebibyte :
    createOutputImage .plain .noFiles (2 ^ 40) = some (2 ^ 30) ∧
      createOutputImage .plain .noFiles 2151677952 = some (2 ^ 31) ∧
      ¬ LargeEnough .plain .noFiles (2 ^ 40) ∧ ¬ LargeEnough .plain .noFiles 2151677952 := by
  have htebi : createOutputImage .plain .noFiles (2 ^ 40) = some (2 ^ 30) := by decide +kernel
  have hgibi : createOutputImage .plain .noFiles 2151677952 = some (2 ^ 31) := by decide +kernel
  refine ⟨htebi, hgibi, ?_, ?_⟩
  · intro h
    obtain ⟨n, hn, hle⟩ := h
    rw [htebi, Option.some.injEq] at hn
    omega
  · intro h
    obtain ⟨n, hn, hle⟩ := h
    rw [hgibi, Option.some.injEq] at hn
    omega

end SnpGuard.OutputImage
