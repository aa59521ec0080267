import Text2Cypher.Library.Dict
import Text2Cypher.Library.GeneralFormat

/-!
# Histograms

A column of numbers is shown as the numbers of values in bins of one width.  A bin is labelled with
its two bounds, rounded to two places; a bound that is then no whole number is written with six
significant digits.  The arithmetic is exact here.

* `buildHistogram`: the histogram of a column;
* `mem_bin_iff`: the bin of a value, from the bounds;
* `boundsOf?_label`: what a label says;
* **`buildHistogram_faithful`**: the bins divide the range, and their labels are the bounds up to
  rounding.
-/

namespace Histogram

open Decimal

/-! ### The histogram -/

/-- The cells of a row that hold numbers, or nothing. -/
abbrev Row := Dict String (Option ℚ)

structure Bar where
  category : Text
  value : ℕ
  deriving DecidableEq

/-- The specification that is shown, of the type `histogram`. -/
structure VisualizationSpec where
  categoryLabel : String
  /-- key, label and unit -/
  series : List (String × String × String)
  data : List Bar

/-- The numbers of a column. -/
def valuesOf (rows : List Row) (numericKey : String) : List ℚ :=
  rows.filterMap fun row => (row.get? numericKey).join

/-- `round(n ** 0.5)`. -/
def roundSqrt (n : ℕ) : ℕ := if n ≤ n.sqrt * n.sqrt + n.sqrt then n.sqrt else n.sqrt + 1

def minHistogramRows : ℕ := 5

def minHistogramBins : ℕ := 4

def maxHistogramBins : ℕ := 10

def binCount (n : ℕ) : ℕ := min maxHistogramBins (max minHistogramBins (roundSqrt n))

/-- The number that is printed for a bound. -/
def printedBound (value : ℚ) : Decimal :=
  let rounded := roundPlaces 2 value
  if rounded.coefficient % 100 = 0 then ofInt (rounded.signed / 100) else significant 6 rounded

/-- `_format_bin_bound`. -/
def formatBinBound (value : ℚ) : Text :=
  let rounded := roundPlaces 2 value
  if rounded.coefficient % 100 = 0 then plainText (ofInt (rounded.signed / 100))
  else generalText 6 rounded

/-- The lower bound of a bin, and the upper bound of the one in front of it. -/
def binBound (minValue binWidth : ℚ) (i : ℕ) : ℚ := minValue + i * binWidth

def label (minValue binWidth : ℚ) (i : ℕ) : Text :=
  formatBinBound (binBound minValue binWidth i) ++
    '~' :: formatBinBound (binBound minValue binWidth (i + 1))

/-- The bin that a value is counted in. -/
def binIndex (minValue binWidth : ℚ) (count : ℕ) (value : ℚ) : ℕ :=
  min ⌊(value - minValue) / binWidth⌋.toNat (count - 1)

def countBins (index : ℚ → ℕ) (count : ℕ) (values : List ℚ) : List ℕ :=
  values.foldl (fun counts value => counts.modify (index value) (· + 1)) (List.replicate count 0)

def bars (minValue binWidth : ℚ) (count : ℕ) (values : List ℚ) : List Bar :=
  let counts := countBins (binIndex minValue binWidth count) count values
  (List.range count).map fun i => ⟨label minValue binWidth i, counts.getD i 0⟩

/-- **`_build_histogram`.** -/
def buildHistogram (labelFor : String → String) (rows : List Row) (numericKey : String) :
    Option VisualizationSpec :=
  let values := valuesOf rows numericKey
  if values.length < minHistogramRows then none
  else
    match values.min?, values.max? with
    | some minValue, some maxValue =>
      if minValue = maxValue then none
      else
        let count := binCount values.length
        let binWidth := (maxValue - minValue) / count
        some
          { categoryLabel := labelFor numericKey ++ " 구간"
            series := [("value", "건수", "건")]
            data := bars minValue binWidth count values }
    | _, _ => none

/-! ### What a histogram should be -/

/-- The two numbers that a label names. -/
def boundsOf? (category : Text) : Option (ℚ × ℚ) :=
  let lower := category.takeWhile (· ≠ '~')
  (generalValue? lower).bind fun a =>
    (generalValue? (category.drop (lower.length + 1))).map fun b => (a, b)

/-- A value between the bounds that a label names. -/
def Within (category : Text) (value : ℚ) : Prop :=
  ∃ a b, boundsOf? category = some (a, b) ∧ a ≤ value ∧ value ≤ b

/-- A value in a bin, of which the last one holds its upper bound. -/
def InBin (minValue binWidth : ℚ) (count i : ℕ) (value : ℚ) : Prop :=
  binBound minValue binWidth i ≤ value ∧ (value < binBound minValue binWidth (i + 1) ∨
    i + 1 = count ∧ value = binBound minValue binWidth (i + 1))

instance (minValue binWidth : ℚ) (count i : ℕ) (value : ℚ) :
    Decidable (InBin minValue binWidth count i value) := by
  unfold InBin
  infer_instance

/-- How far a printed bound may be off. -/
def labelError (value : ℚ) : ℚ := 1 / 200 + (|value| + 1 / 200) / 200000

/-- Bins that divide the range of the values. -/
structure Faithful (values : List ℚ) (minValue maxValue binWidth : ℚ) (data : List Bar) :
    Prop where
  counts : (data.map Bar.value).sum = values.length
  one_bin : ∀ value ∈ values, ∃! i, i < data.length ∧
    InBin minValue binWidth data.length i value
  counted : ∀ i bar, data[i]? = some bar →
    bar.value = values.countP fun value => InBin minValue binWidth data.length i value
  width_pos : 0 < binWidth
  first : binBound minValue binWidth 0 = minValue
  last : binBound minValue binWidth data.length = maxValue
  covers : ∀ value, minValue ≤ value → value ≤ maxValue →
    ∃ i < data.length, InBin minValue binWidth data.length i value
  /-- a label names the bounds of its bin, up to rounding -/
  labels : ∀ i bar, data[i]? = some bar → ∃ a b, boundsOf? bar.category = some (a, b) ∧
    |a - binBound minValue binWidth i| ≤ labelError (binBound minValue binWidth i) ∧
    |b - binBound minValue binWidth (i + 1)| ≤ labelError (binBound minValue binWidth (i + 1))
  /-- wide bins have labels of their own -/
  distinct : 2 * labelError (max |minValue| |maxValue|) < binWidth → (data.map Bar.category).Nodup

/-! ### Bins -/

section

variable {minValue binWidth : ℚ} (hwidth : 0 < binWidth)

theorem binBound_succ (minValue binWidth : ℚ) (i : ℕ) :
    binBound minValue binWidth (i + 1) = binBound minValue binWidth i + binWidth := by
  unfold binBound
  push_cast
  ring

include hwidth in
theorem binBound_mono {i j : ℕ} (h : i ≤ j) :
    binBound minValue binWidth i ≤ binBound minValue binWidth j := by
  unfold binBound
  gcongr

include hwidth in
/-- The bins do not overlap. -/
theorem inBin_unique {count i j : ℕ} {value : ℚ} (hi : i < count) (hj : j < count)
    (h : InBin minValue binWidth count i value) (h' : InBin minValue binWidth count j value) :
    i = j := by
  have hle : ∀ {i j : ℕ}, j < count → InBin minValue binWidth count i value →
      InBin minValue binWidth count j value → ¬ i < j := by
    intro i j hj h h' hlt
    have hbound : binBound minValue binWidth (i + 1) ≤ binBound minValue binWidth j :=
      binBound_mono hwidth hlt
    rcases h.2 with hless | ⟨hlast, -⟩
    · exact absurd (hbound.trans h'.1) (not_le.2 hless)
    · omega
  have hij := hle hj h h'
  have hji := hle hi h' h
  omega

include hwidth in
/-- The bin that the code counts a value in. -/
theorem inBin_binIndex {count : ℕ} (hcount : 0 < count) {value : ℚ} (hmin : minValue ≤ value)
    (hmax : value ≤ binBound minValue binWidth count) :
    binIndex minValue binWidth count value < count ∧
      InBin minValue binWidth count (binIndex minValue binWidth count value) value := by
  set k := ⌊(value - minValue) / binWidth⌋.toNat with hk
  have hnonneg : 0 ≤ (value - minValue) / binWidth := div_nonneg (by linarith) hwidth.le
  have hfloor : (k : ℤ) = ⌊(value - minValue) / binWidth⌋ :=
    Int.toNat_of_nonneg (Int.floor_nonneg.2 hnonneg)
  have hlow : binBound minValue binWidth k ≤ value := by
    have h : ((k : ℤ) : ℚ) ≤ (value - minValue) / binWidth := hfloor ▸ Int.floor_le _
    rw [le_div_iff₀ hwidth, Int.cast_natCast] at h
    unfold binBound
    linarith
  have hhigh : value < binBound minValue binWidth (k + 1) := by
    have h : (value - minValue) / binWidth < ((k : ℤ) : ℚ) + 1 := hfloor ▸ Int.lt_floor_add_one _
    rw [div_lt_iff₀ hwidth, Int.cast_natCast] at h
    unfold binBound
    push_cast
    linarith
  by_cases hlt : k < count
  · have hindex : binIndex minValue binWidth count value = k := by
      rw [binIndex, ← hk]
      omega
    rw [hindex]
    exact ⟨hlt, hlow, Or.inl hhigh⟩
  · -- the largest value
    have hindex : binIndex minValue binWidth count value = count - 1 := by
      rw [binIndex, ← hk]
      omega
    have hlast : count - 1 + 1 = count := by omega
    have heq : value = binBound minValue binWidth count :=
      le_antisymm hmax ((binBound_mono hwidth (by omega)).trans hlow)
    rw [hindex]
    refine ⟨by omega, ?_, Or.inr ⟨hlast, by rw [hlast]; exact heq⟩⟩
    rw [heq]
    exact binBound_mono hwidth (by omega)

end

theorem getD_countBins {index : ℚ → ℕ} {count : ℕ} (values : List ℚ) {i : ℕ} (hi : i < count) :
    (countBins index count values).getD i 0 = values.countP fun value => index value = i := by
  have hfold : ∀ (values : List ℚ) (counts : List ℕ),
      (values.foldl (fun counts value => counts.modify (index value) (· + 1)) counts)[i]? =
        counts[i]?.map (· + values.countP fun value => index value = i) := by
    intro values
    induction values with
    | nil => simp
    | cons value values ih =>
      intro counts
      rw [List.foldl_cons, ih, List.getElem?_modify]
      by_cases h : index value = i
      · simp [h, Function.comp_def, Nat.add_assoc, Nat.add_comm]
      · simp [h]
  rw [countBins, List.getD_eq_getElem?_getD, hfold, List.getElem?_replicate, if_pos hi]
  simp

theorem sum_indicator {k count : ℕ} (h : k < count) :
    ((List.range count).map fun i => if k = i then 1 else 0).sum = 1 := by
  induction count with
  | zero => omega
  | succ count ih =>
    rw [List.range_succ, List.map_append, List.sum_append, List.map_singleton, List.sum_singleton]
    by_cases hk : k = count
    · have hnone : ∀ i ∈ List.range count, (if k = i then 1 else 0) = 0 := by
        intro i hi
        rw [List.mem_range] at hi
        exact if_neg (by omega)
      rw [if_pos hk, List.map_congr_left hnone, List.map_const', List.sum_replicate]
      rfl
    · rw [if_neg hk, ih (by omega)]

/-- Every value is counted once. -/
theorem sum_countP {index : ℚ → ℕ} {count : ℕ} {values : List ℚ}
    (h : ∀ value ∈ values, index value < count) :
    ((List.range count).map fun i => values.countP fun value => index value = i).sum =
      values.length := by
  induction values with
  | nil => simp
  | cons value values ih =>
    have hcons : ∀ i ∈ List.range count,
        ((value :: values).countP fun value => index value = i) =
          (values.countP fun value => index value = i) + if index value = i then 1 else 0 := by
      intro i _
      rw [List.countP_cons]
      simp
    rw [List.map_congr_left hcons, List.sum_map_add,
      ih fun a ha => h a (List.mem_cons_of_mem value ha),
      sum_indicator (h value List.mem_cons_self), List.length_cons]

/-! ### Labels -/

theorem toRat_printedBound_of_whole {value : ℚ} (h : (roundPlaces 2 value).coefficient % 100 = 0) :
    (ofInt ((roundPlaces 2 value).signed / 100)).toRat = (roundPlaces 2 value).toRat := by
  have hdvd : (100 : ℤ) ∣ (roundPlaces 2 value).signed := by
    have hnat : (100 : ℤ) ∣ (roundPlaces 2 value).coefficient := by
      exact_mod_cast Nat.dvd_of_mod_eq_zero h
    unfold signed
    split_ifs
    · exact hnat.neg_right
    · exact hnat
  rw [toRat_ofInt, Int.cast_div hdvd (by norm_num), toRat]
  have hexponent : (roundPlaces 2 value).exponent = -2 := rfl
  rw [hexponent]
  norm_num [zpow_neg]
  ring

/-- **A printed bound is off by the rounding only.** -/
theorem abs_printedBound_sub_le (value : ℚ) :
    |(printedBound value).toRat - value| ≤ labelError value := by
  have hplaces := abs_toRat_roundPlaces_sub_le 2 value
  have hhalf : (1 / 2 * 10 ^ (-(2 : ℕ) : ℤ) : ℚ) = 1 / 200 := by norm_num [zpow_neg]
  rw [hhalf] at hplaces
  unfold printedBound labelError
  by_cases h : (roundPlaces 2 value).coefficient % 100 = 0
  · simp only [h, if_true, toRat_printedBound_of_whole]
    have hmore : 0 ≤ (|value| + 1 / 200) / 200000 := by positivity
    linarith
  · simp only [h, if_false]
    have hdigits := abs_toRat_significant_sub_le (show 0 < 6 by omega) (roundPlaces 2 value)
    have hsize : |(roundPlaces 2 value).toRat| ≤ |value| + 1 / 200 := by
      have htriangle := abs_sub_abs_le_abs_sub (roundPlaces 2 value).toRat value
      linarith
    have hquotient : |(roundPlaces 2 value).toRat| / (2 * 10 ^ (6 - 1)) ≤
        (|value| + 1 / 200) / 200000 := by
      norm_num
      linarith
    have htriangle := abs_sub_le (significant 6 (roundPlaces 2 value)).toRat
      (roundPlaces 2 value).toRat value
    linarith

theorem generalValue?_formatBinBound (value : ℚ) :
    generalValue? (formatBinBound value) = some (printedBound value).toRat := by
  unfold formatBinBound printedBound
  simp only
  split_ifs
  · exact generalValue?_of_fixedValue? (fixedValue?_plainText _)
  · exact generalValue?_generalText 6 _

theorem not_mem_formatBinBound (value : ℚ) : '~' ∉ formatBinBound value := by
  have hdigit : Python.digit? '~' = none := by decide +kernel
  unfold formatBinBound
  simp only
  split_ifs
  · exact not_mem_of_fixedValue? (fixedValue?_plainText _) hdigit (by decide)
  · exact not_mem_generalText hdigit (by decide) (by decide) 6 _

/-- **What a label says.** -/
theorem boundsOf?_label (minValue binWidth : ℚ) (i : ℕ) :
    boundsOf? (label minValue binWidth i) =
      some ((printedBound (binBound minValue binWidth i)).toRat,
        (printedBound (binBound minValue binWidth (i + 1))).toRat) := by
  have hplain : ∀ c ∈ formatBinBound (binBound minValue binWidth i), decide (c ≠ '~') = true :=
    fun c hc => decide_eq_true fun heq => not_mem_formatBinBound _ (heq ▸ hc)
  have htake : (label minValue binWidth i).takeWhile (· ≠ '~') =
      formatBinBound (binBound minValue binWidth i) := by
    rw [label, List.takeWhile_append_of_pos hplain]
    simp
  have hdrop : (label minValue binWidth i).drop
      ((formatBinBound (binBound minValue binWidth i)).length + 1) =
        formatBinBound (binBound minValue binWidth (i + 1)) := by
    rw [label, List.append_cons]
    exact List.drop_left' (by simp)
  rw [boundsOf?, htake, hdrop, generalValue?_formatBinBound, generalValue?_formatBinBound,
    Option.bind_some, Option.map_some]

/-! ### The whole histogram -/

theorem labelError_mono {value value' : ℚ} (h : |value| ≤ |value'|) :
    labelError value ≤ labelError value' := by
  unfold labelError
  linarith

/-- The bounds lie between the smallest and the largest value. -/
theorem abs_binBound_le {minValue binWidth : ℚ} (hwidth : 0 < binWidth) {count i : ℕ}
    (hi : i ≤ count) : |binBound minValue binWidth i| ≤
      max |minValue| |binBound minValue binWidth count| := by
  have hlow : binBound minValue binWidth 0 ≤ binBound minValue binWidth i :=
    binBound_mono hwidth (Nat.zero_le i)
  have hhigh : binBound minValue binWidth i ≤ binBound minValue binWidth count :=
    binBound_mono hwidth hi
  have hfirst : binBound minValue binWidth 0 = minValue := by simp [binBound]
  rw [hfirst] at hlow
  rcases abs_cases (binBound minValue binWidth i) with ⟨habs, -⟩ | ⟨habs, -⟩
  · refine le_max_of_le_right ?_
    rw [habs]
    exact hhigh.trans (le_abs_self _)
  · refine le_max_of_le_left ?_
    rw [habs]
    exact (neg_le_neg hlow).trans (neg_le_abs minValue)

/-- Labels of wide bins differ. -/
theorem label_ne {minValue binWidth : ℚ} (hwidth : 0 < binWidth) {count i j : ℕ} (hij : i < j)
    (hj : j < count)
    (hwide : 2 * labelError (max |minValue| |binBound minValue binWidth count|) < binWidth) :
    label minValue binWidth i ≠ label minValue binWidth j := by
  intro heq
  have hbounds := congrArg boundsOf? heq
  rw [boundsOf?_label, boundsOf?_label, Option.some_inj, Prod.mk.injEq] at hbounds
  have herror : ∀ k ≤ count, |(printedBound (binBound minValue binWidth k)).toRat -
      binBound minValue binWidth k| ≤
        labelError (max |minValue| |binBound minValue binWidth count|) := fun k hk =>
    (abs_printedBound_sub_le _).trans
      (labelError_mono ((abs_binBound_le hwidth hk).trans (le_abs_self _)))
  have hi := herror i (by omega)
  have hj := herror j (by omega)
  rw [hbounds.1, abs_le] at hi
  rw [abs_le] at hj
  have hstep : binBound minValue binWidth (i + 1) ≤ binBound minValue binWidth j :=
    binBound_mono hwidth hij
  rw [binBound_succ] at hstep
  linarith [hi.1, hi.2, hj.1, hj.2]

@[simp] theorem length_bars (minValue binWidth : ℚ) (count : ℕ) (values : List ℚ) :
    (bars minValue binWidth count values).length = count := by simp [bars]

theorem getElem?_bars {minValue binWidth : ℚ} {count : ℕ} {values : List ℚ} {i : ℕ} {bar : Bar}
    (h : (bars minValue binWidth count values)[i]? = some bar) :
    i < count ∧ bar.category = label minValue binWidth i ∧
      bar.value = values.countP fun value => binIndex minValue binWidth count value = i := by
  have hi : i < count := by
    have hlt := (List.getElem?_eq_some_iff.1 h).1
    rwa [length_bars] at hlt
  rw [bars, List.getElem?_map, List.getElem?_range hi, Option.map_some, Option.some_inj] at h
  subst h
  exact ⟨hi, rfl, getD_countBins values hi⟩

/-- The bins of values between two bounds. -/
theorem faithful_bars {values : List ℚ} {minValue maxValue : ℚ} (hlt : minValue < maxValue)
    (hvalues : ∀ value ∈ values, minValue ≤ value ∧ value ≤ maxValue) {count : ℕ}
    (hcount : 0 < count) :
    let binWidth := (maxValue - minValue) / count
    Faithful values minValue maxValue binWidth (bars minValue binWidth count values) := by
  intro binWidth
  have hpos : (0 : ℚ) < count := by exact_mod_cast hcount
  have hwidth : 0 < binWidth := div_pos (sub_pos.2 hlt) hpos
  have hlast : binBound minValue binWidth count = maxValue := by
    rw [binBound, mul_div_cancel₀ _ hpos.ne', add_sub_cancel]
  have hbin : ∀ value, minValue ≤ value → value ≤ maxValue →
      binIndex minValue binWidth count value < count ∧
        InBin minValue binWidth count (binIndex minValue binWidth count value) value :=
    fun value hmin hmax => inBin_binIndex hwidth hcount hmin (hlast ▸ hmax)
  have hindex : ∀ value ∈ values, ∀ i < count,
      (binIndex minValue binWidth count value = i ↔ InBin minValue binWidth count i value) := by
    intro value hvalue i hi
    obtain ⟨hlt, hin⟩ := hbin value (hvalues value hvalue).1 (hvalues value hvalue).2
    constructor
    · rintro rfl
      exact hin
    · exact inBin_unique hwidth hlt hi hin
  refine ⟨?_, ?_, ?_, hwidth, ?_, ?_, ?_, ?_, ?_⟩
  · have hsum : ((bars minValue binWidth count values).map Bar.value) =
        (List.range count).map fun i =>
          values.countP fun value => binIndex minValue binWidth count value = i := by
      rw [bars, List.map_map]
      exact List.map_congr_left fun i hi => getD_countBins values (List.mem_range.1 hi)
    rw [hsum]
    exact sum_countP fun value hvalue => (hbin value (hvalues value hvalue).1 (hvalues value hvalue).2).1
  · intro value hvalue
    obtain ⟨hlt, hin⟩ := hbin value (hvalues value hvalue).1 (hvalues value hvalue).2
    rw [length_bars]
    exact ⟨_, ⟨hlt, hin⟩, fun i hi => inBin_unique hwidth hi.1 hlt hi.2 hin⟩
  · intro i bar hbar
    obtain ⟨hi, -, hvalue⟩ := getElem?_bars hbar
    rw [hvalue, length_bars]
    refine List.countP_congr fun value hmem => ?_
    rw [decide_eq_true_eq, decide_eq_true_eq]
    exact hindex value hmem i hi
  · simp [binBound]
  · rw [length_bars]
    exact hlast
  · intro value hmin hmax
    rw [length_bars]
    exact ⟨_, hbin value hmin hmax⟩
  · intro i bar hbar
    obtain ⟨-, hcategory, -⟩ := getElem?_bars hbar
    rw [hcategory]
    exact ⟨_, _, boundsOf?_label minValue binWidth i, abs_printedBound_sub_le _,
      abs_printedBound_sub_le _⟩
  · intro hwide
    rw [bars, List.map_map]
    refine List.Nodup.map_on ?_ List.nodup_range
    intro i hi j hj heq
    rw [List.mem_range] at hi hj
    rw [← hlast] at hwide
    rcases lt_trichotomy i j with h | h | h
    · exact absurd heq (label_ne hwidth h hj hwide)
    · exact h
    · exact absurd heq.symm (label_ne hwidth h hi hwide)

/-- **The histogram of a column is faithful up to the rounding of its labels.** -/
theorem buildHistogram_faithful (labelFor : String → String) (rows : List Row)
    (numericKey : String) (spec : VisualizationSpec)
    (h : buildHistogram labelFor rows numericKey = some spec) :
    ∃ minValue maxValue binWidth, (valuesOf rows numericKey).min? = some minValue ∧
      (valuesOf rows numericKey).max? = some maxValue ∧
      Faithful (valuesOf rows numericKey) minValue maxValue binWidth spec.data := by
  unfold buildHistogram at h
  simp only at h
  split_ifs at h with hrows
  split at h
  · next minValue maxValue hmin hmax =>
    split_ifs at h with hsame
    have hleast := (List.min?_eq_some_iff.1 hmin).2
    have hmost := (List.max?_eq_some_iff.1 hmax).2
    have hlt : minValue < maxValue :=
      lt_of_le_of_ne (hmost minValue (List.min?_eq_some_iff.1 hmin).1) hsame
    have hcount : 0 < binCount (valuesOf rows numericKey).length := by
      unfold binCount minHistogramBins maxHistogramBins
      omega
    obtain rfl := Option.some.inj h
    exact ⟨minValue, maxValue, _, hmin, hmax,
      faithful_bars hlt (fun value hvalue => ⟨hleast value hvalue, hmost value hvalue⟩) hcount⟩
  · cases h


def priceRows (prices : List ℚ) : List Row :=
  prices.map fun price => Dict.ofEntries [("listPrice", some price)]

/-- The rows of `test_histogram_bins_cover_all_values_and_use_field_label`. -/
theorem buildHistogram_faithful_prices :
    let rows := priceRows [10, 20, 30, 40, 50, 60, 70, 80, 90, 100, 110, 120]
    ∃ spec minValue maxValue binWidth,
      buildHistogram (fun key => key) rows "listPrice" = some spec ∧
        Faithful (valuesOf rows "listPrice") minValue maxValue binWidth spec.data := by
  intro rows
  have hsome : (buildHistogram (fun key => key) rows "listPrice").isSome = true := by decide +kernel
  obtain ⟨spec, hspec⟩ := Option.isSome_iff_exists.1 hsome
  obtain ⟨minValue, maxValue, binWidth, -, -, hfaithful⟩ :=
    buildHistogram_faithful (fun key => key) rows "listPrice" spec hspec
  exact ⟨spec, minValue, maxValue, binWidth, hspec, hfaithful⟩

/-- Prices that differ in the third place: all labels are the same, and only the smallest price
lies between the bounds that they name. -/
theorem not_within_narrow :
    ∃ spec, buildHistogram (fun key => key) (priceRows [0, 1/1000, 2/1000, 3/1000, 4/1000])
        "listPrice" = some spec ∧ ¬ (spec.data.map Bar.category).Nodup ∧
      ∀ bar ∈ spec.data, ¬ Within bar.category (1/1000) := by
  have hlabels : (buildHistogram (fun key => key)
      (priceRows [0, 1/1000, 2/1000, 3/1000, 4/1000]) "listPrice").map (fun spec =>
        spec.data.map Bar.category) = some (List.replicate 4 "0~0".toList) := by decide +kernel
  obtain ⟨spec, hspec, hcategories⟩ := Option.map_eq_some_iff.1 hlabels
  refine ⟨spec, hspec, ?_, ?_⟩
  · rw [hcategories]
    decide
  · rintro bar hbar ⟨a, b, hbounds, -, hle⟩
    have hcategory := List.mem_map_of_mem (f := Bar.category) hbar
    rw [hcategories] at hcategory
    have hzero : boundsOf? "0~0".toList = some (0, 0) := by decide +kernel
    rw [List.eq_of_mem_replicate hcategory, hzero, Option.some_inj, Prod.mk.injEq] at hbounds
    rw [← hbounds.2] at hle
    norm_num at hle

end Histogram
