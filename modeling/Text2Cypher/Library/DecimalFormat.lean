import Text2Cypher.Library.DecimalText

/-!
# Decimal numbers in fixed notation

`format(value, "f")` writes a number without an exponent.  What it writes can be read back: the
text determines the value.

* `Python.IsDigits`: a text of decimal digits, with their values;
* `fixedValue?`: the number that a text in fixed notation denotes;
* `fixedValue?_plainText`: the text of a number denotes this number;
* `plainText_congr`: numbers with one value and one sign have one text;
* `exists_parts_of_fixedValue?`: what has a value is a sign, digits, and maybe a point with more.
-/

namespace Python

/-- A text of digits, with their values. -/
def IsDigits (s : Text) (l : List ℕ) : Prop := List.Forall₂ (fun c d => digit? c = some d) s l

/-- `str.rstrip` of one character. -/
def rstrip (c : Char) (s : Text) : Text := (s.reverse.dropWhile (· = c)).reverse

theorem digit?_digitChar {d : ℕ} (h : d < 10) : digit? (Nat.digitChar d) = some d := by
  revert d
  decide

theorem rstrip_concat (c : Char) (s : Text) (last : Char) :
    rstrip c (s ++ [last]) = if last = c then rstrip c s else s ++ [last] := by
  unfold rstrip
  rw [List.reverse_append, List.reverse_singleton, List.singleton_append]
  by_cases hlast : last = c
  · rw [if_pos hlast, List.dropWhile_cons_of_pos (by simpa using hlast)]
  · rw [if_neg hlast, List.dropWhile_cons_of_neg (by simpa using hlast), List.reverse_cons,
      List.reverse_reverse]

/-- What is stripped is a number of these characters. -/
theorem exists_rstrip (c : Char) (s : Text) :
    ∃ k, s = rstrip c s ++ List.replicate k c ∧
      ∀ last, (rstrip c s).getLast? = some last → last ≠ c := by
  induction s using List.reverseRecOn with
  | nil => exact ⟨0, rfl, by simp [rstrip]⟩
  | append_singleton s last ih =>
    rw [rstrip_concat]
    split_ifs with hlast
    · obtain ⟨k, hk, hne⟩ := ih
      refine ⟨k + 1, ?_, hne⟩
      rw [List.replicate_succ', ← List.append_assoc, ← hk, hlast]
    · exact ⟨0, by simp, by simpa using hlast⟩

/-- A character that is there stops the stripping of another one. -/
theorem rstrip_append_cons {c d : Char} (h : d ≠ c) (s t : Text) :
    rstrip c (s ++ d :: t) = s ++ d :: rstrip c t := by
  induction t using List.reverseRecOn with
  | nil => rw [rstrip_concat, if_neg h]; rfl
  | append_singleton t last ih =>
    rw [← List.cons_append, ← List.append_assoc, rstrip_concat, rstrip_concat, ih]
    split_ifs
    · rfl
    · rw [List.append_assoc, List.cons_append]

theorem IsDigits.ne_point {s : Text} {l : List ℕ} (h : IsDigits s l) {c : Char} (hc : c ∈ s) :
    c ≠ '.' := by
  induction h with
  | nil => cases hc
  | cons hd _ ih =>
    rcases List.mem_cons.1 hc with rfl | hc
    · rintro rfl
      cases hd
    · exact ih hc

theorem IsDigits.unique {s : Text} {l l' : List ℕ} (h : IsDigits s l) (h' : IsDigits s l') :
    l = l' := by
  induction h generalizing l' with
  | nil =>
    cases h'
    rfl
  | cons hd _ ih =>
    cases h' with
    | cons hd' h' => rw [Option.some.inj (hd.symm.trans hd'), ih h']

theorem IsDigits.replicate (k : ℕ) : IsDigits (List.replicate k '0') (List.replicate k 0) := by
  induction k with
  | zero => exact .nil
  | succ k ih => exact .cons rfl ih

theorem IsDigits.ne_nil {s : Text} {l : List ℕ} (h : IsDigits s l) (hs : s ≠ []) : l ≠ [] := by
  rintro rfl
  cases h
  exact hs rfl

/-- A point behind which there are digits is not stripped. -/
theorem rstrip_append_digits {s : Text} {l : List ℕ} (h : IsDigits s l) (hs : s ≠ []) (t : Text) :
    rstrip '.' (t ++ s) = t ++ s := by
  have hlast := List.dropLast_append_getLast hs
  rw [← hlast, ← List.append_assoc, rstrip_concat, if_neg (h.ne_point (List.getLast_mem hs))]

end Python

namespace Decimal

open Python

/-! ### Digits -/

theorem ofDigits_concat (l : List ℕ) (d : ℕ) : ofDigits (l ++ [d]) = 10 * ofDigits l + d := by
  rw [ofDigits, List.foldl_append]
  rfl

theorem ofDigits_append_replicate (l : List ℕ) (k : ℕ) :
    ofDigits (l ++ List.replicate k 0) = ofDigits l * 10 ^ k := by
  induction k with
  | zero => simp
  | succ k ih =>
    rw [List.replicate_succ', ← List.append_assoc, ofDigits_concat, ih, pow_succ]
    ring

theorem ofDigits_replicate_append (l : List ℕ) (k : ℕ) :
    ofDigits (List.replicate k 0 ++ l) = ofDigits l := by
  induction l using List.reverseRecOn with
  | nil =>
    have h := ofDigits_append_replicate [] k
    rw [List.nil_append, show ofDigits [] = 0 from rfl, zero_mul] at h
    rw [List.append_nil, h]
    rfl
  | append_singleton l d ih => rw [← List.append_assoc, ofDigits_concat, ofDigits_concat, ih]

/-- The digits of a number. -/
theorem exists_isDigits_toDigits (n : ℕ) :
    ∃ l, IsDigits (Nat.toDigits 10 n) l ∧ ofDigits l = n := by
  induction n using Nat.strongRecOn with
  | _ n ih =>
    by_cases hn : n < 10
    · refine ⟨[n], ?_, by simp [ofDigits]⟩
      rw [Nat.toDigits_of_lt_base hn]
      exact .cons (digit?_digitChar hn) .nil
    · obtain ⟨l, hl, hvalue⟩ := ih (n / 10) (by omega)
      refine ⟨l ++ [n % 10], ?_, ?_⟩
      · rw [Nat.toDigits_of_base_le (by omega) (by omega)]
        exact List.rel_append hl (.cons (digit?_digitChar (Nat.mod_lt n (by omega))) .nil)
      · rw [ofDigits_concat, hvalue]
        omega

theorem spanDigits_append {s : Text} {l : List ℕ} (h : IsDigits s l) (rest : Text) :
    spanDigits (s ++ rest) = (l ++ (spanDigits rest).1, (spanDigits rest).2) := by
  induction h with
  | nil => rfl
  | cons hc _ ih =>
    rw [List.cons_append, spanDigits, hc]
    simp only [ih, List.cons_append]

/-! ### Fixed notation -/

/-- The sign of a number, as it is printed. -/
def signText (negative : Bool) : Text := if negative then ['-'] else []

/-- `format(value, "f")`, for a finite number. -/
def fixedText (a : Decimal) : Text :=
  signText a.negative ++
    if 0 ≤ a.exponent then
      Nat.toDigits 10 (if a.coefficient = 0 then 0 else a.coefficient * 10 ^ a.exponent.toNat)
    else
      let places := (-a.exponent).toNat
      let digits := Nat.toDigits 10 a.coefficient
      let padded := List.replicate (places + 1 - digits.length) '0' ++ digits
      padded.take (padded.length - places) ++ '.' :: padded.drop (padded.length - places)

/-- The same without zeros behind the last digit that counts. -/
def plainText (a : Decimal) : Text :=
  if '.' ∈ fixedText a then rstrip '.' (rstrip '0' (fixedText a)) else fixedText a

example : plainText ⟨true, 637300, -2⟩ = "-6373".toList := by decide +kernel

/-- The number that digits in front of and behind a point denote. -/
def valueOf (negative : Bool) (whole fraction : List ℕ) : ℚ :=
  toRat ⟨negative, ofDigits (whole ++ fraction), -fraction.length⟩

/-- The number that a text in fixed notation denotes: a sign or none, digits, and maybe a point with
more digits. -/
def fixedValue? (s : Text) : Option ℚ :=
  let (negative, s) := spanSign s
  match spanDigits s with
  | ([], _) => none
  | (whole, []) => some (valueOf negative whole [])
  | (whole, c :: rest) =>
      match spanDigits rest with
      | (d :: fraction, []) => if c = '.' then some (valueOf negative whole (d :: fraction)) else none
      | _ => none

/-- A sign that a number can have. -/
inductive IsSign : Text → Bool → Prop
  | plus : IsSign ['+'] false
  | minus : IsSign ['-'] true
  | none : IsSign [] false

theorem isSign_signText (negative : Bool) : IsSign (signText negative) negative := by
  cases negative
  · exact .none
  · exact .minus

theorem spanSign_append {sign : Text} {negative : Bool} (h : IsSign sign negative) {s : Text}
    {l : List ℕ} (hs : IsDigits s l) (hl : l ≠ []) (rest : Text) :
    spanSign (sign ++ (s ++ rest)) = (negative, s ++ rest) := by
  cases h with
  | plus => rfl
  | minus => rfl
  | none =>
    cases hs with
    | nil => exact absurd rfl hl
    | @cons c d s l hc _ =>
      unfold spanSign
      split
      · rename_i heq
        obtain ⟨rfl, -⟩ := List.cons.inj heq
        cases hc
      · rename_i heq
        obtain ⟨rfl, -⟩ := List.cons.inj heq
        cases hc
      · rfl

theorem fixedValue?_whole {sign s : Text} {negative : Bool} {l : List ℕ} (h : IsSign sign negative)
    (hs : IsDigits s l) (hl : l ≠ []) :
    fixedValue? (sign ++ s) = some (valueOf negative l []) := by
  have hspan := spanDigits_append hs []
  have hsign := spanSign_append h hs hl []
  simp only [List.append_nil, spanDigits] at hspan hsign
  cases l with
  | nil => exact absurd rfl hl
  | cons d l => simp only [fixedValue?, hsign, hspan]

theorem fixedValue?_point {sign s t : Text} {negative : Bool} {l m : List ℕ}
    (h : IsSign sign negative) (hs : IsDigits s l) (hl : l ≠ []) (ht : IsDigits t m) (hm : m ≠ []) :
    fixedValue? (sign ++ (s ++ '.' :: t)) = some (valueOf negative l m) := by
  have hspan := spanDigits_append hs ('.' :: t)
  have hspan' := spanDigits_append ht []
  have hsign := spanSign_append h hs hl ('.' :: t)
  have hpoint : spanDigits ('.' :: t) = ([], '.' :: t) := rfl
  simp only [List.append_nil, spanDigits] at hspan'
  rw [hpoint] at hspan
  simp only [List.append_nil] at hspan
  cases l with
  | nil => exact absurd rfl hl
  | cons d l =>
    cases m with
    | nil => exact absurd rfl hm
    | cons e m => simp only [fixedValue?, hsign, hspan, hspan', if_true]

/-- Zeros behind the last digit do not count. -/
theorem valueOf_append_replicate (negative : Bool) (l m : List ℕ) (k : ℕ) :
    valueOf negative l (m ++ List.replicate k 0) = valueOf negative l m := by
  have hten : (10 : ℚ) ^ k * 10 ^ (-((m.length : ℤ) + k)) = 10 ^ (-(m.length : ℤ)) := by
    rw [← zpow_natCast, ← zpow_add₀ (by norm_num : (10 : ℚ) ≠ 0)]
    congr 1
    omega
  have hsigned : ∀ n e e', signed ⟨negative, n * 10 ^ k, e⟩ = signed ⟨negative, n, e'⟩ * 10 ^ k :=
    fun n e e' => by
      unfold signed
      cases negative <;> simp
  unfold valueOf toRat
  rw [← List.append_assoc, ofDigits_append_replicate, hsigned _ _ (-(m.length : ℤ)),
    List.length_append, List.length_replicate]
  push_cast
  rw [mul_assoc, hten]

theorem ne_point_of_mem_signText {negative : Bool} {c : Char} (h : c ∈ signText negative) :
    c ≠ '.' := by
  cases negative
  · cases h
  · obtain rfl := List.mem_singleton.1 h
    decide

/-- The text of a number without a fraction. -/
theorem plainText_whole {a : Decimal} (h : 0 ≤ a.exponent) :
    plainText a = signText a.negative ++
      Nat.toDigits 10 (if a.coefficient = 0 then 0 else a.coefficient * 10 ^ a.exponent.toNat) := by
  have htext : fixedText a = signText a.negative ++ Nat.toDigits 10
      (if a.coefficient = 0 then 0 else a.coefficient * 10 ^ a.exponent.toNat) := by
    rw [fixedText, if_pos h]
  rw [plainText, htext, if_neg]
  intro hmem
  obtain ⟨l, hl, -⟩ := exists_isDigits_toDigits
    (if a.coefficient = 0 then 0 else a.coefficient * 10 ^ a.exponent.toNat)
  rcases List.mem_append.1 hmem with hmem | hmem
  · exact ne_point_of_mem_signText hmem rfl
  · exact hl.ne_point hmem rfl

theorem toDigits_mul_ten {c : ℕ} (h : c ≠ 0) :
    Nat.toDigits 10 (c * 10) = Nat.toDigits 10 c ++ ['0'] := by
  rw [Nat.toDigits_of_base_le (by omega) (by omega), Nat.mul_div_cancel c (by omega),
    Nat.mul_mod_left]
  rfl

/-- The digits of a number, with as many zeros in front as its places need. -/
def paddedDigits (places c : ℕ) : Text :=
  List.replicate (places + 1 - (Nat.toDigits 10 c).length) '0' ++ Nat.toDigits 10 c

theorem length_toDigits_pos (c : ℕ) : 0 < (Nat.toDigits 10 c).length :=
  List.length_pos_iff.2 Nat.toDigits_ne_nil

theorem paddedDigits_zero (c : ℕ) : paddedDigits 0 c = Nat.toDigits 10 c := by
  have hlength := length_toDigits_pos c
  rw [paddedDigits, Nat.sub_eq_zero_of_le (by omega), List.replicate_zero, List.nil_append]

theorem paddedDigits_mul_ten (places c : ℕ) :
    paddedDigits (places + 1) (c * 10) = paddedDigits places c ++ ['0'] := by
  by_cases hc : c = 0
  · have hzero : Nat.toDigits 10 0 = ['0'] := rfl
    rw [hc, zero_mul, paddedDigits, paddedDigits, hzero, List.length_singleton,
      Nat.add_sub_cancel, Nat.add_sub_cancel, List.replicate_succ']
  · rw [paddedDigits, paddedDigits, toDigits_mul_ten hc, List.length_append, List.length_singleton,
      Nat.add_sub_add_right, List.append_assoc]

/-- A point in front of the last digits. -/
def splitPlaces (places : ℕ) (s : Text) : Text :=
  s.take (s.length - places) ++ '.' :: s.drop (s.length - places)

theorem mem_splitPlaces (places : ℕ) (s : Text) : '.' ∈ splitPlaces places s :=
  List.mem_append_right _ List.mem_cons_self

theorem splitPlaces_zero (s : Text) : splitPlaces 0 s = s ++ ['.'] := by
  rw [splitPlaces, Nat.sub_zero, List.take_length, List.drop_length]

theorem splitPlaces_concat (places : ℕ) (s : Text) (c : Char) :
    splitPlaces (places + 1) (s ++ [c]) = splitPlaces places s ++ [c] := by
  have hlength : (s ++ [c]).length - (places + 1) = s.length - places := by
    rw [List.length_append, List.length_singleton, Nat.add_sub_add_right]
  rw [splitPlaces, splitPlaces, hlength, List.take_append_of_le_length (Nat.sub_le _ _),
    List.drop_append_of_le_length (Nat.sub_le _ _), List.append_assoc, List.cons_append]

theorem fixedText_point {a : Decimal} (h : ¬ 0 ≤ a.exponent) :
    fixedText a = signText a.negative ++
      splitPlaces (-a.exponent).toNat (paddedDigits (-a.exponent).toNat a.coefficient) := by
  rw [fixedText, if_neg h]
  rfl

/-- The digits of a number with a fraction, in front of the point and behind it. -/
theorem exists_fixedText {a : Decimal} (h : ¬ 0 ≤ a.exponent) :
    ∃ whole fraction l m, IsDigits whole l ∧ IsDigits fraction m ∧ whole ≠ [] ∧
      ofDigits (l ++ m) = a.coefficient ∧ (m.length : ℤ) = -a.exponent ∧
      fixedText a = signText a.negative ++ (whole ++ '.' :: fraction) := by
  obtain ⟨digits, hdigits, hvalue⟩ := exists_isDigits_toDigits a.coefficient
  let places := (-a.exponent).toNat
  let padded := paddedDigits places a.coefficient
  let values := List.replicate (places + 1 - (Nat.toDigits 10 a.coefficient).length) 0 ++ digits
  have hpadded : IsDigits padded values := List.rel_append (IsDigits.replicate _) hdigits
  have hlength : places + 1 ≤ padded.length := by
    simp only [padded, paddedDigits, List.length_append, List.length_replicate]
    omega
  refine ⟨padded.take (padded.length - places), padded.drop (padded.length - places),
    values.take (padded.length - places), values.drop (padded.length - places),
    List.forall₂_take _ hpadded, List.forall₂_drop _ hpadded, ?_, ?_, ?_, fixedText_point h⟩
  · intro hnil
    have htake := congrArg List.length hnil
    rw [List.length_take, List.length_nil] at htake
    omega
  · rw [List.take_append_drop, ofDigits_replicate_append, hvalue]
  · rw [List.length_drop, ← hpadded.length_eq]
    omega

/-- **Reading back**: the text of a number denotes the number. -/
theorem fixedValue?_plainText (a : Decimal) : fixedValue? (plainText a) = some a.toRat := by
  by_cases h : 0 ≤ a.exponent
  · rw [plainText_whole h]
    obtain ⟨l, hl, hvalue⟩ := exists_isDigits_toDigits
      (if a.coefficient = 0 then 0 else a.coefficient * 10 ^ a.exponent.toNat)
    rw [fixedValue?_whole (isSign_signText _) hl (hl.ne_nil Nat.toDigits_ne_nil), valueOf,
      List.append_nil, hvalue]
    refine congrArg some ?_
    unfold toRat signed
    by_cases hzero : a.coefficient = 0
    · simp [hzero]
    · have hten : (10 : ℚ) ^ a.exponent.toNat = 10 ^ a.exponent := by
        rw [← zpow_natCast, Int.toNat_of_nonneg h]
      simp only [if_neg hzero, List.length_nil, Nat.cast_zero, neg_zero, zpow_zero, mul_one]
      split_ifs <;> push_cast <;> rw [hten]
      ring
  · obtain ⟨whole, fraction, l, m, hwhole, hfraction, hne, hvalue, hplaces, htext⟩ :=
      exists_fixedText h
    have hpoint : '.' ∈ fixedText a := by
      rw [htext]
      exact List.mem_append_right _ (List.mem_append_right _ List.mem_cons_self)
    have hstrip : rstrip '0' (fixedText a) =
        signText a.negative ++ (whole ++ '.' :: rstrip '0' fraction) := by
      rw [htext, ← List.append_assoc, rstrip_append_cons (by decide), List.append_assoc]
    obtain ⟨k, hk, hlast⟩ := exists_rstrip '0' fraction
    -- the digits that are left behind the point
    obtain ⟨m', hm', hm⟩ : ∃ m', IsDigits (rstrip '0' fraction) m' ∧
        m = m' ++ List.replicate k 0 := by
      let n := (rstrip '0' fraction).length
      have htake := List.forall₂_take n hfraction
      have hdrop := List.forall₂_drop n hfraction
      rw [hk] at htake hdrop
      rw [List.take_left' rfl] at htake
      rw [List.drop_left' rfl] at hdrop
      refine ⟨m.take n, htake, ?_⟩
      rw [(IsDigits.replicate k).unique hdrop, List.take_append_drop]
    have hvalue' : valueOf a.negative l m' = a.toRat := by
      rw [← valueOf_append_replicate _ _ _ k, ← hm, valueOf, hvalue, hplaces, neg_neg]
    have hl := hwhole.ne_nil hne
    rw [plainText, if_pos hpoint, hstrip]
    by_cases hnil : rstrip '0' fraction = []
    · -- nothing is left, and the point goes too
      have hnil' : m' = [] := by
        rw [hnil] at hm'
        cases hm'
        rfl
      have hpointless : rstrip '.' (signText a.negative ++ (whole ++ ['.'])) =
          signText a.negative ++ whole := by
        rw [← List.append_assoc, rstrip_concat, if_pos rfl, rstrip_append_digits hwhole hne]
      rw [hnil, hpointless, fixedValue?_whole (isSign_signText _) hwhole hl, ← hvalue', hnil']
    · have hkeep : rstrip '.' (signText a.negative ++ (whole ++ '.' :: rstrip '0' fraction)) =
          signText a.negative ++ (whole ++ '.' :: rstrip '0' fraction) := by
        have happ := rstrip_append_digits hm' hnil (signText a.negative ++ (whole ++ ['.']))
        simpa only [List.append_assoc, List.singleton_append] using happ
      rw [hkeep, fixedValue?_point (isSign_signText _) hwhole hl hm' (hm'.ne_nil hnil), hvalue']

/-! ### One text for each value -/

/-- Another zero behind the last digit is not printed. -/
theorem plainText_mul_ten (negative : Bool) (c : ℕ) (e : ℤ) :
    plainText ⟨negative, c * 10, e⟩ = plainText ⟨negative, c, e + 1⟩ := by
  by_cases he : 0 ≤ e
  · obtain ⟨k, rfl⟩ := Int.eq_ofNat_of_zero_le he
    have hk : ((k : ℤ) + 1).toNat = k + 1 := by omega
    rw [plainText_whole (a := ⟨negative, c * 10, k⟩) he,
      plainText_whole (a := ⟨negative, c, k + 1⟩) (show 0 ≤ (k : ℤ) + 1 by omega)]
    simp only [hk, Int.toNat_natCast, Nat.mul_eq_zero, OfNat.ofNat_ne_zero, or_false, pow_succ]
    rw [mul_assoc, mul_comm 10]
  · obtain ⟨places, hplaces⟩ : ∃ places : ℕ, e = -(places + 1) :=
      ⟨(-e - 1).toNat, by omega⟩
    have hcount : (-e).toNat = places + 1 := by omega
    -- the text has one more zero than without the factor
    have htext : fixedText ⟨negative, c * 10, e⟩ =
        signText negative ++ splitPlaces places (paddedDigits places c) ++ ['0'] := by
      rw [fixedText_point (a := ⟨negative, c * 10, e⟩) he]
      simp only [hcount, paddedDigits_mul_ten, splitPlaces_concat, List.append_assoc]
    have hpoint : '.' ∈ fixedText ⟨negative, c * 10, e⟩ := by
      rw [htext, List.append_assoc]
      exact List.mem_append_right _ (List.mem_append_left _ (mem_splitPlaces _ _))
    rw [plainText, if_pos hpoint, htext, rstrip_concat, if_pos rfl]
    cases places with
    | zero =>
      obtain ⟨l, hl, -⟩ := exists_isDigits_toDigits c
      have hexponent : e + 1 = 0 := by omega
      have hkeep : rstrip '0' (signText negative ++ Nat.toDigits 10 c ++ ['.']) =
          signText negative ++ Nat.toDigits 10 c ++ ['.'] := by
        rw [rstrip_concat, if_neg (by decide)]
      have hvalue : (if c = 0 then 0 else c * 10 ^ (0 : ℤ).toNat) = c := by
        split_ifs with hc
        · exact hc.symm
        · simp
      rw [paddedDigits_zero, splitPlaces_zero, ← List.append_assoc, hkeep, rstrip_concat, if_pos rfl,
        rstrip_append_digits hl Nat.toDigits_ne_nil, hexponent,
        plainText_whole (a := ⟨negative, c, 0⟩) le_rfl, hvalue]
    | succ places =>
      have hneg : ¬ 0 ≤ e + 1 := by omega
      have hcount' : (-(e + 1)).toNat = places + 1 := by omega
      have htext' := fixedText_point (a := ⟨negative, c, e + 1⟩) hneg
      simp only [hcount'] at htext'
      rw [← htext', plainText, if_pos]
      rw [htext']
      exact List.mem_append_right _ (mem_splitPlaces _ _)

theorem plainText_mul_pow (negative : Bool) (c k : ℕ) (e : ℤ) :
    plainText ⟨negative, c * 10 ^ k, e⟩ = plainText ⟨negative, c, e + k⟩ := by
  induction k generalizing e with
  | zero => rw [pow_zero, mul_one, Nat.cast_zero, add_zero]
  | succ k ih =>
    rw [pow_succ, ← mul_assoc, plainText_mul_ten, ih]
    congr 2
    push_cast
    ring

/-- **One text for each value**: the text depends on the value and its sign only. -/
theorem plainText_congr {a b : Decimal} (hvalue : a.toRat = b.toRat)
    (hsign : a.negative = b.negative) : plainText a = plainText b := by
  have hordered : ∀ {a b : Decimal}, a.toRat = b.toRat → a.negative = b.negative →
      a.exponent ≤ b.exponent → plainText a = plainText b := by
    intro a b hvalue hsign hle
    have hcoefficient : a.coefficient = b.coefficient * 10 ^ (b.exponent - a.exponent).toNat := by
      have habs := congrArg abs hvalue
      rw [abs_toRat, abs_toRat, ← zpow_toNat hle, ← mul_assoc] at habs
      exact_mod_cast mul_right_cancel₀ (ten_zpow_pos a.exponent).ne' habs
    have hexponent : a.exponent + (b.exponent - a.exponent).toNat = b.exponent := by omega
    calc plainText a = plainText ⟨b.negative, b.coefficient * 10 ^ (b.exponent - a.exponent).toNat,
          a.exponent⟩ := by rw [← hsign, ← hcoefficient]
      _ = plainText b := by rw [plainText_mul_pow, hexponent]
  rcases le_total a.exponent b.exponent with hle | hle
  · exact hordered hvalue hsign hle
  · exact (hordered hvalue.symm hsign.symm hle).symm

/-! ### The shape of a text -/

/-- The parts of a number in fixed notation. -/
theorem exists_parts_of_fixedValue? {s : Text} {q : ℚ} (h : fixedValue? s = some q) :
    ∃ sign negative whole l, IsSign sign negative ∧ IsDigits whole l ∧ l ≠ [] ∧
      (s = sign ++ whole ∧ q = valueOf negative l [] ∨
        ∃ fraction m, IsDigits fraction m ∧ m ≠ [] ∧ s = sign ++ (whole ++ '.' :: fraction) ∧
          q = valueOf negative l m) := by
  have hdigits : ∀ s : Text, ∃ front, s = front ++ (spanDigits s).2 ∧
      IsDigits front (spanDigits s).1 := by
    intro s
    induction s with
    | nil => exact ⟨[], rfl, .nil⟩
    | cons c s ih =>
      rw [spanDigits]
      cases hdigit : digit? c with
      | none => exact ⟨[], rfl, .nil⟩
      | some d =>
        obtain ⟨front, heq, hfront⟩ := ih
        exact ⟨c :: front, congrArg (c :: ·) heq, .cons hdigit hfront⟩
  have hsign : ∃ sign, s = sign ++ (spanSign s).2 ∧ IsSign sign (spanSign s).1 := by
    unfold spanSign
    split
    · exact ⟨['-'], rfl, .minus⟩
    · exact ⟨['+'], rfl, .plus⟩
    · exact ⟨[], rfl, .none⟩
  obtain ⟨sign, hs, hsign⟩ := hsign
  obtain ⟨whole, hw, hwhole⟩ := hdigits (spanSign s).2
  unfold fixedValue? at h
  simp only at h
  split at h
  · cases h
  · rename_i l hne hspan
    rw [hspan] at hw hwhole
    rw [List.append_nil] at hw
    exact ⟨sign, _, whole, l, hsign, hwhole, hne, Or.inl ⟨hw ▸ hs, (Option.some.inj h).symm⟩⟩
  · rename_i l c rest hne hspan
    rw [hspan] at hw hwhole
    obtain ⟨fraction, hf, hfraction⟩ := hdigits rest
    split at h
    · rename_i d m hspan'
      rw [hspan'] at hf hfraction
      rw [List.append_nil] at hf
      split_ifs at h with hpoint
      refine ⟨sign, _, whole, l, hsign, hwhole, hne, Or.inr ⟨fraction, d :: m, hfraction,
        List.cons_ne_nil _ _, ?_, (Option.some.inj h).symm⟩⟩
      rw [hf, hpoint] at hw
      rw [← hw]
      exact hs
    · cases h

end Decimal
