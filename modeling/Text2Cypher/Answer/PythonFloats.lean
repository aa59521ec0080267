import Text2Cypher.Answer.Rendering
import Text2Cypher.Library.Binary64

/-!
# Floats as texts

What `float` reads, and what the renderer prints of a float, for floats that are doubles.

* `readExact_toString`, `readExact_reprText`: integers and doubles are read back as they are printed;
* `binaryFloats`: doubles as the floats of the renderer.
-/

namespace Answer

open Binary64 Composition Decimal Python

/-! ### Reading -/

/-- Every underscore is between two digits.  The flag says whether a digit comes before. -/
def underscoresFit : Bool → Text → Bool
  | _, [] => true
  | afterDigit, c :: rest =>
      if c = '_' then afterDigit && (rest.head?.map isDigit).getD false && underscoresFit false rest
      else underscoresFit (isDigit c) rest

/-- A coefficient, with a point in it or not, and an exponent, of any size. -/
def readLiteral (negative : Bool) (s : Text) : Option Decimal :=
  let (whole, rest) := spanDigits s
  let (fraction, rest) := match rest with
    | '.' :: rest => spanDigits rest
    | rest => ([], rest)
  if whole = [] ∧ fraction = [] then none
  else
    (readExponent rest).map fun exponent =>
      ⟨negative, ofDigits (whole ++ fraction), exponent - fraction.length⟩

/-- The number that a text denotes for `float`, before it is rounded. -/
def readExact (s : Text) : Option Number :=
  let s := strip s
  if underscoresFit false s then
    let (negative, s) := spanSign (s.filter (· ≠ '_'))
    let word := s.map Char.toLower
    if word = "inf".toList ∨ word = "infinity".toList then some (.infinite negative)
    else if word = "nan".toList then some .nan
    else (readLiteral negative s).map .finite
  else none

example : readExact " 1_000e-2".toList = some (.finite ⟨false, 1000, -2⟩) := by decide +kernel
example : readExact "1__000".toList = none := by decide +kernel

/-- `float(s)`; `none` is `ValueError`. -/
def readFloat (s : Text) : Option Double := (readExact s).map ofNumber

/-! ### Printed numbers are read back -/

/-- What is printed as digits is not blank, and has no underscores. -/
def Printed (s : Text) : Prop := ∀ c ∈ s, isSpace c = false ∧ c ≠ '_'

/-- A text that begins with a digit is read as a finite number or not at all. -/
theorem readExact_digits {sign : Text} {negative : Bool} (hsign : IsSign sign negative) {s : Text}
    {l : List ℕ} (hs : IsDigits s l) (hl : l ≠ []) (rest : Text)
    (hprinted : Printed (sign ++ (s ++ rest))) :
    readExact (sign ++ (s ++ rest)) = (readLiteral negative (s ++ rest)).map .finite := by
  have hstrip := strip_eq_self fun c hc => (hprinted c hc).1
  have hfilter : (sign ++ (s ++ rest)).filter (· ≠ '_') = sign ++ (s ++ rest) :=
    List.filter_eq_self.2 fun c hc => by simpa using (hprinted c hc).2
  have hfit : ∀ (t : Text) (afterDigit : Bool), (∀ c ∈ t, c ≠ '_') →
      underscoresFit afterDigit t = true := by
    intro t
    induction t with
    | nil => exact fun _ _ => rfl
    | cons c t ih =>
      intro afterDigit hc
      rw [underscoresFit, if_neg (hc c List.mem_cons_self)]
      exact ih _ fun d hd => hc d (List.mem_cons_of_mem _ hd)
  unfold readExact
  simp only [hstrip, hfilter, hfit _ false fun c hc => (hprinted c hc).2, if_true,
    spanSign_append hsign hs hl]
  cases hs with
  | nil => exact absurd rfl hl
  | @cons c d s l hd _ =>
    obtain ⟨hi, hn, -⟩ := toLower_digit hd
    rw [if_neg, if_neg]
    · intro hword
      exact hn (List.cons.inj hword).1
    · rintro (hword | hword)
      · exact hi (List.cons.inj hword).1
      · exact hi (List.cons.inj hword).1

/-- What may follow a number in fixed notation: nothing, or an exponent. -/
inductive IsTail : Text → ℤ → Prop
  | plain : IsTail [] 0
  | exponent (k : ℤ) : IsTail ('e' :: exponentText k) k

theorem IsTail.printed {tail : Text} {k : ℤ} (htail : IsTail tail k) {s : Text} {q : ℚ}
    (h : fixedValue? s = some q) : Printed (s ++ tail) := by
  have hplain : ∀ c : Char, isSpace c = true ∨ c = '_' →
      digit? c = none ∧ (c ≠ '-' ∧ c ≠ '+' ∧ c ≠ '.') ∧ c ≠ 'e' := by
    rintro c (hspace | rfl)
    · refine ⟨?_, ⟨?_, ?_, ?_⟩, ?_⟩
      · cases hdigit : digit? c with
        | none => rfl
        | some d =>
          rw [(not_space_of_digit? hdigit).1] at hspace
          cases hspace
      all_goals
        rintro rfl
        exact absurd hspace (by decide)
    · decide +kernel
  have hnot : ∀ c ∈ s ++ tail, ¬ (isSpace c = true ∨ c = '_') := by
    intro c hc hbad
    obtain ⟨hdigit, hsign, he⟩ := hplain c hbad
    rcases List.mem_append.1 hc with hc | hc
    · exact not_mem_of_fixedValue? h hdigit hsign hc
    · cases htail with
      | plain => cases hc
      | exponent k =>
        rcases List.mem_cons.1 hc with rfl | hc
        · exact he rfl
        · exact not_mem_exponentText hdigit ⟨hsign.1, hsign.2.1⟩ k hc
  intro c hc
  have := hnot c hc
  rw [not_or, Bool.not_eq_true] at this
  exact this

/-- **Numbers in fixed notation are read**, with an exponent or without. -/
theorem readExact_fixed {s tail : Text} {q : ℚ} {k : ℤ} (h : fixedValue? s = some q)
    (htail : IsTail tail k) :
    ∃ a, readExact (s ++ tail) = some (.finite a) ∧ a.toRat = q * 10 ^ k := by
  have hprinted := htail.printed h
  have hexponent : spanDigits tail = ([], tail) ∧ readExponent tail = some k ∧
      ∀ rest, tail ≠ '.' :: rest := by
    cases htail with
    | plain => exact ⟨rfl, rfl, nofun⟩
    | exponent k => exact ⟨rfl, readExponent_exponentText k, nofun⟩
  obtain ⟨hspanTail, hread, hpoint⟩ := hexponent
  obtain ⟨sign, negative, whole, l, hsign, hwhole, hl, hparts⟩ := exists_parts_of_fixedValue? h
  have hshift : ∀ m : List ℕ, toRat ⟨negative, ofDigits (l ++ m), k - m.length⟩ =
      valueOf negative l m * 10 ^ k := by
    intro m
    rw [valueOf, toRat_mk, toRat_mk, mul_assoc, mul_assoc, ← zpow_add₀ (by norm_num), sub_eq_neg_add]
  rcases hparts with ⟨rfl, rfl⟩ | ⟨fraction, m, hfraction, hm, rfl, rfl⟩
  · have hspan := spanDigits_append hwhole tail
    rw [hspanTail, List.append_nil] at hspan
    rw [List.append_assoc] at hprinted ⊢
    refine ⟨⟨negative, ofDigits (l ++ []), k - ([] : List ℕ).length⟩, ?_, hshift []⟩
    rw [readExact_digits hsign hwhole hl tail hprinted]
    have hliteral : readLiteral negative (whole ++ tail) =
        some ⟨negative, ofDigits (l ++ []), k - ([] : List ℕ).length⟩ := by
      unfold readLiteral
      simp only [hspan]
      rw [if_neg fun hnil => hl hnil.1, hread]
      rfl
    rw [hliteral]
    rfl
  · have hspan := spanDigits_append hwhole ('.' :: (fraction ++ tail))
    have hspan' := spanDigits_append hfraction tail
    rw [hspanTail, List.append_nil] at hspan'
    have hstart : spanDigits ('.' :: (fraction ++ tail)) = ([], '.' :: (fraction ++ tail)) := rfl
    rw [hstart, List.append_nil] at hspan
    have hassoc : sign ++ (whole ++ '.' :: fraction) ++ tail =
        sign ++ (whole ++ '.' :: (fraction ++ tail)) := by simp
    rw [hassoc] at hprinted ⊢
    refine ⟨⟨negative, ofDigits (l ++ m), k - m.length⟩, ?_, hshift m⟩
    rw [readExact_digits hsign hwhole hl _ hprinted]
    have hliteral : readLiteral negative (whole ++ '.' :: (fraction ++ tail)) =
        some ⟨negative, ofDigits (l ++ m), k - m.length⟩ := by
      unfold readLiteral
      simp only [hspan, hspan']
      simp [hl, hread]
    rw [hliteral]
    rfl

/-- Integers are read as they are printed. -/
theorem readExact_toString (n : ℤ) :
    ∃ a, readExact (toString n).toList = some (.finite a) ∧ a.toRat = n := by
  have hplain : plainText (ofInt n) = (toString n).toList := by
    rw [toList_toString, plainText_whole le_rfl]
    show _ ++ Nat.toDigits 10 (if n.natAbs = 0 then 0 else n.natAbs * 10 ^ 0) = _
    by_cases hzero : n.natAbs = 0
    · rw [if_pos hzero, hzero]
      rfl
    · rw [if_neg hzero, pow_zero, mul_one]
      rfl
  obtain ⟨a, hread, hvalue⟩ := readExact_fixed (fixedValue?_plainText (ofInt n)) .plain
  rw [List.append_nil, hplain] at hread
  exact ⟨a, hread, by rw [hvalue, toRat_ofInt]; simp⟩

/-- **The text of a double is read** as the number that it is printed as. -/
theorem readExact_roundedText (precision : ℕ) (a : Decimal) :
    ∃ b, readExact (roundedText precision a) = some (.finite b) ∧ b.toRat = a.toRat := by
  have hgeneral := generalValue?_roundedText precision a
  unfold roundedText at hgeneral ⊢
  simp only at hgeneral ⊢
  split_ifs at hgeneral ⊢
  · obtain ⟨b, hread, hvalue⟩ := readExact_fixed (fixedValue?_plainText a) .plain
    rw [List.append_nil] at hread
    exact ⟨b, hread, by rw [hvalue]; simp⟩
  · obtain ⟨b, hread, hvalue⟩ := readExact_fixed (fixedValue?_plainText _) (.exponent _)
    refine ⟨b, hread, hvalue.trans ?_⟩
    rw [generalValue?_exponent (fixedValue?_plainText _)] at hgeneral
    exact Option.some.inj hgeneral

/-! ### Doubles -/

theorem abs_lt_overflow_iff (n : ℤ) : |(n : ℚ)| < overflow ↔ n.natAbs < floatOverflow := by
  have hcast : (floatOverflow : ℚ) = overflow := by
    have hle : ∀ m n : ℕ, m ≤ n → 2 ^ m ≤ 2 ^ n := fun _ _ => Nat.pow_le_pow_right Nat.two_pos
    rw [floatOverflow, overflow, Nat.cast_sub (hle 970 1024 (by omega)), Nat.cast_pow, Nat.cast_pow]
    rfl
  rw [← hcast, ← Int.cast_abs, Int.abs_eq_natAbs, Int.cast_natCast, Nat.cast_lt]

theorem representable_zero : Representable 0 := ⟨0, 0, by norm_num, by omega, by simp, by simp⟩

/-- Doubles, as the floats of the renderer.  A text that denotes a number out of range is not the
text of a float. -/
def binaryFloats : Floats where
  Float := Double
  ofNumber
    | .finite a =>
        if |a.toRat| < overflow then ofRat a.toRat else .finite 0 representable_zero
    | x => Binary64.ofNumber x
  ofInt n := if floatOverflow ≤ n.natAbs then none else some (ofRat n)
  ofText := readFloat
  isFinite
    | .finite _ _ => true
    | _ => false
  isInteger
    | .finite q _ => decide (q.den = 1)
    | _ => false
  toInt
    | .finite q _ => q.num
    | _ => 0
  round
    | .finite q _ => .ok (nearest q)
    | .infinite _ => .error ⟨"OverflowError", "cannot convert float infinity to integer", none⟩
    | .nan => .error (valueError "cannot convert float NaN to integer")
  text x := String.ofList (reprText x)
  ofInt_eq_none n := by
    by_cases h : floatOverflow ≤ n.natAbs
    · simp [h]
    · simp [h]
  isFinite_ofInt {n x} h := by
    split_ifs at h with hlarge
    obtain rfl := Option.some.inj h
    rw [ofRat, dif_pos ((abs_lt_overflow_iff n).2 (not_le.1 hlarge))]
  isFinite_ofNumber x := by
    cases x with
    | finite a =>
      refine iff_of_true ?_ (Option.some_ne_none _)
      dsimp only
      by_cases h : |a.toRat| < overflow
      · rw [if_pos h, ofRat, dif_pos h]
      · rw [if_neg h]
    | infinite negative => exact iff_of_false Bool.false_ne_true fun h => h rfl
    | nan => exact iff_of_false Bool.false_ne_true fun h => h rfl
  round_finite x := by
    cases x with
    | finite q h => exact iff_of_true ⟨_, rfl⟩ rfl
    | infinite negative => exact iff_of_false (fun ⟨_, h⟩ => nomatch h) Bool.false_ne_true
    | nan => exact iff_of_false (fun ⟨_, h⟩ => nomatch h) Bool.false_ne_true

theorem ofInt_of_lt {n : ℤ} (h : |(n : ℚ)| < overflow) : binaryFloats.ofInt n = some (ofRat n) := by
  have hsmall := not_le.2 ((abs_lt_overflow_iff n).1 h)
  unfold binaryFloats
  dsimp only
  rw [if_neg hsmall]

/-- What is printed of a float: an integer without a point, or `str(x)`. -/
def floatText (x : Double) : String :=
  if binaryFloats.isInteger x then toString (binaryFloats.toInt x) else binaryFloats.text x

theorem num_of_den_eq_one {q : ℚ} (h : q.den = 1) : (q.num : ℚ) = q := by
  conv_rhs => rw [← Rat.num_div_den q, h]
  simp

/-- **What is printed of a float is read as the float.** -/
theorem readFloat_floatText (x : Double) : readFloat (floatText x).toList = some x := by
  unfold floatText readFloat
  cases x with
  | finite q h =>
    by_cases hden : q.den = 1
    · obtain ⟨a, hread, hvalue⟩ := readExact_toString q.num
      rw [if_pos (show binaryFloats.isInteger (.finite q h) = true from decide_eq_true hden)]
      show (readExact (toString q.num).toList).map Binary64.ofNumber = _
      rw [hread, Option.map_some, Binary64.ofNumber, hvalue, num_of_den_eq_one hden,
        ofRat_of_representable h]
    · obtain ⟨a, hread, hvalue⟩ := readExact_roundedText 16 (shortest q)
      rw [if_neg (show ¬ binaryFloats.isInteger (.finite q h) = true by
        simpa [binaryFloats] using hden)]
      show (readExact (String.ofList (roundedText 16 (shortest q))).toList).map _ = _
      rw [String.toList_ofList, hread, Option.map_some, Binary64.ofNumber, hvalue, ofRat_shortest h]
  | infinite negative =>
    have hread : readExact (reprText (.infinite negative)) = some (.infinite negative) := by
      cases negative
      · decide +kernel
      · decide +kernel
    show (readExact (String.ofList (reprText (.infinite negative))).toList).map _ = _
    rw [String.toList_ofList, hread]
    rfl
  | nan =>
    have hread : readExact (reprText .nan) = some .nan := by decide +kernel
    show (readExact (String.ofList (reprText .nan)).toList).map _ = _
    rw [String.toList_ofList, hread]
    rfl

end Answer
