import Text2Cypher.Answer.Literals

/-!
# Values in answers

The JSON that a model answers with and the values of rows are read alike: by subscripts, by `.get`,
by iteration and by `str`.  An answer may be JSON of any shape, so all of this can raise.

* `PyStr`: values with a `str`;
* `isNumeral_str`: what `str` makes of a number denotes the number.
-/

/-- The name of the type of a value, for the texts of errors. -/
def Kind.typeName {V : Type} : Kind V → String
  | .none => "NoneType"
  | .bool _ => "bool"
  | .int _ => "int"
  | .float _ => "float"
  | .decimal _ => "decimal.Decimal"
  | .str _ => "str"
  | .list _ => "list"
  | .dict _ => "dict"
  | .other => "object"

namespace Answer

open Composition Decimal Python

/-- Values with a `str`, that may fail as `repr` may. -/
class PyStr (V : Type) [PyValue V] where
  str : V → Except PyException String
  str_text : ∀ {v : V} {s}, PyValue.kind v = .str s → str v = .ok s
  str_int : ∀ {v : V} {n}, PyValue.kind v = .int n → str v = intText n
  str_number : ∀ {v : V} {x t}, PyValue.kind v = .float x ∨ PyValue.kind v = .decimal x →
    str v = .ok t → IsNumeral t.toList x
  hashable_text : ∀ {v : V} {s}, PyValue.kind v = .str s → PyValue.hashable v = true

section

variable {V : Type} [PyValue V]

/-! ### Reading values -/

def typeError (message : String) : PyException := ⟨"TypeError", message, none⟩

/-- `bool(value)`. -/
def truthy (value : V) : Bool :=
  match PyValue.kind value with
  | .none => false
  | .bool b => b
  | .int n => decide (n ≠ 0)
  | .float x | .decimal x => decide (numberValue x ≠ some 0)
  | .str s => decide (s ≠ "")
  | .list items => !items.isEmpty
  | .dict fields => !fields.isEmpty
  | .other => true

/-- `value[key]`, for a text as the key. -/
def subscript (value : V) (key : String) : Except PyException V :=
  match PyValue.kind value with
  | .dict fields =>
      match fields.lookup key with
      | some field => .ok field
      | none => .error (keyError key)
  | .list _ => .error (typeError "list indices must be integers or slices, not str")
  | .str _ => .error (typeError "string indices must be integers, not 'str'")
  | kind => .error (typeError ("'" ++ kind.typeName ++ "' object is not subscriptable"))

/-- `value.get(key, default)`. -/
def getOr (value : V) (key : String) (fallback : V) : Except PyException V :=
  match PyValue.kind value with
  | .dict fields => .ok ((fields.lookup key).getD fallback)
  | kind =>
      .error ⟨"AttributeError", "'" ++ kind.typeName ++ "' object has no attribute 'get'", none⟩

variable [PyBuild V]

/-- `None`. -/
def noneValue : V := PyBuild.ofKind .none

/-- A text as a value. -/
def textValue (s : String) : V := PyBuild.ofKind (.str s)

/-- `[]`. -/
def emptyList : V := PyBuild.ofKind (.list [])

/-- `value.get(key)`. -/
def get (value : V) (key : String) : Except PyException V := getOr value key noneValue

/-- `iter(value)`. -/
def iterate (value : V) : Except PyException (List V) :=
  match PyValue.kind value with
  | .list items => .ok items
  | .dict fields => .ok (fields.map fun field => textValue field.1)
  | .str s => .ok (s.toList.map fun c => textValue (String.singleton c))
  | kind => .error (typeError ("'" ++ kind.typeName ++ "' object is not iterable"))

/-- What is iterated over, or nothing. -/
def elements (value : V) : List V :=
  match iterate value with
  | .ok items => items
  | .error _ => []

theorem elements_eq {items : V} {l : List V} (h : iterate items = .ok l) : elements items = l := by
  rw [elements, h]

end

/-! ### Numbers -/

/-- The number that a value is. -/
def number? {V : Type} [PyValue V] (value : V) : Option Number :=
  match PyValue.kind value with
  | .int n => some (.finite (ofInt n))
  | .float x | .decimal x => some x
  | _ => none

/-- `str` of an integer, as characters. -/
theorem toList_toString (n : ℤ) :
    (toString n).toList = signText (decide (n < 0)) ++ Nat.toDigits 10 n.natAbs := by
  have hnat : ∀ m : ℕ, (Nat.repr m).toList = Nat.toDigits 10 m := fun m => Nat.toList_repr
  cases n with
  | ofNat m =>
    have hneg : ¬ (Int.ofNat m < 0) := Int.not_lt.2 (Int.natCast_nonneg m)
    rw [decide_eq_false hneg]
    exact hnat m
  | negSucc m =>
    rw [decide_eq_true (Int.negSucc_lt_zero m)]
    show ("-" ++ Nat.repr (m + 1)).toList = _
    rw [String.toList_append, hnat]
    rfl

/-- The text of an integer that is not too long for `str`. -/
theorem isNumeral_intText {n : ℤ} {t : String} (h : intText n = .ok t) :
    IsNumeral t.toList (.finite (ofInt n)) := by
  unfold intText at h
  split_ifs at h with hlong
  obtain rfl := Except.ok.inj h
  obtain ⟨l, hl, hvalue⟩ := exists_isDigits_toDigits n.natAbs
  have hne : l ≠ [] := hl.ne_nil (Nat.toDigits_ne_nil)
  have hchars : ∀ c ∈ signText (decide (n < 0)) ++ Nat.toDigits 10 n.natAbs,
      c.toNat < 128 ∧ isSpace c = false ∧ c ≠ ',' ∧ c ≠ '_' := by
    intro c hc
    rcases List.mem_append.1 hc with hc | hc
    · obtain rfl : c = '-' := by
        unfold signText at hc
        split_ifs at hc
        · exact List.mem_singleton.1 hc
        · cases hc
      decide
    · have hdigit : c.isDigit = true := Nat.isDigit_of_mem_toDigits (by omega) (by omega) hc
      have hrange : 48 ≤ c.toNat ∧ c.toNat ≤ 57 := by
        simpa [Char.isDigit, UInt32.le_iff_toNat_le] using hdigit
      refine ⟨by omega, ?_, ?_, ?_⟩
      · simp only [isSpace, List.mem_cons, List.not_mem_nil, or_false, decide_eq_false_iff_not]
        omega
      · rintro rfl
        exact absurd hrange (by decide)
      · rintro rfl
        exact absurd hrange (by decide)
  rw [toList_toString]
  refine ⟨?_, fun c hc => ⟨(hchars c hc).1, (hchars c hc).2.1, (hchars c hc).2.2.1⟩⟩
  rw [read_whole (isSign_signText _) hl hne fun c hc => ⟨(hchars c hc).2.1, (hchars c hc).2.2.2⟩,
    hvalue, ifHeld, if_pos]
  · rfl
  · have hmax : maxStrDigits = 4300 := rfl
    have hemax : maxEmax = 999999999999999999 := rfl
    have hetiny : minEtiny = -1999999999999999997 := rfl
    dsimp only
    omega

variable {V : Type} [PyValue V] [PyStr V]

/-- **What `str` makes of a number** denotes the number. -/
theorem isNumeral_str {v : V} {x : Number} {t : String} (hx : number? v = some x)
    (ht : PyStr.str v = .ok t) : IsNumeral t.toList x := by
  unfold number? at hx
  split at hx
  · rename_i n hkind
    obtain rfl := Option.some.inj hx
    rw [PyStr.str_int hkind] at ht
    exact isNumeral_intText ht
  · rename_i y hkind
    obtain rfl := Option.some.inj hx
    exact PyStr.str_number (Or.inl hkind) ht
  · rename_i y hkind
    obtain rfl := Option.some.inj hx
    exact PyStr.str_number (Or.inr hkind) ht
  · cases hx

end Answer

namespace Cell

open Answer Decimal

/-- The text of a number that is no integer. -/
def numberText : Number → Text
  | .finite a => fixedText a
  | .infinite negative => signText negative ++ "inf".toList
  | .nan => "nan".toList

instance (t : Text) (x : Number) : Decidable (IsNumeral t x) :=
  @instDecidableAnd _ _ inferInstance (List.decidableBAll _ t)

/-- `str` of the values without parts; what is no numeral is not printed in any example. -/
def strCell : Cell → Except PyException String
  | .mk (.int n) => Python.intText n
  | .mk (.str s) => .ok s
  | .mk (.float x) | .mk (.decimal x) =>
      if IsNumeral (String.ofList (numberText x)).toList x then .ok (String.ofList (numberText x))
      else .error (Python.valueError "")
  | v => reprCell v

instance : PyStr Cell where
  str := strCell
  str_text {v s} h := by
    obtain ⟨k⟩ := v
    obtain rfl : k = .str s := h
    rfl
  str_int {v n} h := by
    obtain ⟨k⟩ := v
    obtain rfl : k = .int n := h
    rfl
  str_number {v x t} h ht := by
    obtain ⟨k⟩ := v
    have htext : (if IsNumeral (String.ofList (numberText x)).toList x then
        Except.ok (String.ofList (numberText x)) else .error (Python.valueError "")) =
        (.ok t : Except PyException String) := by
      rcases h with h | h
      · obtain rfl : k = .float x := h
        exact ht
      · obtain rfl : k = .decimal x := h
        exact ht
    split_ifs at htext with hnumeral
    · obtain rfl := Except.ok.inj htext
      exact hnumeral
  hashable_text {v s} h := by
    obtain ⟨k⟩ := v
    obtain rfl : k = .str s := h
    rfl

end Cell
