import Mathlib.Data.List.Basic

/-!
# Hash joins

Rows of two sides that have equal keys.  The equality of keys is any equivalence that can be
computed; a table groups the rows of one side by their keys, and is then searched with every key of
the other side.

* **`lookup_group_map`**: what the table of a list of rows holds for a key.
-/

namespace Join

variable {κ α β : Type}

instance equivBEqList [BEq κ] [EquivBEq κ] : EquivBEq (List κ) where
  symm {as} := by
    induction as with
    | nil => rintro (_ | ⟨b, bs⟩) h <;> first | rfl | cases h
    | cons a as ih =>
      rintro (_ | ⟨b, bs⟩) h
      · cases h
      · simp only [List.cons_beq_cons, Bool.and_eq_true] at h ⊢
        exact ⟨PartialEquivBEq.symm h.1, ih h.2⟩
  trans {as} := by
    induction as with
    | nil => rintro (_ | ⟨b, bs⟩) cs hab hbc <;> first | exact hbc | cases hab
    | cons a as ih =>
      rintro (_ | ⟨b, bs⟩) (_ | ⟨c, cs⟩) hab hbc
      · cases hab
      · cases hab
      · cases hbc
      · simp only [List.cons_beq_cons, Bool.and_eq_true] at hab hbc ⊢
        exact ⟨PartialEquivBEq.trans hab.1 hbc.1, ih hab.2 hbc.2⟩

variable [BEq κ]

/-- Rows grouped by their keys. -/
abbrev Table (κ α : Type) := List (κ × List α)

/-- The rows of a key. -/
def lookup (table : Table κ α) (key : κ) : List α :=
  ((table.find? fun entry => entry.1 == key).map Prod.snd).getD []

/-- A row more. -/
def push : Table κ α → κ → α → Table κ α
  | [], key, a => [(key, [a])]
  | (key', rows) :: table, key, a =>
      if key' == key then (key', rows ++ [a]) :: table else (key', rows) :: push table key a

/-- All rows of a list. -/
def group (table : Table κ α) (rows : List (κ × α)) : Table κ α :=
  rows.foldl (fun table row => push table row.1 row.2) table

variable [EquivBEq κ]

theorem lookup_push (table : Table κ α) (key key' : κ) (a : α) :
    lookup (push table key a) key' =
      if key == key' then lookup table key' ++ [a] else lookup table key' := by
  induction table with
  | nil =>
    by_cases h : key == key'
    · simp [push, lookup, h]
    · simp [push, lookup, h]
  | cons entry table ih =>
    obtain ⟨k, rows⟩ := entry
    by_cases hk : k == key
    · by_cases h : key == key'
      · have hk' : (k == key') = true := PartialEquivBEq.trans hk h
        simp [push, lookup, hk, h, hk']
      · have hk' : (k == key') = false := by
          rw [Bool.eq_false_iff]
          exact fun hk' => h (PartialEquivBEq.trans (PartialEquivBEq.symm hk) hk')
        simp [push, lookup, hk, h, hk']
    · by_cases hk' : k == key'
      · have h : (key == key') = false := by
          rw [Bool.eq_false_iff]
          exact fun h => hk (PartialEquivBEq.trans hk' (PartialEquivBEq.symm h))
        simp [push, lookup, hk, h, hk']
      · simpa [push, lookup, hk, hk'] using ih

theorem lookup_group (rows : List (κ × α)) (table : Table κ α) (key : κ) :
    lookup (group table rows) key =
      lookup table key ++ (rows.filter fun row => row.1 == key).map Prod.snd := by
  induction rows generalizing table with
  | nil => simp [group]
  | cons row rows ih =>
    have hgroup : group table (row :: rows) = group (push table row.1 row.2) rows := rfl
    rw [hgroup, ih, lookup_push]
    by_cases h : row.1 == key
    · simp [h, List.append_assoc]
    · simp [h]

/-- The rows that a table of a list holds for a key. -/
theorem lookup_group_map (keyOf : α → κ) (rows : List α) (key : κ) :
    lookup (group [] (rows.map fun a => (keyOf a, a))) key =
      rows.filter fun a => keyOf a == key := by
  rw [lookup_group, List.filter_map, List.map_map]
  simp [lookup, Function.comp_def]

end Join
