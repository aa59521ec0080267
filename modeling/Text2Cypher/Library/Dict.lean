import Mathlib.Data.List.Induction
import Mathlib.Data.List.Nodup
import Mathlib.Data.List.Perm.Subperm

/-!
# Insertion-ordered dictionaries

A `Dict` is a list of entries with distinct keys.  Setting a key that is there changes its value in
place; setting a new key appends an entry.  `Mathlib`'s `AList` puts new entries in front, and does
not keep the place of a changed one.  `tally` counts with one.
-/

structure Dict (κ ν : Type) where
  entries : List (κ × ν)
  nodup : (entries.map Prod.fst).Nodup

namespace Dict

variable {κ ν μ : Type}

@[ext] theorem ext {d d' : Dict κ ν} (h : d.entries = d'.entries) : d = d' := by
  cases d
  cases d'
  cases h
  rfl

def keys (d : Dict κ ν) : List κ := d.entries.map Prod.fst

def values (d : Dict κ ν) : List ν := d.entries.map Prod.snd

def empty : Dict κ ν := ⟨[], List.nodup_nil⟩

@[simp] theorem keys_empty : (empty : Dict κ ν).keys = [] := rfl

@[simp] theorem values_empty : (empty : Dict κ ν).values = [] := rfl

/-- The same keys with other values. -/
def mapValues (f : ν → μ) (d : Dict κ ν) : Dict κ μ where
  entries := d.entries.map fun entry => (entry.1, f entry.2)
  nodup := by
    rw [List.map_map]
    exact d.nodup

@[simp] theorem keys_mapValues (f : ν → μ) (d : Dict κ ν) : (d.mapValues f).keys = d.keys := by
  simp [keys, mapValues, Function.comp_def]

theorem mapValues_mapValues {ξ : Type} (f : ν → μ) (g : μ → ξ) (d : Dict κ ν) :
    (d.mapValues f).mapValues g = d.mapValues (g ∘ f) := by
  apply ext
  simp only [mapValues, List.map_map]
  rfl

variable [DecidableEq κ]

def get? (d : Dict κ ν) (k : κ) : Option ν := (d.entries.find? (·.1 = k)).map Prod.snd

/-- Changing values in place leaves the keys. -/
theorem map_fst_replace (entries : List (κ × ν)) (k : κ) (v : ν) :
    (entries.map fun entry => if entry.1 = k then (k, v) else entry).map Prod.fst =
      entries.map Prod.fst := by
  rw [List.map_map]
  refine List.map_congr_left fun entry _ => ?_
  dsimp only [Function.comp]
  split_ifs with h
  · exact h.symm
  · rfl

/-- Set a key. -/
def set (d : Dict κ ν) (k : κ) (v : ν) : Dict κ ν where
  entries :=
    if k ∈ d.keys then d.entries.map fun entry => if entry.1 = k then (k, v) else entry
    else d.entries ++ [(k, v)]
  nodup := by
    split_ifs with hk
    · rw [map_fst_replace]
      exact d.nodup
    · rw [List.map_append, List.nodup_append]
      refine ⟨d.nodup, List.nodup_singleton _, ?_⟩
      rintro a ha b hb rfl
      obtain rfl : a = k := by simpa using hb
      exact hk ha

theorem get?_eq_some_iff {d : Dict κ ν} {k : κ} {v : ν} :
    d.get? k = some v ↔ (k, v) ∈ d.entries := by
  constructor
  · intro h
    obtain ⟨⟨k', v'⟩, hfind, rfl⟩ := Option.map_eq_some_iff.1 h
    obtain rfl : k' = k := by simpa using List.find?_some hfind
    exact List.mem_of_find?_eq_some hfind
  · intro h
    cases hfind : d.entries.find? (·.1 = k) with
    | none => simpa using List.find?_eq_none.1 hfind (k, v) h
    | some entry =>
      have hk : entry.1 = k := by simpa using List.find?_some hfind
      have heq : entry = (k, v) :=
        List.inj_on_of_nodup_map d.nodup (List.mem_of_find?_eq_some hfind) h hk
      rw [get?, hfind, heq]
      rfl

theorem get?_eq_none_iff {d : Dict κ ν} {k : κ} : d.get? k = none ↔ k ∉ d.keys := by
  rw [get?, Option.map_eq_none_iff, List.find?_eq_none, keys]
  simp only [decide_eq_true_eq, List.mem_map, not_exists, not_and]

theorem get?_isSome_iff {d : Dict κ ν} {k : κ} : (d.get? k).isSome = true ↔ k ∈ d.keys := by
  rw [← not_iff_not, Bool.not_eq_true, Option.isSome_eq_false_iff, Option.isNone_iff_eq_none,
    get?_eq_none_iff]

theorem get?_mapValues (f : ν → μ) (d : Dict κ ν) (k : κ) :
    (d.mapValues f).get? k = (d.get? k).map f := by
  rw [get?, get?, mapValues, List.find?_map, Option.map_map, Option.map_map]
  rfl

theorem exists_get?_of_mem_keys {d : Dict κ ν} {k : κ} (h : k ∈ d.keys) :
    ∃ v, d.get? k = some v :=
  Option.isSome_iff_exists.1 (get?_isSome_iff.2 h)

theorem mem_values_of_get? {d : Dict κ ν} {k : κ} {v : ν} (h : d.get? k = some v) :
    v ∈ d.values :=
  List.mem_map.2 ⟨_, get?_eq_some_iff.1 h, rfl⟩

/-- The entries of a dict, one after the other. -/
def ofEntries (entries : List (κ × ν)) : Dict κ ν :=
  entries.foldl (fun d entry => d.set entry.1 entry.2) empty

theorem entries_set_of_not_mem {d : Dict κ ν} {k : κ} (h : k ∉ d.keys) (v : ν) :
    (d.set k v).entries = d.entries ++ [(k, v)] := if_neg h

theorem entries_set_of_mem {d : Dict κ ν} {k : κ} (h : k ∈ d.keys) (v : ν) :
    (d.set k v).entries = d.entries.map fun entry => if entry.1 = k then (k, v) else entry :=
  if_pos h

theorem mapValues_set (f : ν → μ) (d : Dict κ ν) (k : κ) (v : ν) :
    (d.set k v).mapValues f = (d.mapValues f).set k (f v) := by
  apply ext
  have hkeys := keys_mapValues f d
  by_cases hk : k ∈ d.keys
  · rw [entries_set_of_mem (hkeys ▸ hk)]
    simp only [mapValues, entries_set_of_mem hk, List.map_map]
    refine List.map_congr_left fun entry _ => ?_
    dsimp only [Function.comp]
    split_ifs <;> rfl
  · rw [entries_set_of_not_mem (hkeys ▸ hk)]
    simp only [mapValues, entries_set_of_not_mem hk, List.map_append, List.map_singleton]

theorem mem_keys_set {d : Dict κ ν} {k k' : κ} {v : ν} :
    k' ∈ (d.set k v).keys ↔ k' = k ∨ k' ∈ d.keys := by
  unfold keys set
  dsimp only
  split_ifs with hk
  · rw [map_fst_replace]
    exact ⟨Or.inr, fun h => h.elim (fun h => h ▸ hk) id⟩
  · simp [or_comm]

theorem mem_entries_set {d : Dict κ ν} {k k' : κ} {v v' : ν} :
    (k', v') ∈ (d.set k v).entries ↔
      k' = k ∧ v' = v ∨ k' ≠ k ∧ (k', v') ∈ d.entries := by
  unfold set
  dsimp only
  split_ifs with hk
  · rw [List.mem_map]
    constructor
    · rintro ⟨⟨a, b⟩, hmem, heq⟩
      split_ifs at heq with h
      · obtain ⟨rfl, rfl⟩ := Prod.mk.inj heq
        exact Or.inl ⟨rfl, rfl⟩
      · obtain ⟨rfl, rfl⟩ := Prod.mk.inj heq
        exact Or.inr ⟨h, hmem⟩
    · rintro (⟨rfl, rfl⟩ | ⟨hne, hmem⟩)
      · obtain ⟨⟨a, b⟩, hmem, rfl⟩ := List.mem_map.1 hk
        exact ⟨(a, b), hmem, if_pos rfl⟩
      · exact ⟨(k', v'), hmem, if_neg hne⟩
  · rw [List.mem_append, List.mem_singleton, Prod.mk.injEq]
    constructor
    · rintro (hmem | heq)
      · refine Or.inr ⟨fun h => hk ?_, hmem⟩
        exact h ▸ List.mem_map.2 ⟨_, hmem, rfl⟩
      · exact Or.inl heq
    · rintro (heq | ⟨-, hmem⟩)
      · exact Or.inr heq
      · exact Or.inl hmem

theorem get?_set (d : Dict κ ν) (k k' : κ) (v : ν) :
    (d.set k v).get? k' = if k' = k then some v else d.get? k' := by
  ext v'
  rw [get?_eq_some_iff, mem_entries_set]
  split_ifs with h
  · simp [h, eq_comm]
  · simp [h, get?_eq_some_iff]

/-! ### From entries -/

theorem entries_foldl_set {entries : List (κ × ν)} {d : Dict κ ν}
    (h : (d.keys ++ entries.map Prod.fst).Nodup) :
    (entries.foldl (fun d entry => d.set entry.1 entry.2) d).entries = d.entries ++ entries := by
  induction entries generalizing d with
  | nil => simp
  | cons entry entries ih =>
    have hnew : entry.1 ∉ d.keys := by
      rw [List.map_cons, List.nodup_append] at h
      exact fun hmem => h.2.2 _ hmem _ List.mem_cons_self rfl
    have hentries := entries_set_of_not_mem hnew entry.2
    rw [List.foldl_cons, ih, hentries, List.append_assoc, List.singleton_append]
    rw [keys, hentries, List.map_append, List.append_assoc]
    exact h

/-- Entries with distinct keys are kept as they are. -/
theorem entries_ofEntries {entries : List (κ × ν)} (h : (entries.map Prod.fst).Nodup) :
    (ofEntries entries).entries = entries :=
  entries_foldl_set (d := empty) h

theorem mem_keys_ofEntries {entries : List (κ × ν)} {k : κ} :
    k ∈ (ofEntries entries).keys ↔ k ∈ entries.map Prod.fst := by
  induction entries using List.reverseRecOn with
  | nil => simp [ofEntries]
  | append_singleton entries entry ih =>
    rw [ofEntries, List.foldl_append, List.foldl_cons, List.foldl_nil, mem_keys_set, ← ofEntries, ih]
    simp [or_comm]

/-- No entry is lost just if the keys are distinct. -/
theorem length_ofEntries_eq_iff {entries : List (κ × ν)} :
    (ofEntries entries).entries.length = entries.length ↔ (entries.map Prod.fst).Nodup := by
  constructor
  · intro h
    have hsub : (ofEntries entries).keys.Subperm (entries.map Prod.fst) :=
      List.subperm_of_subset (ofEntries entries).nodup fun k hk => mem_keys_ofEntries.1 hk
    have hperm := List.Subperm.perm_of_length_le hsub (by simp [keys, h])
    exact hperm.nodup_iff.1 (ofEntries entries).nodup
  · intro h
    rw [entries_ofEntries h]

/-! ### Counting -/

/-- How often each key occurs, in the order of the first occurrences. -/
def tally (keys : List κ) : Dict κ ℕ :=
  keys.foldl (fun counts key => counts.set key ((counts.get? key).getD 0 + 1)) empty

theorem get?_tally (keys : List κ) (k : κ) :
    (tally keys).get? k = if k ∈ keys then some (keys.count k) else none := by
  induction keys using List.reverseRecOn with
  | nil => rfl
  | append_singleton keys key ih =>
    rw [tally, List.foldl_append, List.foldl_cons, List.foldl_nil, ← tally, get?_set, ih]
    by_cases hk : k = key
    · subst hk
      by_cases hmem : k ∈ keys
      · simp [ih, hmem, List.count_append]
      · simp [ih, hmem, List.count_append, List.count_eq_zero_of_not_mem hmem]
    · have hne : key ≠ k := fun h => hk h.symm
      simp [hk, hne, List.count_append]

/-- No key occurs twice just if no count is above one. -/
theorem filter_tally_eq_nil {keys : List κ} :
    (tally keys).entries.filter (1 < ·.2) = [] ↔ keys.Nodup := by
  rw [List.filter_eq_nil_iff, List.nodup_iff_count_le_one]
  simp only [decide_eq_true_eq, Nat.not_lt]
  constructor
  · intro h k
    by_cases hk : k ∈ keys
    · exact h (k, keys.count k) (get?_eq_some_iff.1 (by rw [get?_tally, if_pos hk]))
    · rw [List.count_eq_zero_of_not_mem hk]
      exact Nat.zero_le 1
  · rintro h ⟨k, n⟩ hmem
    have hget := get?_eq_some_iff.2 hmem
    rw [get?_tally] at hget
    split_ifs at hget
    obtain rfl := Option.some.inj hget
    exact h k

end Dict
