import Mathlib.Data.List.Dedup
import Mathlib.Data.List.Induction
import Mathlib.Data.List.Sort
import Text2Cypher.Library.Join

/-!
# Unions in order, and sorted groups

Two ways in which a list is cleaned of repetitions: appending only what is not there yet, and
grouping the elements by a key and sorting the groups.

* `appendNew`: elements are appended unless they are there;
* `appendNew_map`: an injective renaming commutes with it;
* `uniqueBy`, `mem_uniqueBy`, `exists_uniqueBy`, `nodup_map_iff_length_uniqueBy`: of the elements
  with one value of a function the first is kept;
* `flatMap_group_perm`: what is made of all groups is what is made of the elements;
* `sortedSet_congr`: a sorted list without repetitions only depends on its elements;
* `sortedGroups_perm`: groups sorted by a key that tells them apart do not depend on the order of
  the elements, up to the order inside the groups.
-/

namespace Grouping

variable {α β κ : Type}

section

variable [DecidableEq α]

/-- Append what is not there yet. -/
def addNew (target : List α) (value : α) : List α :=
  if value ∈ target then target else target ++ [value]

/-- Append the elements of a list that are not there yet. -/
def appendNew (target values : List α) : List α := values.foldl addNew target

@[simp] theorem appendNew_nil (target : List α) : appendNew target [] = target := rfl

theorem appendNew_cons (target values : List α) (value : α) :
    appendNew target (value :: values) = appendNew (addNew target value) values := rfl

theorem appendNew_append (target values more : List α) :
    appendNew target (values ++ more) = appendNew (appendNew target values) more :=
  List.foldl_append

theorem mem_addNew {target : List α} {value a : α} :
    a ∈ addNew target value ↔ a ∈ target ∨ a = value := by
  unfold addNew
  split_ifs with h
  · constructor
    · exact Or.inl
    · rintro (ha | rfl)
      · exact ha
      · exact h
  · rw [List.mem_append, List.mem_singleton]

theorem mem_appendNew {target values : List α} {a : α} :
    a ∈ appendNew target values ↔ a ∈ target ∨ a ∈ values := by
  induction values generalizing target with
  | nil => simp
  | cons value values ih => rw [appendNew_cons, ih, mem_addNew, List.mem_cons, or_assoc]

theorem nodup_addNew {target : List α} {value : α} (h : target.Nodup) :
    (addNew target value).Nodup := by
  unfold addNew
  split_ifs with hvalue
  · exact h
  · refine List.nodup_append.2 ⟨h, List.nodup_singleton _, ?_⟩
    rintro a ha b hb rfl
    exact hvalue (List.mem_singleton.1 hb ▸ ha)

theorem nodup_appendNew {target values : List α} (h : target.Nodup) :
    (appendNew target values).Nodup := by
  induction values generalizing target with
  | nil => exact h
  | cons value values ih => exact ih (nodup_addNew h)

theorem prefix_appendNew (target values : List α) : target <+: appendNew target values := by
  induction values generalizing target with
  | nil => exact List.prefix_rfl
  | cons value values ih =>
    refine List.IsPrefix.trans ?_ (ih _)
    unfold addNew
    split_ifs
    · exact List.prefix_rfl
    · exact List.prefix_append _ _

/-- What is there already may be left out. -/
theorem appendNew_filter {target values : List α} :
    appendNew target (values.filter (· ∉ target)) = appendNew target values := by
  have hmore : ∀ (values more target : List α), (∀ a ∈ more, a ∈ target) →
      appendNew target (values.filter (· ∉ more)) = appendNew target values := by
    intro values more
    induction values with
    | nil => exact fun _ _ => rfl
    | cons value values ih =>
      intro target htarget
      have hnew : ∀ a ∈ more, a ∈ addNew target value :=
        fun a ha => mem_addNew.2 (Or.inl (htarget a ha))
      by_cases h : value ∈ more
      · have hsame : addNew target value = target := if_pos (htarget value h)
        rw [List.filter_cons_of_neg (by simp [h]), ih target htarget, appendNew_cons, hsame]
      · rw [List.filter_cons_of_pos (by simp [h]), appendNew_cons, appendNew_cons, ih _ hnew]
  exact hmore values target target fun _ h => h

/-- What is there already may be replaced by something else that is there. -/
theorem appendNew_congr_mem {target values : List α} {f : α → α}
    (h : ∀ a ∈ values, f a = a ∨ a ∈ target ∧ f a ∈ target) :
    appendNew target (values.map f) = appendNew target values := by
  have hfilter : (values.map f).filter (· ∉ target) = values.filter (· ∉ target) := by
    induction values with
    | nil => rfl
    | cons value values ih =>
      have ih := ih fun a ha => h a (List.mem_cons_of_mem value ha)
      rcases h value List.mem_cons_self with heq | ⟨hmem, hmem'⟩
      · rw [List.map_cons, heq, List.filter_cons, List.filter_cons, ih]
      · rw [List.map_cons, List.filter_cons_of_neg (by simp [hmem']),
          List.filter_cons_of_neg (by simp [hmem]), ih]
  rw [← appendNew_filter, hfilter, appendNew_filter]

/-- Appending commutes with a renaming that keeps the elements apart. -/
theorem appendNew_map [DecidableEq β] {f : α → β} {target values : List α}
    (hinj : ∀ a ∈ target ++ values, ∀ b ∈ target ++ values, f a = f b → a = b) :
    appendNew (target.map f) (values.map f) = (appendNew target values).map f := by
  induction values generalizing target with
  | nil => rfl
  | cons value values ih =>
    have hvalue : f value ∈ target.map f ↔ value ∈ target := by
      rw [List.mem_map]
      constructor
      · rintro ⟨a, ha, heq⟩
        have hmem : value ∈ target ++ value :: values := by simp
        exact hinj a (List.mem_append_left _ ha) value hmem heq ▸ ha
      · exact fun h => ⟨value, h, rfl⟩
    have hadd : addNew (target.map f) (f value) = (addNew target value).map f := by
      by_cases h : value ∈ target
      · rw [addNew, addNew, if_pos h, if_pos (hvalue.2 h)]
      · rw [addNew, addNew, if_neg h, if_neg (mt hvalue.1 h), List.map_append, List.map_singleton]
    rw [List.map_cons, appendNew_cons, appendNew_cons, hadd, ih]
    have hsub : ∀ a ∈ addNew target value ++ values, a ∈ target ++ value :: values := by
      intro a ha
      rcases List.mem_append.1 ha with ha | ha
      · rcases mem_addNew.1 ha with ha | rfl
        · exact List.mem_append_left _ ha
        · simp
      · simp [ha]
    exact fun a ha b hb => hinj a (hsub a ha) b (hsub b hb)

end

section

variable [DecidableEq β] (f : α → β)

/-- Append an element unless one with its value of `f` is there. -/
def addNewBy (target : List α) (a : α) : List α :=
  if target.any fun b => decide (f b = f a) then target else target ++ [a]

/-- The first elements with their values of `f`. -/
def uniqueBy (l : List α) : List α := l.foldl (addNewBy f) []

variable {f}

theorem map_addNewBy (target : List α) (a : α) :
    (addNewBy f target a).map f = addNew (target.map f) (f a) := by
  by_cases h : f a ∈ target.map f
  · obtain ⟨b, hb, heq⟩ := List.mem_map.1 h
    rw [addNewBy, if_pos (List.any_eq_true.2 ⟨b, hb, decide_eq_true heq⟩), addNew, if_pos h]
  · rw [addNewBy, if_neg, addNew, if_neg h, List.map_append, List.map_singleton]
    intro hany
    obtain ⟨b, hb, heq⟩ := List.any_eq_true.1 hany
    exact h (List.mem_map.2 ⟨b, hb, of_decide_eq_true heq⟩)

theorem map_foldl_addNewBy (l target : List α) :
    (l.foldl (addNewBy f) target).map f = appendNew (target.map f) (l.map f) := by
  induction l generalizing target with
  | nil => rfl
  | cons a l ih => rw [List.foldl_cons, ih, map_addNewBy, List.map_cons, appendNew_cons]

theorem map_uniqueBy (l : List α) : (uniqueBy f l).map f = appendNew [] (l.map f) :=
  map_foldl_addNewBy l []

theorem addNewBy_concat (target : List α) (a : α) :
    addNewBy f target a = target ∨ addNewBy f target a = target ++ [a] := by
  unfold addNewBy
  split_ifs
  · exact Or.inl rfl
  · exact Or.inr rfl

theorem uniqueBy_concat (l : List α) (a : α) :
    uniqueBy f (l ++ [a]) = addNewBy f (uniqueBy f l) a := List.foldl_append

theorem uniqueBy_sublist (l : List α) : (uniqueBy f l).Sublist l := by
  induction l using List.reverseRecOn with
  | nil => exact List.Sublist.refl _
  | append_singleton l a ih =>
    rw [uniqueBy_concat]
    rcases addNewBy_concat (f := f) (uniqueBy f l) a with h | h
    · rw [h]
      exact ih.trans (List.sublist_append_left l [a])
    · rw [h]
      exact ih.append_right [a]

/-- Nothing is left out just if no two elements have one value. -/
theorem nodup_map_iff_length_uniqueBy {l : List α} :
    (uniqueBy f l).length = l.length ↔ (l.map f).Nodup := by
  constructor
  · intro h
    rw [← (uniqueBy_sublist l).eq_of_length h, map_uniqueBy]
    exact nodup_appendNew List.nodup_nil
  · intro h
    suffices hall : uniqueBy f l = l by rw [hall]
    induction l using List.reverseRecOn with
    | nil => rfl
    | append_singleton l a ih =>
      rw [List.map_append, List.nodup_append] at h
      have hnew : ¬((l.any fun b => decide (f b = f a)) = true) := by
        intro hany
        obtain ⟨b, hb, heq⟩ := List.any_eq_true.1 hany
        exact h.2.2 _ (List.mem_map_of_mem hb) _ (by simp) (of_decide_eq_true heq)
      rw [uniqueBy_concat, ih h.1, addNewBy, if_neg hnew]

/-- For each element there is one that is kept, itself or an earlier one. -/
theorem exists_uniqueBy (before after : List α) (a : α) :
    ∃ b ∈ uniqueBy f (before ++ a :: after), b ∈ before ++ [a] ∧ f b = f a := by
  have hkept : ∀ (rest target : List α) (b : α), b ∈ target →
      b ∈ rest.foldl (addNewBy f) target := by
    intro rest
    induction rest with
    | nil => exact fun _ _ => id
    | cons c rest ih =>
      refine fun target b hb => ih _ _ ?_
      rcases addNewBy_concat (f := f) target c with h | h
      · rwa [h]
      · rw [h]
        exact List.mem_append_left _ hb
  have hvalue : f a ∈ (uniqueBy f (before ++ [a])).map f := by
    rw [map_uniqueBy, mem_appendNew]
    exact Or.inr (List.mem_map_of_mem (List.mem_append_right _ (List.mem_singleton_self a)))
  obtain ⟨b, hb, heq⟩ := List.mem_map.1 hvalue
  refine ⟨b, ?_, (uniqueBy_sublist _).mem hb, heq⟩
  rw [← List.singleton_append, ← List.append_assoc, uniqueBy, List.foldl_append]
  exact hkept after _ b hb

/-- What is kept is found by the images already, if the values are made from them. -/
theorem map_uniqueBy_comp (g : α → κ) (value : κ → β) (hf : ∀ a, f a = value (g a)) (l : List α) :
    (uniqueBy f l).map g = uniqueBy value (l.map g) := by
  induction l using List.reverseRecOn with
  | nil => rfl
  | append_singleton l a ih =>
    have hany : (uniqueBy f l).any (fun b => decide (f b = f a)) =
        ((uniqueBy f l).map g).any fun b => decide (value b = value (g a)) := by
      rw [List.any_map]
      simp only [Function.comp_def, hf]
    rw [List.map_append, List.map_singleton, uniqueBy_concat, uniqueBy_concat, addNewBy, addNewBy,
      hany, ih]
    split_ifs
    · exact ih
    · rw [List.map_append, ih, List.map_singleton]

/-- The elements that are kept are those with no earlier one of their value. -/
theorem mem_uniqueBy {l : List α} {a : α} :
    a ∈ uniqueBy f l ↔
      ∃ before after, l = before ++ a :: after ∧ ∀ b ∈ before, f b ≠ f a := by
  have hfold : ∀ l target : List α, a ∈ l.foldl (addNewBy f) target ↔ a ∈ target ∨
      ∃ before after, l = before ++ a :: after ∧ ∀ b ∈ target ++ before, f b ≠ f a := by
    intro l
    induction l with
    | nil =>
      intro target
      constructor
      · exact Or.inl
      · rintro (h | ⟨before, after, h, -⟩)
        · exact h
        · exact absurd h.symm (List.append_ne_nil_of_right_ne_nil _ (List.cons_ne_nil _ _))
    | cons c l ih =>
      intro target
      rw [List.foldl_cons, ih]
      by_cases hc : ∃ b ∈ target, f b = f c
      · have hadd : addNewBy f target c = target := by
          obtain ⟨b, hb, heq⟩ := hc
          exact if_pos (List.any_eq_true.2 ⟨b, hb, decide_eq_true heq⟩)
        rw [hadd]
        refine or_congr_right ?_
        obtain ⟨d, hd, hdc⟩ := hc
        constructor
        · rintro ⟨before, after, rfl, hnone⟩
          refine ⟨c :: before, after, rfl, fun b hb => ?_⟩
          rcases List.mem_append.1 hb with hb | hb
          · exact hnone b (List.mem_append_left _ hb)
          rcases List.mem_cons.1 hb with rfl | hb
          · exact hdc ▸ hnone d (List.mem_append_left _ hd)
          · exact hnone b (List.mem_append_right _ hb)
        · rintro ⟨before, after, heq, hnone⟩
          cases before with
          | nil =>
            obtain ⟨rfl, rfl⟩ := List.cons.inj heq
            exact absurd hdc (hnone d (List.mem_append_left _ hd))
          | cons b before =>
            obtain ⟨rfl, rfl⟩ := List.cons.inj heq
            refine ⟨before, after, rfl, fun e he => hnone e ?_⟩
            rcases List.mem_append.1 he with he | he
            · exact List.mem_append_left _ he
            · exact List.mem_append_right _ (List.mem_cons_of_mem _ he)
      · have hadd : addNewBy f target c = target ++ [c] := by
          refine if_neg fun hany => hc ?_
          obtain ⟨b, hb, heq⟩ := List.any_eq_true.1 hany
          exact ⟨b, hb, of_decide_eq_true heq⟩
        push Not at hc
        rw [hadd, List.mem_append, List.mem_singleton, or_assoc]
        refine or_congr_right ?_
        constructor
        · rintro (rfl | ⟨before, after, rfl, hnone⟩)
          · exact ⟨[], l, rfl, by simpa using hc⟩
          · exact ⟨c :: before, after, rfl, by simpa using hnone⟩
        · rintro ⟨before, after, heq, hnone⟩
          cases before with
          | nil => exact Or.inl (List.cons.inj heq).1.symm
          | cons b before =>
            obtain ⟨rfl, rfl⟩ := List.cons.inj heq
            exact Or.inr ⟨before, after, rfl, by simpa using hnone⟩
  rw [uniqueBy, hfold]
  simp

end

/-! ### Sorted sets -/

section

variable [LinearOrder α]

/-- The elements of a list, each once and in order. -/
def sortedSet (l : List α) : List α := l.dedup.insertionSort (· ≤ ·)

@[simp] theorem mem_sortedSet {l : List α} {a : α} : a ∈ sortedSet l ↔ a ∈ l := by
  rw [sortedSet, List.mem_insertionSort, List.mem_dedup]

@[simp] theorem sortedSet_eq_nil {l : List α} : sortedSet l = [] ↔ l = [] := by
  rw [List.eq_nil_iff_forall_not_mem, List.eq_nil_iff_forall_not_mem]
  exact forall_congr' fun a => not_congr mem_sortedSet

/-- **A sorted set only depends on its elements.** -/
theorem sortedSet_congr {l l' : List α} (h : ∀ a, a ∈ l ↔ a ∈ l') : sortedSet l = sortedSet l' := by
  have hperm : (sortedSet l).Perm (sortedSet l') :=
    (List.perm_insertionSort _ _).trans
      ((List.perm_ext_iff_of_nodup (List.nodup_dedup l) (List.nodup_dedup l')).2 (by simpa using h)
        |>.trans (List.perm_insertionSort _ _).symm)
  exact hperm.eq_of_pairwise' (List.pairwise_insertionSort _ _) (List.pairwise_insertionSort _ _)

/-- An ordered list without repetitions is the sorted set of its elements. -/
theorem eq_sortedSet {l l' : List α} (hnodup : l.Nodup) (hsorted : l.Pairwise (· ≤ ·))
    (h : ∀ a, a ∈ l ↔ a ∈ l') : l = sortedSet l' := by
  have hperm : l.Perm (sortedSet l) := by
    rw [sortedSet, hnodup.dedup]
    exact (List.perm_insertionSort _ _).symm
  exact (hperm.eq_of_pairwise' hsorted (List.pairwise_insertionSort _ _)).trans (sortedSet_congr h)

end

/-! ### Groups -/

/-- **What is made of the groups** is what is made of the rows, in another order. -/
theorem flatMap_group_perm [BEq κ] [LawfulBEq κ] (f : κ → α → List β) (rows : List (κ × α)) :
    ((Join.group [] rows).flatMap fun group => group.2.flatMap (f group.1)).Perm
      (rows.flatMap fun row => f row.1 row.2) := by
  have hpush : ∀ (table : Join.Table κ α) (key : κ) (a : α),
      ((Join.push table key a).flatMap fun group => group.2.flatMap (f group.1)).Perm
        ((table.flatMap fun group => group.2.flatMap (f group.1)) ++ f key a) := by
    intro table key a
    induction table with
    | nil => simp [Join.push]
    | cons entry table ih =>
      obtain ⟨key', rows⟩ := entry
      by_cases h : key' = key
      · subst h
        simp only [Join.push, beq_self_eq_true, if_true, List.flatMap_cons, List.flatMap_append,
          List.flatMap_nil, List.append_nil, List.append_assoc]
        exact List.perm_append_comm.append_left _
      · have hkey : (key' == key) = false := by simpa using h
        simp only [Join.push, hkey, Bool.false_eq_true, if_false, List.flatMap_cons,
          List.append_assoc]
        exact ih.append_left _
  have hfold : ∀ (rows : List (κ × α)) (table : Join.Table κ α),
      ((Join.group table rows).flatMap fun group => group.2.flatMap (f group.1)).Perm
        ((table.flatMap fun group => group.2.flatMap (f group.1)) ++
          rows.flatMap fun row => f row.1 row.2) := by
    intro rows
    induction rows with
    | nil => intro table; simp [Join.group]
    | cons row rows ih =>
      intro table
      refine (ih (Join.push table row.1 row.2)).trans ?_
      rw [List.flatMap_cons, ← List.append_assoc]
      exact (hpush table row.1 row.2).append_right _
  exact hfold rows []

section

variable [DecidableEq κ]

theorem keys_push (table : Join.Table κ α) (key : κ) (a : α) :
    (Join.push table key a).map Prod.fst = addNew (table.map Prod.fst) key := by
  induction table with
  | nil => rfl
  | cons entry table ih =>
    obtain ⟨key', rows⟩ := entry
    by_cases h : key' = key
    · subst h
      simp [Join.push, addNew]
    · have hne : key ≠ key' := fun hkey => h hkey.symm
      have hpush : Join.push ((key', rows) :: table) key a =
          (key', rows) :: Join.push table key a := by
        rw [Join.push, if_neg]
        simpa using h
      rw [hpush, List.map_cons, ih]
      by_cases hmem : key ∈ table.map Prod.fst
      · simp only [addNew, List.map_cons, List.mem_cons, hmem, or_true, if_true]
      · simp only [addNew, List.map_cons, List.mem_cons, hmem, hne, or_self, if_false,
          List.cons_append]

/-- The keys of a table, in the order in which they come up. -/
theorem keys_group (rows : List (κ × α)) (table : Join.Table κ α) :
    (Join.group table rows).map Prod.fst =
      appendNew (table.map Prod.fst) (rows.map Prod.fst) := by
  induction rows generalizing table with
  | nil => rfl
  | cons row rows ih =>
    show (Join.group (Join.push table row.1 row.2) rows).map Prod.fst = _
    rw [ih, keys_push, List.map_cons, appendNew_cons]

/-- A table whose keys differ holds what a search finds. -/
theorem mem_table_iff {table : Join.Table κ α} (h : (table.map Prod.fst).Nodup) {key : κ}
    {rows : List α} :
    (key, rows) ∈ table ↔ key ∈ table.map Prod.fst ∧ rows = Join.lookup table key := by
  induction table with
  | nil => simp
  | cons entry table ih =>
    obtain ⟨key', rows'⟩ := entry
    obtain ⟨hnot, hnodup⟩ := List.nodup_cons.1 h
    by_cases hkey : key' = key
    · subst hkey
      have hno : (key', rows) ∉ table := fun hmem =>
        hnot (List.mem_map.2 ⟨_, hmem, rfl⟩)
      simp [Join.lookup, hno]
    · have hlookup : Join.lookup ((key', rows') :: table) key = Join.lookup table key := by
        simp [Join.lookup, hkey]
      have hne : key ≠ key' := fun h => hkey h.symm
      rw [hlookup, List.mem_cons, ih hnodup, List.map_cons, List.mem_cons]
      simp [hne]

/-- The groups of a list: the keys that come up, each with what comes up under it. -/
theorem mem_group {rows : List (κ × α)} {group : κ × List α} :
    group ∈ Join.group [] rows ↔ group.1 ∈ rows.map Prod.fst ∧
      group.2 = (rows.filter fun row => row.1 == group.1).map Prod.snd := by
  obtain ⟨key, members⟩ := group
  have hnodup : ((Join.group [] rows).map Prod.fst).Nodup := by
    rw [keys_group]
    exact nodup_appendNew List.nodup_nil
  rw [mem_table_iff hnodup, keys_group, mem_appendNew, Join.lookup_group]
  simp [Join.lookup]

variable (keyOf : α → κ) (le : κ → κ → Prop) [DecidableRel le]

/-- The elements grouped by a key, the groups sorted by their keys. -/
def sortedGroups (rows : List α) : Join.Table κ α :=
  (Join.group [] (rows.map fun a => (keyOf a, a))).insertionSort fun g g' => le g.1 g'.1

variable {keyOf le}

theorem nodup_keys_group (rows : List α) :
    ((Join.group [] (rows.map fun a => (keyOf a, a))).map Prod.fst).Nodup := by
  rw [keys_group]
  exact nodup_appendNew List.nodup_nil

theorem mem_sortedGroups {rows : List α} {group : κ × List α} :
    group ∈ sortedGroups keyOf le rows ↔
      group.1 ∈ rows.map keyOf ∧ group.2 = rows.filter fun a => keyOf a == group.1 := by
  obtain ⟨key, members⟩ := group
  rw [sortedGroups, List.mem_insertionSort, mem_table_iff (nodup_keys_group rows), keys_group,
    mem_appendNew, Join.lookup_group_map, List.map_map]
  simp [Function.comp_def]

/-- The keys of the sorted groups, in order. -/
theorem pairwise_sortedGroups [Std.Total le] [IsTrans κ le] (rows : List α) :
    ((sortedGroups keyOf le rows).map Prod.fst).Pairwise le := by
  rw [List.pairwise_map]
  have : Std.Total fun g g' : κ × List α => le g.1 g'.1 := ⟨fun g g' => Std.Total.total g.1 g'.1⟩
  have : IsTrans (κ × List α) fun g g' => le g.1 g'.1 := ⟨fun _ _ _ => IsTrans.trans _ _ _⟩
  exact List.pairwise_insertionSort _ _

theorem sortedGroups_eq (rows : List α) :
    sortedGroups keyOf le rows = ((sortedGroups keyOf le rows).map Prod.fst).map fun key =>
      (key, rows.filter fun a => keyOf a == key) := by
  rw [List.map_map]
  refine (List.map_id _).symm.trans (List.map_congr_left fun group hgroup => ?_)
  exact Prod.ext rfl (mem_sortedGroups.1 hgroup).2

/-- **Sorted groups do not depend on the order of the elements**, up to the order inside. -/
theorem sortedGroups_perm [Std.Total le] [IsTrans κ le] [Std.Antisymm le] {rows rows' : List α}
    (h : rows.Perm rows') :
    List.Forall₂ (fun g g' => g.1 = g'.1 ∧ g.2.Perm g'.2) (sortedGroups keyOf le rows)
      (sortedGroups keyOf le rows') := by
  have hnodup : ∀ rows : List α, ((sortedGroups keyOf le rows).map Prod.fst).Nodup := fun rows =>
    ((List.perm_insertionSort _ _).map Prod.fst).nodup_iff.2 (nodup_keys_group rows)
  have hmem : ∀ (rows : List α) (key : κ),
      key ∈ (sortedGroups keyOf le rows).map Prod.fst ↔ key ∈ rows.map keyOf := by
    intro rows key
    rw [sortedGroups, ((List.perm_insertionSort _ _).map Prod.fst).mem_iff, keys_group,
      mem_appendNew, List.map_map]
    simp [Function.comp_def]
  have hkeys : (sortedGroups keyOf le rows).map Prod.fst =
      (sortedGroups keyOf le rows').map Prod.fst := by
    refine List.Perm.eq_of_pairwise' (pairwise_sortedGroups rows) (pairwise_sortedGroups rows') ?_
    rw [List.perm_ext_iff_of_nodup (hnodup rows) (hnodup rows')]
    intro key
    rw [hmem, hmem, (h.map keyOf).mem_iff]
  rw [sortedGroups_eq rows, sortedGroups_eq rows', hkeys, List.forall₂_map_left_iff,
    List.forall₂_map_right_iff]
  exact List.forall₂_same.2 fun key _ => ⟨rfl, h.filter _⟩

end

end Grouping
