import Text2Cypher.Composition.Results

/-!
# Limits of composed results

What a composed result says of sources that are not complete, and what it would be without a limit
of rows.

* `composeSources_truncated`: the flag of a result that is no error;
* `composeSources_unlimited`: its total is the number of rows without a limit.
-/

namespace Composition

open Checks Planning Query

section

variable {V : Type}

/-- The rows of a result, those of its sections included. -/
def Composed.rowCount (composed : Composed V) : ℕ :=
  composed.rows.length + (composed.sections.values.map fun part => part.rows.length).sum

variable [PyValue V]

/-! ### The join without a limit -/

/-- What a limit does to the pairs of one left row: nothing to the count. -/
theorem joinRow_limit {joinKeys : List String} {n : ℕ} {left : Dict String V}
    {rights rows rows' : List (Dict String V)} {count count' : ℕ}
    (h : joinRow joinKeys n left (rows, count) rights = .ok (rows', count')) (n' : ℕ)
    {others : List (Dict String V)} (hothers : others.length = min n' count) :
    ∃ others', joinRow joinKeys n' left (others, count) rights = .ok (others', count') ∧
      others'.length = min n' count' := by
  induction rights generalizing rows count others with
  | nil =>
    obtain ⟨-, rfl⟩ := Prod.mk.inj (Except.ok.inj h)
    exact ⟨others, rfl, hothers⟩
  | cons right rights ih =>
    simp only [joinRow, bind_eq_ok] at h ⊢
    obtain ⟨merged, hmerged, h⟩ := h
    have hlength : (if others.length < n' then others ++ [merged] else others).length =
        min n' (count + 1) := by
      split_ifs
      · rw [List.length_append, List.length_singleton]
        omega
      · omega
    obtain ⟨others', hothers', hlength'⟩ := ih h hlength
    exact ⟨others', ⟨merged, hmerged, hothers'⟩, hlength'⟩

/-- The same for all left rows. -/
theorem joinRows_limit {joinKeys : List String} {n : ℕ}
    {table : Join.Table (List V) (Dict String V)} {keyed : List (List V × Dict String V)}
    {rows rows' : List (Dict String V)} {count count' : ℕ}
    (h : joinRows joinKeys n table (rows, count) keyed = .ok (rows', count')) (n' : ℕ)
    {others : List (Dict String V)} (hothers : others.length = min n' count) :
    ∃ others', joinRows joinKeys n' table (others, count) keyed = .ok (others', count') ∧
      others'.length = min n' count' := by
  induction keyed generalizing rows count others with
  | nil =>
    obtain ⟨-, rfl⟩ := Prod.mk.inj (Except.ok.inj h)
    exact ⟨others, rfl, hothers⟩
  | cons entry keyed ih =>
    obtain ⟨key, left⟩ := entry
    simp only [joinRows, bind_eq_ok] at h ⊢
    obtain ⟨⟨rows₁, count₁⟩, hrow, h⟩ := h
    obtain ⟨others₁, hothers₁, hlength₁⟩ := joinRow_limit hrow n' hothers
    obtain ⟨others', hothers', hlength'⟩ := ih h hlength₁
    exact ⟨others', ⟨(others₁, count₁), hothers₁, hothers'⟩, hlength'⟩

theorem joinSources_unlimited {first second : Subquery} {left right : SourceRows V} {n : ℕ}
    {composed : Composed V} (h : joinSources first second left right n = .ok composed) :
    composed.mode = .joined ∧ composed.error = none ∧ ∀ n', composed.totalCount ≤ n' →
      ∃ composed', joinSources first second left right n' = .ok composed' ∧
        composed'.error = none ∧ composed'.rowCount = composed.totalCount := by
  simp only [joinSources, bind_eq_ok] at h ⊢
  obtain ⟨keyed, hkeyed, table, htable, h⟩ := h
  by_cases hempty : left.rows = [] ∨ right.rows = []
  · rw [if_pos hempty] at h
    refine ⟨?_, ?_, fun n' _ => ⟨composed, ⟨keyed, hkeyed, table, htable, ?_⟩, ?_, ?_⟩⟩
    · obtain rfl := pure_eq_ok.1 h
      rfl
    · obtain rfl := pure_eq_ok.1 h
      rfl
    · rw [if_pos hempty]
      exact h
    · obtain rfl := pure_eq_ok.1 h
      rfl
    · obtain rfl := pure_eq_ok.1 h
      rfl
  · rw [if_neg hempty] at h
    simp only [bind_eq_ok, pure_eq_ok] at h
    obtain ⟨⟨rows, count⟩, hrows, rfl⟩ := h
    refine ⟨rfl, rfl, fun n' hn' => ?_⟩
    obtain ⟨others, hothers, hlength⟩ := joinRows_limit hrows n' (show [].length = min n' 0 by simp)
    refine ⟨{
      mode := .joined
      transform := none
      rows := others
      sections := .empty
      error := none
      emptyReason := if count = 0 then some .noData else none
      totalCount := count
      truncated := decide (others.length < count) }, ⟨keyed, hkeyed, table, htable, ?_⟩, rfl, ?_⟩
    · rw [if_neg hempty]
      exact bind_eq_ok.2 ⟨(others, count), hothers, rfl⟩
    · show others.length + 0 = count
      dsimp only at hn'
      omega

/-! ### All modes -/

variable [PyBuild V]

/-- The flag of a composed result: what the sources say, or nothing of them in a join. -/
theorem composeSources_truncated {mode : Mode} {subqueries : List Subquery}
    {sources : List (SourceRows V)} {n : ℕ}
    {transform : Option (BomShortageTransform V × TransformSpec)} {composed : Composed V}
    (h : composeSources mode subqueries sources n transform = .ok composed)
    (herror : composed.error = none) :
    composed.mode ≠ .joined ∧ composed.truncated = sources.any SourceRows.truncated ∨
      composed.mode = .joined ∧ ∀ source ∈ sources, source.truncated = false := by
  unfold composeSources at h
  split at h
  · rename_i transform spec graph sql
    unfold composeBomShortage at h
    dsimp only at h
    by_cases htruncated : graph.truncated = true ∨ sql.truncated = true
    · rw [if_pos htruncated] at h
      obtain rfl := Except.ok.inj h
      cases herror
    · rw [if_neg htruncated] at h
      have hcomplete : ∀ source ∈ [graph, sql], source.truncated = false := by
        simpa [not_or] using htruncated
      refine Or.inr ⟨?_, hcomplete⟩
      split_ifs at h
      · obtain rfl := Except.ok.inj h
        rfl
      · split at h
        · split_ifs at h
          obtain rfl := Except.ok.inj h
          cases herror
        · obtain rfl := Except.ok.inj h
          rfl
  · rename_i source
    obtain rfl := Except.ok.inj h
    exact Or.inl ⟨by simp [composeSingle], by simp [composeSingle]⟩
  · rename_i first second left right
    split_ifs at h with hmode
    · obtain rfl := Except.ok.inj h
      exact Or.inl ⟨by simp [composeSeparate], rfl⟩
    · unfold composeJoined at h
      by_cases htruncated : left.truncated = true ∨ right.truncated = true
      · rw [if_pos htruncated] at h
        obtain rfl := Except.ok.inj h
        cases herror
      · rw [if_neg htruncated] at h
        have hcomplete : ∀ source ∈ [left, right], source.truncated = false := by
          simpa [not_or] using htruncated
        refine Or.inr ⟨?_, hcomplete⟩
        cases hjoin : joinSources first second left right n with
        | ok joined =>
          rw [hjoin] at h
          obtain rfl := Except.ok.inj h
          exact (joinSources_unlimited hjoin).1
        | error stop =>
          rw [hjoin] at h
          cases stop with
          | failure message =>
            obtain rfl := Except.ok.inj h
            cases herror
          | raised exception => cases h
  · obtain rfl := Except.ok.inj h
    cases herror

/-- Sources that are not complete make nothing raise. -/
theorem exists_composeSources (mode : Mode) (subqueries : List Subquery)
    {sources : List (SourceRows V)} (h : ∃ source ∈ sources, source.truncated = true) (n : ℕ)
    (transform : Option (BomShortageTransform V × TransformSpec)) :
    ∃ composed, composeSources mode subqueries sources n transform = .ok composed := by
  have hpair : ∀ {a b : SourceRows V}, (∃ source ∈ [a, b], source.truncated = true) →
      a.truncated = true ∨ b.truncated = true := by
    rintro a b ⟨source, hmem, htruncated⟩
    rcases List.mem_cons.1 hmem with rfl | hmem
    · exact Or.inl htruncated
    · exact Or.inr (List.mem_singleton.1 hmem ▸ htruncated)
  unfold composeSources
  split
  · rw [composeBomShortage, if_pos (hpair h)]
    exact ⟨_, rfl⟩
  · exact ⟨_, rfl⟩
  · split_ifs
    · exact ⟨_, rfl⟩
    · rw [composeJoined, if_pos (hpair h)]
      exact ⟨_, rfl⟩
  · exact ⟨_, rfl⟩

/-- **The total of a composed result** is the number of rows that it would have without a limit. -/
theorem composeSources_unlimited {mode : Mode} {subqueries : List Subquery}
    {sources : List (SourceRows V)} {n : ℕ}
    {transform : Option (BomShortageTransform V × TransformSpec)} {composed : Composed V}
    (h : composeSources mode subqueries sources n transform = .ok composed)
    (herror : composed.error = none) (hids : (subqueries.map Subquery.id).Nodup) :
    ∀ n', composed.totalCount ≤ n' →
      ∃ composed', composeSources mode subqueries sources n' transform = .ok composed' ∧
        composed'.error = none ∧ composed'.rowCount = composed.totalCount := by
  intro n' hn'
  unfold composeSources at h ⊢
  split at h
  · rename_i transform spec graph sql
    unfold composeBomShortage at h ⊢
    dsimp only at h ⊢
    by_cases htruncated : graph.truncated = true ∨ sql.truncated = true
    · rw [if_pos htruncated] at h
      obtain rfl := Except.ok.inj h
      cases herror
    · rw [if_neg htruncated] at h ⊢
      by_cases hempty : graph.rows = [] ∧ sql.rows = []
      · rw [if_pos hempty] at h ⊢
        obtain rfl := Except.ok.inj h
        exact ⟨_, rfl, rfl, rfl⟩
      · rw [if_neg hempty] at h ⊢
        split at h
        · split_ifs at h
          obtain rfl := Except.ok.inj h
          cases herror
        · rename_i finalRows hfinal
          obtain rfl := Except.ok.inj h
          refine ⟨_, rfl, rfl, ?_⟩
          dsimp only at hn'
          simp only [Composed.rowCount, List.length_map, List.length_take]
          show min n' finalRows.length + 0 = finalRows.length
          omega
  · rename_i source
    obtain rfl := Except.ok.inj h
    exact ⟨_, rfl, rfl, rfl⟩
  · rename_i first second left right
    split_ifs at h ⊢ with hmode
    · obtain rfl := Except.ok.inj h
      refine ⟨_, rfl, rfl, ?_⟩
      have hne : second.id ≠ first.id := by
        intro heq
        simp [heq] at hids
      have hvalues : ((Dict.empty.set first.id (⟨first.tool, left.rows,
          if left.rows = [] then left.emptyReason else none⟩ : Section V)).set second.id
            ⟨second.tool, right.rows, if right.rows = [] then right.emptyReason else none⟩).values =
          [⟨first.tool, left.rows, if left.rows = [] then left.emptyReason else none⟩,
            ⟨second.tool, right.rows, if right.rows = [] then right.emptyReason else none⟩] := by
        have hfirst : second.id ∉ (Dict.empty.set first.id (⟨first.tool, left.rows,
            if left.rows = [] then left.emptyReason else none⟩ : Section V)).keys := by
          rw [Dict.mem_keys_set]
          simp [hne]
        rw [Dict.values, Dict.entries_set_of_not_mem hfirst,
          Dict.entries_set_of_not_mem (by simp)]
        rfl
      simp only [Composed.rowCount, composeSeparate, List.zip_cons_cons, List.zip_nil_right,
        List.foldl_cons, List.foldl_nil, hvalues, List.map_cons, List.map_nil, List.length_nil,
        zero_add]
    · unfold composeJoined at h ⊢
      by_cases htruncated : left.truncated = true ∨ right.truncated = true
      · rw [if_pos htruncated] at h
        obtain rfl := Except.ok.inj h
        cases herror
      · rw [if_neg htruncated] at h ⊢
        cases hjoin : joinSources first second left right n with
        | ok joined =>
          rw [hjoin] at h
          obtain rfl := Except.ok.inj h
          obtain ⟨composed', hjoin', herror', hcount⟩ := (joinSources_unlimited hjoin).2.2 n' hn'
          rw [hjoin']
          exact ⟨composed', rfl, herror', hcount⟩
        | error stop =>
          rw [hjoin] at h
          cases stop with
          | failure message =>
            obtain rfl := Except.ok.inj h
            cases herror
          | raised exception => cases h
  · obtain rfl := Except.ok.inj h
    cases herror

/-! ### Whole compositions -/

omit [PyBuild V] in
/-- The sources of the subqueries, one after the other. -/
theorem forall₂_of_allSourceRows {toolResults : ToolName → Option (Source V)}
    {subqueries : List Subquery} {sources : List (SourceRows V)}
    (h : allSourceRows toolResults subqueries = .ok sources) :
    List.Forall₂ (fun subquery source =>
      sourceRows subquery (toolResults subquery.tool) = .ok source) subqueries sources := by
  induction subqueries generalizing sources with
  | nil =>
    obtain rfl := Except.ok.inj h
    exact .nil
  | cons subquery rest ih =>
    simp only [allSourceRows, bind_eq_ok, pure_eq_ok] at h
    obtain ⟨source, hsource, others, hothers, rfl⟩ := h
    exact .cons hsource (ih hothers)

omit [PyBuild V] in
theorem allSourceRows_congr {toolResults toolResults' : ToolName → Option (Source V)}
    {subqueries : List Subquery}
    (h : ∀ subquery ∈ subqueries, toolResults subquery.tool = toolResults' subquery.tool) :
    allSourceRows toolResults subqueries = allSourceRows toolResults' subqueries := by
  induction subqueries with
  | nil => rfl
  | cons subquery rest ih =>
    rw [allSourceRows, allSourceRows, h subquery List.mem_cons_self,
      ih fun q hq => h q (List.mem_cons_of_mem subquery hq)]

variable {toolResults : ToolName → Option (Source V)} {rowLimit : ℤ}
  {resultTransform : Option (BomShortageTransform V)}
  {semanticCatalog : Option (Dict String TransformSpec)}

/-- The part of a composition in front of the sources. -/
structure Composes (subqueries : List Subquery) (rowLimit : ℤ)
    (resultTransform : Option (BomShortageTransform V))
    (semanticCatalog : Option (Dict String TransformSpec)) (mode : Mode)
    (transform : Option (BomShortageTransform V × TransformSpec)) : Prop where
  mode : modeOf subqueries = .ok mode
  rowLimit : 0 ≤ rowLimit
  transform : validateResultTransform resultTransform subqueries semanticCatalog = .ok transform

theorem Composes.composeResults_eq {subqueries : List Subquery} {mode : Mode}
    {transform : Option (BomShortageTransform V × TransformSpec)}
    (h : Composes subqueries rowLimit resultTransform semanticCatalog mode transform)
    {sources : List (SourceRows V)} (hsources : allSourceRows toolResults subqueries = .ok sources) :
    composeResults subqueries toolResults rowLimit resultTransform semanticCatalog =
      composeSources mode subqueries sources rowLimit.toNat transform := by
  rw [composeResults, h.mode]
  dsimp only
  rw [if_neg (Int.not_lt.2 h.rowLimit), h.transform]
  dsimp only
  rw [hsources]

/-- A composition is that of its sources, unless it ends with an error before. -/
theorem composeResults_cases (rowLimit : ℤ)
    (resultTransform : Option (BomShortageTransform V))
    (semanticCatalog : Option (Dict String TransformSpec)) (subqueries : List Subquery)
    (hsettled : Settled (allSourceRows toolResults subqueries)) :
    (∃ composed, composeResults subqueries toolResults rowLimit resultTransform semanticCatalog =
      .ok composed ∧ composed.error ≠ none) ∨
    ∃ mode transform sources,
      Composes subqueries rowLimit resultTransform semanticCatalog mode transform ∧
        allSourceRows toolResults subqueries = .ok sources := by
  unfold composeResults
  cases hmode : modeOf subqueries with
  | error problem => exact Or.inl ⟨_, rfl, Option.some_ne_none _⟩
  | ok mode =>
    dsimp only
    by_cases hlimit : rowLimit < 0
    · rw [if_pos hlimit]
      exact Or.inl ⟨_, rfl, Option.some_ne_none _⟩
    · rw [if_neg hlimit]
      cases htransform : validateResultTransform resultTransform subqueries semanticCatalog with
      | error message => exact Or.inl ⟨_, rfl, Option.some_ne_none _⟩
      | ok transform =>
        dsimp only
        cases hsources : allSourceRows toolResults subqueries with
        | ok sources =>
          exact Or.inr ⟨mode, transform, sources, ⟨hmode, by omega, htransform⟩, rfl⟩
        | error stop =>
          cases stop with
          | failure message => exact Or.inl ⟨_, rfl, Option.some_ne_none _⟩
          | raised exception => exact absurd hsources (hsettled exception)

end

end Composition
