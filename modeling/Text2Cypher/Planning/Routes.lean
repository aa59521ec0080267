import Text2Cypher.Planning.Validation

/-!
# Accepted routes

What `validate_route_subqueries` has checked about a route that it returns.  It asks less of the
binding sources than `validate_subqueries`: the ID of a source may be any text.
-/

namespace Planning

open Checks

variable {repr : Json → String}

/-- What `validate_route_subqueries` asks of an entry by itself.  A source ID is not checked, so a
compiled source may have more than one dot. -/
structure RouteItemOk (sharedJoinAliases : List String) (item : RouteSubquery) : Prop where
  id : isSafeIdentifier item.id = true
  question : isBlank item.question = false
  dependsOn : StringsOk item.dependsOn
  joinKeys : StringsOk item.joinKeys
  shared : ∀ key ∈ item.joinKeys, key ∈ sharedJoinAliases
  bindings : ∀ entry ∈ item.inputBindings.entries, isSafeIdentifier entry.1 = true ∧
    ∃ sourceId sourceOutput, entry.2 = sourceId ++ "." ++ sourceOutput ∧
      isSafeIdentifier sourceOutput = true

theorem bindingOf_eq_ok {subqueryId : String} {index : ℕ} {rawBinding : Json}
    {target sourceId sourceOutput : String}
    (h : bindingOf repr subqueryId index rawBinding = .ok (target, sourceId, sourceOutput)) :
    isSafeIdentifier target = true ∧ isSafeIdentifier sourceOutput = true := by
  unfold bindingOf at h
  dsimp only at h
  split at h
  · split_ifs at h with hshape
    split at h
    · split_ifs at h with hvalues
      cases h
      exact ⟨hvalues.1, hvalues.2.2⟩
    · cases h
  · cases h

theorem compileBindings_spec {subqueryId : String} {index : ℕ} {compiled result : Dict String String}
    {rawBindings : List Json} {P : String × String → Prop}
    (hP : ∀ target sourceId sourceOutput, isSafeIdentifier target = true →
      isSafeIdentifier sourceOutput = true → P (target, sourceId ++ "." ++ sourceOutput))
    (hcompiled : ∀ entry ∈ compiled.entries, P entry)
    (h : compileBindings repr subqueryId index compiled rawBindings = .ok result) :
    ∀ entry ∈ result.entries, P entry := by
  induction rawBindings generalizing index compiled with
  | nil =>
    obtain rfl := Except.ok.inj h
    exact hcompiled
  | cons rawBinding rest ih =>
    simp only [compileBindings, bind_eq_ok, require_eq_ok] at h
    obtain ⟨⟨target, sourceId, sourceOutput⟩, hbinding, _, hnew, hrest⟩ := h
    obtain ⟨htarget, houtput⟩ := bindingOf_eq_ok hbinding
    refine ih ?_ hrest
    rw [Dict.entries_set_of_not_mem hnew]
    intro entry hentry
    rcases List.mem_append.1 hentry with hentry | hentry
    · exact hcompiled entry hentry
    · rw [List.mem_singleton.1 hentry]
      exact hP target sourceId sourceOutput htarget houtput

theorem headOf_eq_ok {index : ℕ} {fields : List (String × Json)} {id question : String}
    {tool : ToolName} (h : headOf repr index fields = .ok (id, tool, question)) :
    isSafeIdentifier id = true ∧ isBlank question = false := by
  unfold headOf at h
  split at h
  · simp only [bind_eq_ok, require_eq_ok] at h
    obtain ⟨_, hid, h⟩ := h
    split at h
    · cases h
    · cases h
    · cases h
    · split at h
      · simp only [bind_eq_ok, require_eq_ok, pure_eq_ok, Prod.mk.injEq] at h
        obtain ⟨_, hquestion, rfl, rfl, rfl⟩ := h
        exact ⟨hid, hquestion⟩
      · cases h
  · cases h

theorem routeItemOk_of_validateRouteItem {sharedJoinAliases : List String} {index : ℕ} {raw : Json}
    {item : RouteSubquery} (h : validateRouteItem repr sharedJoinAliases index raw = .ok item) :
    RouteItemOk sharedJoinAliases item := by
  unfold validateRouteItem at h
  split at h
  · simp only [bind_eq_ok, require_eq_ok, stringList_eq_ok, pure_eq_ok] at h
    obtain ⟨_, -, ⟨id, tool, question⟩, hhead, dependsOn, ⟨-, hdeps⟩, joinKeys, ⟨-, hkeys⟩, _,
      hshared, bindings, hbindings, rfl⟩ := h
    obtain ⟨hid, hquestion⟩ := headOf_eq_ok hhead
    refine ⟨hid, hquestion, hdeps, hkeys, ?_, ?_⟩
    · intro key hkey
      simpa using List.filter_eq_nil_iff.1 hshared key hkey
    · unfold compileBindingArray at hbindings
      split at hbindings
      · refine compileBindings_spec ?_ (by simp [Dict.empty]) hbindings
        exact fun target sourceId sourceOutput htarget houtput =>
          ⟨htarget, sourceId, sourceOutput, rfl, houtput⟩
      · cases hbindings
  · cases h

theorem checkRouteBinding_spec {catalog : QuerySemanticCatalog} {items : List RouteSubquery}
    {item : RouteSubquery} {source : String}
    (h : checkRouteBinding repr (some catalog) items item source = .ok ()) :
    ∃ dependencyId output producer, splitDot source = some (dependencyId, output) ∧
      dependencyId ∈ item.dependsOn ∧ producer ∈ items ∧ producer.id = dependencyId ∧
      output ∈ catalog.allowedAliases producer.tool := by
  unfold checkRouteBinding at h
  split at h
  · cases h
  · rename_i dependencyId output hsplit
    simp only [bind_eq_ok, require_eq_ok] at h
    obtain ⟨_, hdep, h⟩ := h
    split at h
    · cases h
    · rename_i producer hfind
      have hid : producer.id = dependencyId := by simpa using List.find?_some hfind
      exact ⟨dependencyId, output, producer, hsplit, hdep, List.mem_of_find?_eq_some hfind, hid,
        by simpa using h⟩

/-- A route in order, over a catalog. -/
structure ValidRoute (catalog : QuerySemanticCatalog) (route : List RouteSubquery) : Prop where
  nonempty : route ≠ []
  length : route.length ≤ maxSubqueries
  ids : (route.map RouteSubquery.id).Nodup
  tools : (route.map RouteSubquery.tool).Nodup
  items : ∀ item ∈ route, RouteItemOk catalog.sharedJoinAliases item
  wired : ∀ item ∈ route, Wired RouteSubquery.id route
    (fun producer output => output ∈ catalog.allowedAliases producer.tool) item.id item.dependsOn
    item.inputBindings
  ordered : Waves.Ordered RouteSubquery.id RouteSubquery.dependsOn [] route
  order : Waves.order RouteSubquery.id RouteSubquery.dependsOn cyclicDependency route = .ok route
  joinKeys : checkJoinKeys (route.map RouteSubquery.joinKeys) = .ok ()

/-- **What an accepted route satisfies.** -/
theorem validRoute_of_validateRouteSubqueries {catalog : QuerySemanticCatalog} {subqueries : Json}
    {route : List RouteSubquery}
    (h : validateRouteSubqueries repr catalog.sharedJoinAliases (some catalog) subqueries =
      .ok route) : ValidRoute catalog route := by
  simp only [validateRouteSubqueries, checkUnique, bind_eq_ok, pure_eq_ok, forEach_eq_ok,
    require_eq_ok, itemsOf_eq_ok, topologicalOrder_eq_ok] at h
  obtain ⟨items, ⟨rfl, hne, hlength⟩, validated, hvalidated, _, ⟨_, hids, htools⟩, _, hchecks, _,
    ⟨-, horder⟩, _, hkeys, rfl⟩ := h
  obtain ⟨hperm, hordered, hagain⟩ := Waves.order_spec hids horder
  have hforall := forall₂_of_numbered hvalidated
  refine ⟨?_, ?_, (hperm.map _).nodup_iff.2 hids, (hperm.map _).nodup_iff.2 htools, ?_, ?_,
    hordered, hagain, hkeys⟩
  · rintro rfl
    rw [← List.length_pos_iff, hforall.length_eq, ← hperm.length_eq] at hne
    simp at hne
  · rw [hperm.length_eq, ← hforall.length_eq]
    exact hlength
  · intro item hitem
    obtain ⟨raw, -, index, hraw⟩ := exists_of_forall₂ hforall (hperm.mem_iff.1 hitem)
    exact routeItemOk_of_validateRouteItem hraw
  · intro item hitem
    have hcheck := hchecks item (hperm.mem_iff.1 hitem)
    simp only [checkRouteItem, bind_eq_ok, require_eq_ok, forEach_eq_ok] at hcheck
    obtain ⟨_, ⟨hother, hknown⟩, _, hbound, hcovered⟩ := hcheck
    exact (Wired.mk hother hknown (fun source hsource => checkRouteBinding_spec (hbound source hsource))
      hcovered).perm hperm.symm

end Planning
