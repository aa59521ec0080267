import Mathlib.Data.List.Forall2
import Mathlib.Data.List.Pairwise
import Mathlib.Logic.Function.Basic

/-!
# Property graphs and the clauses that write them

A property graph has labelled nodes and typed relationships between them, both with properties.
A query is a list of clauses; each clause runs over a table of scopes (a row, and what the variables
stand for), and may change the graph on its way through the table.

* `Clause`, `runQuery`: `MATCH`, `MERGE` and `SET` over the rows of an `UNWIND`;
* `each_mergeNode`, `each_mergeRelationship`: a `MERGE` that finds nothing creates one entity for
  each scope;
* `each_set`, `runQuery_sets`: a `SET` changes nothing but its property;
* `runQuery_labels`: only a `MERGE` of nodes changes the labels that there are.
-/

namespace PropertyGraph

variable {ν : Type}

structure Node (ν : Type) where
  label : String
  props : String → ν

/-- A relationship, with the numbers of its nodes. -/
structure Relationship (ν : Type) where
  type : String
  source : ℕ
  target : ℕ
  props : String → ν

/-- Nodes and relationships, numbered in the order of their creation. -/
structure Graph (ν : Type) where
  nodes : List (Node ν)
  relationships : List (Relationship ν)

def Graph.empty : Graph ν := ⟨[], []⟩

/-- What a query is run with: the absent value, what `=` finds true, the parameters and the
functions. -/
structure Context (ν : Type) where
  null : ν
  isNull : ν → Bool
  same : ν → ν → Bool
  parameter : String → ν
  call : String → ν → ν

inductive Expr
  | column (name : String)
  | parameter (name : String)
  | call (function : String) (argument : Expr)
  /-- `CASE WHEN test IS NULL THEN NULL ELSE otherwise END` -/
  | unlessNull (test otherwise : Expr)
  deriving DecidableEq

def Expr.eval (c : Context ν) (row : String → ν) : Expr → ν
  | .column name => row name
  | .parameter name => c.parameter name
  | .call function argument => c.call function (argument.eval c row)
  | .unlessNull test otherwise =>
    if c.isNull (test.eval c row) then c.null else otherwise.eval c row

/-- What a variable stands for. -/
inductive Entity
  | node (i : ℕ)
  | relationship (i : ℕ)
  deriving DecidableEq

/-- A line of the table that a clause runs over. -/
structure Scope (ν : Type) where
  row : String → ν
  vars : String → Option Entity

def Scope.bind (s : Scope ν) (var : String) (e : Entity) : Scope ν :=
  { s with vars := Function.update s.vars var (some e) }

@[simp] theorem Scope.bind_row (s : Scope ν) (var : String) (e : Entity) :
    (s.bind var e).row = s.row := rfl

@[simp] theorem Scope.bind_vars_self (s : Scope ν) (var : String) (e : Entity) :
    (s.bind var e).vars var = some e := Function.update_self ..

theorem Scope.bind_vars_of_ne (s : Scope ν) {var var' : String} (h : var' ≠ var) (e : Entity) :
    (s.bind var e).vars var' = s.vars var' := Function.update_of_ne h ..

/-- `UNWIND $rows AS row`. -/
def unwind (rows : List (String → ν)) : List (Scope ν) := rows.map fun row => ⟨row, fun _ => none⟩

inductive Clause
  /-- `MATCH (var:label {prop: key})` -/
  | matchNode (var label prop : String) (key : Expr)
  /-- `MERGE (var:label {prop: key})` -/
  | mergeNode (var label prop : String) (key : Expr)
  /-- `MERGE (source)-[var:type {prop: key}]->(target)`, with or without a property -/
  | mergeRelationship (source var type : String) (key : Option (String × Expr)) (target : String)
  /-- `SET var.prop = value` -/
  | set (var prop : String) (value : Expr)
  deriving DecidableEq

/-- A node with the label whose property is the value. -/
def Node.answers (c : Context ν) (label prop : String) (value : ν) (n : Node ν) : Bool :=
  decide (n.label = label) && c.same (n.props prop) value

/-- The numbers of the nodes that answer a pattern. -/
def Graph.nodeMatches (c : Context ν) (g : Graph ν) (label prop : String) (value : ν) : List ℕ :=
  (List.range g.nodes.length).filter fun i => g.nodes[i]?.any (Node.answers c label prop value)

/-- A relationship of the type between the nodes, with the property if there is one. -/
def Relationship.answers (c : Context ν) (type : String) (key : Option (String × Expr))
    (source target : ℕ) (row : String → ν) (r : Relationship ν) : Bool :=
  decide (r.type = type ∧ r.source = source ∧ r.target = target) &&
    key.all fun k => c.same (r.props k.1) (k.2.eval c row)

def Graph.relationshipMatches (c : Context ν) (g : Graph ν) (type : String)
    (key : Option (String × Expr)) (source target : ℕ) (row : String → ν) : List ℕ :=
  (List.range g.relationships.length).filter fun i =>
    g.relationships[i]?.any (Relationship.answers c type key source target row)

/-- A node with one property. -/
def newNode (c : Context ν) (label prop : String) (value : ν) : Node ν :=
  ⟨label, Function.update (fun _ => c.null) prop value⟩

def newRelationship (c : Context ν) (type : String) (key : Option (String × Expr))
    (source target : ℕ) (row : String → ν) : Relationship ν where
  type := type
  source := source
  target := target
  props :=
    match key with
    | none => fun _ => c.null
    | some (prop, value) => Function.update (fun _ => c.null) prop (value.eval c row)

/-- What a clause does for one line of its table: the graph after it, and the lines it leaves. -/
def Clause.step (c : Context ν) (g : Graph ν) (s : Scope ν) :
    Clause → Option (Graph ν × List (Scope ν))
  | .matchNode var label prop key =>
    some (g, (g.nodeMatches c label prop (key.eval c s.row)).map fun i => s.bind var (.node i))
  | .mergeNode var label prop key =>
    let value := key.eval c s.row
    if c.isNull value then none
    else
      match g.nodeMatches c label prop value with
      | [] =>
        some (⟨g.nodes ++ [newNode c label prop value], g.relationships⟩,
          [s.bind var (.node g.nodes.length)])
      | found => some (g, found.map fun i => s.bind var (.node i))
  | .mergeRelationship source var type key target =>
    match s.vars source, s.vars target with
    | some (.node i), some (.node j) =>
      if key.any fun k => c.isNull (k.2.eval c s.row) then none
      else
        match g.relationshipMatches c type key i j s.row with
        | [] =>
          some (⟨g.nodes, g.relationships ++ [newRelationship c type key i j s.row]⟩,
            [s.bind var (.relationship g.relationships.length)])
        | found => some (g, found.map fun i => s.bind var (.relationship i))
    | _, _ => none
  | .set var prop value =>
    match s.vars var with
    | some (.node i) =>
      some (⟨g.nodes.modify i fun n =>
        { n with props := Function.update n.props prop (value.eval c s.row) }, g.relationships⟩, [s])
    | some (.relationship i) =>
      some (⟨g.nodes, g.relationships.modify i fun r =>
        { r with props := Function.update r.props prop (value.eval c s.row) }⟩, [s])
    | none => none

/-- A clause goes through its table line by line. -/
def Clause.each (c : Context ν) (clause : Clause) :
    Graph ν → List (Scope ν) → Option (Graph ν × List (Scope ν))
  | g, [] => some (g, [])
  | g, s :: table => do
    let (g, here) ← clause.step c g s
    let (g, rest) ← clause.each c g table
    some (g, here ++ rest)

/-- The clauses of a query run one after the other, each over the whole table. -/
def runQuery (c : Context ν) : List Clause → Graph ν → List (Scope ν) →
    Option (Graph ν × List (Scope ν))
  | [], g, table => some (g, table)
  | clause :: clauses, g, table => do
    let (g, table) ← clause.each c g table
    runQuery c clauses g table

/-! ### Patterns -/

section

variable {c : Context ν} {g : Graph ν}

theorem nodeMatches_eq_nil {label prop : String} {value : ν}
    (h : ∀ n ∈ g.nodes, n.answers c label prop value = false) :
    g.nodeMatches c label prop value = [] := by
  refine List.filter_eq_nil_iff.2 fun i _ => ?_
  cases hn : g.nodes[i]? with
  | none => simp
  | some n => simp [h n (List.mem_of_getElem? hn)]

/-- A pattern that one node answers finds its number. -/
theorem nodeMatches_eq_singleton {label prop : String} {value : ν} {i : ℕ} {n : Node ν}
    (hn : g.nodes[i]? = some n) (hanswers : n.answers c label prop value = true)
    (hunique : ∀ j n', g.nodes[j]? = some n' → n'.answers c label prop value = true → j = i) :
    g.nodeMatches c label prop value = [i] := by
  have hmem : i ∈ g.nodeMatches c label prop value := by
    refine List.mem_filter.2 ⟨?_, by simp [hn, hanswers]⟩
    exact List.mem_range.2 (List.getElem?_eq_some_iff.1 hn).1
  have hall : ∀ j ∈ g.nodeMatches c label prop value, j = i := by
    intro j hj
    obtain ⟨-, hj⟩ := List.mem_filter.1 hj
    cases hn' : g.nodes[j]? with
    | none =>
      rw [hn'] at hj
      cases hj
    | some n' =>
      rw [hn'] at hj
      exact hunique j n' hn' (by simpa using hj)
  have hnodup : (g.nodeMatches c label prop value).Nodup := List.nodup_range.filter _
  rw [List.eq_replicate_of_mem hall] at hnodup hmem ⊢
  have hlength := List.nodup_replicate.1 hnodup
  have hpos : 0 < (g.nodeMatches c label prop value).length := by
    rw [List.mem_replicate] at hmem
    omega
  rw [show (g.nodeMatches c label prop value).length = 1 by omega]
  rfl

theorem relationshipMatches_eq_nil {type : String} {key : Option (String × Expr)} {i j : ℕ}
    {row : String → ν} (h : ∀ r ∈ g.relationships, r.answers c type key i j row = false) :
    g.relationshipMatches c type key i j row = [] := by
  refine List.filter_eq_nil_iff.2 fun k _ => ?_
  cases hr : g.relationships[k]? with
  | none => simp
  | some r => simp [h r (List.mem_of_getElem? hr)]

end

/-! ### Clauses over a table -/

section

variable (c : Context ν)

/-- A `MATCH` that finds one node for each line binds it. -/
theorem each_matchNode (var : String) {label prop : String} (key : Expr) {g : Graph ν}
    {table : List (Scope ν)}
    (h : ∀ s ∈ table, ∃ i, g.nodeMatches c label prop (key.eval c s.row) = [i]) :
    ∃ table', (Clause.matchNode var label prop key).each c g table = some (g, table') ∧
      List.Forall₂ (fun s s' => ∃ i, g.nodeMatches c label prop (key.eval c s.row) = [i] ∧
        s' = s.bind var (.node i)) table table' := by
  induction table with
  | nil => exact ⟨[], rfl, .nil⟩
  | cons s table ih =>
    obtain ⟨i, hi⟩ := h s List.mem_cons_self
    obtain ⟨table', heach, hall⟩ := ih fun s hs => h s (List.mem_cons_of_mem _ hs)
    refine ⟨s.bind var (.node i) :: table', ?_, .cons ⟨i, hi, rfl⟩ hall⟩
    simp only [Clause.each, Clause.step, hi, List.map_cons, List.map_nil, Option.bind_eq_bind,
      Option.bind_some, heach, List.singleton_append]

/-- **A `MERGE` of nodes that are not there creates one for each line.** -/
theorem each_mergeNode (var : String) {label prop : String} (key : Expr) {g : Graph ν}
    {table : List (Scope ν)} (hnull : ∀ s ∈ table, c.isNull (key.eval c s.row) = false)
    (hfresh : ∀ s ∈ table, ∀ n ∈ g.nodes, n.answers c label prop (key.eval c s.row) = false)
    (hapart : table.Pairwise fun s t => c.same (key.eval c s.row) (key.eval c t.row) = false) :
    ∃ g' table', (Clause.mergeNode var label prop key).each c g table = some (g', table') ∧
      (g'.nodes = g.nodes ++ table.map fun s => newNode c label prop (key.eval c s.row)) ∧
      g'.relationships = g.relationships ∧
      List.Forall₂ (fun s s' => ∃ i, s' = s.bind var (.node i)) table table' := by
  induction table generalizing g with
  | nil => exact ⟨g, [], rfl, (List.append_nil _).symm, rfl, .nil⟩
  | cons s table ih =>
    obtain ⟨hs, hapart⟩ := List.pairwise_cons.1 hapart
    have hmatches : g.nodeMatches c label prop (key.eval c s.row) = [] :=
      nodeMatches_eq_nil (hfresh s List.mem_cons_self)
    have hstill : ∀ t ∈ table, ∀ n ∈ g.nodes ++ [newNode c label prop (key.eval c s.row)],
        n.answers c label prop (key.eval c t.row) = false := by
      intro t ht n hn
      rcases List.mem_append.1 hn with hn | hn
      · exact hfresh t (List.mem_cons_of_mem _ ht) n hn
      · obtain rfl := List.mem_singleton.1 hn
        simp [Node.answers, newNode, hs t ht]
    obtain ⟨g', table', heach, hnodes, hrels, hall⟩ := ih (g := ⟨_, g.relationships⟩)
      (fun t ht => hnull t (List.mem_cons_of_mem _ ht)) hstill hapart
    refine ⟨g', s.bind var (.node g.nodes.length) :: table', ?_, ?_, hrels, .cons ⟨_, rfl⟩ hall⟩
    · simp only [Clause.each, Clause.step, hnull s List.mem_cons_self, hmatches,
        Bool.false_eq_true, if_false, Option.bind_eq_bind, Option.bind_some, heach,
        List.singleton_append]
    · rw [hnodes, List.append_assoc]
      rfl

/-- **A `MERGE` of relationships that are not there creates one for each line.** -/
theorem each_mergeRelationship {source type target : String} (var : String)
    {key : Option (String × Expr)}
    {g : Graph ν} {table : List (Scope ν)}
    (hends : ∀ s ∈ table, ∃ i j, s.vars source = some (.node i) ∧ s.vars target = some (.node j))
    (hnull : ∀ s ∈ table, ∀ k ∈ key, c.isNull (k.2.eval c s.row) = false)
    (hfresh : ∀ s ∈ table, ∀ i j, s.vars source = some (.node i) → s.vars target = some (.node j) →
      ∀ r ∈ g.relationships, r.answers c type key i j s.row = false)
    (hapart : table.Pairwise fun s t => ∀ i j, t.vars source = some (.node i) →
      t.vars target = some (.node j) → ∀ i' j', s.vars source = some (.node i') →
      s.vars target = some (.node j') →
      (newRelationship c type key i' j' s.row).answers c type key i j t.row = false) :
    ∃ g' created table', (Clause.mergeRelationship source var type key target).each c g table =
        some (g', table') ∧ g'.nodes = g.nodes ∧ g'.relationships = g.relationships ++ created ∧
      List.Forall₂ (fun s r => ∃ i j, s.vars source = some (.node i) ∧
        s.vars target = some (.node j) ∧ r = newRelationship c type key i j s.row) table created ∧
      ∀ s ∈ table', ∃ e, s.vars var = some e := by
  induction table generalizing g with
  | nil => exact ⟨g, [], [], rfl, rfl, (List.append_nil _).symm, .nil, by simp⟩
  | cons s table ih =>
    obtain ⟨hs, hapart⟩ := List.pairwise_cons.1 hapart
    obtain ⟨i, j, hi, hj⟩ := hends s List.mem_cons_self
    have hkey : (key.any fun k => c.isNull (k.2.eval c s.row)) = false := by
      cases key with
      | none => rfl
      | some k => exact hnull s List.mem_cons_self k rfl
    have hmatches : g.relationshipMatches c type key i j s.row = [] :=
      relationshipMatches_eq_nil (hfresh s List.mem_cons_self i j hi hj)
    have hstill : ∀ t ∈ table, ∀ i' j', t.vars source = some (.node i') →
        t.vars target = some (.node j') →
        ∀ r ∈ g.relationships ++ [newRelationship c type key i j s.row],
          r.answers c type key i' j' t.row = false := by
      intro t ht i' j' hi' hj' r hr
      rcases List.mem_append.1 hr with hr | hr
      · exact hfresh t (List.mem_cons_of_mem _ ht) i' j' hi' hj' r hr
      · obtain rfl := List.mem_singleton.1 hr
        exact hs t ht i' j' hi' hj' i j hi hj
    obtain ⟨g', created, table', heach, hnodes, hrels, hall, hbound⟩ := ih (g := ⟨g.nodes, _⟩)
      (fun t ht => hends t (List.mem_cons_of_mem _ ht))
      (fun t ht => hnull t (List.mem_cons_of_mem _ ht)) hstill hapart
    refine ⟨g', newRelationship c type key i j s.row :: created,
      s.bind var (.relationship g.relationships.length) :: table', ?_, hnodes, ?_,
      .cons ⟨i, j, hi, hj, rfl⟩ hall,
      List.forall_mem_cons.2 ⟨⟨_, Scope.bind_vars_self ..⟩, hbound⟩⟩
    · simp only [Clause.each, Clause.step, hi, hj, hkey, hmatches, Bool.false_eq_true, if_false,
        Option.bind_eq_bind, Option.bind_some, heach, List.singleton_append]
    · rw [hrels, List.append_assoc]
      rfl

end

/-! ### What `SET` leaves -/

/-- Some properties of an entity. -/
def mask (keep : List String) (props : String → ν) (prop : String) : Option ν :=
  if prop ∈ keep then some (props prop) else none

theorem mask_eq_some {keep : List String} {props : String → ν} {prop : String} {v : ν} :
    mask keep props prop = some v ↔ prop ∈ keep ∧ props prop = v := by
  rw [mask]
  split_ifs with h <;> simp [h]

/-- What a node shows when only some properties are looked at. -/
def Node.outline (keep : List String) (n : Node ν) : String × (String → Option ν) :=
  (n.label, mask keep n.props)

def Relationship.outline (keep : List String) (r : Relationship ν) :
    String × ℕ × ℕ × (String → Option ν) :=
  (r.type, r.source, r.target, mask keep r.props)

/-- The outlines of the nodes, and those of the relationships. -/
def Graph.nodeView (keep : List String) (g : Graph ν) : List (String × (String → Option ν)) :=
  g.nodes.map (Node.outline keep)

def Graph.relationshipView (keep : List String) (g : Graph ν) :
    List (String × ℕ × ℕ × (String → Option ν)) :=
  g.relationships.map (Relationship.outline keep)

/-- The same entities with the same values of some properties. -/
structure Graph.Alike (keep : List String) (g g' : Graph ν) : Prop where
  nodes : g'.nodeView keep = g.nodeView keep
  relationships : g'.relationshipView keep = g.relationshipView keep

/-- A pattern by a property that is looked at finds the same nodes. -/
theorem nodeMatches_eq_of_nodeView {keep : List String} {g g' : Graph ν}
    (h : g'.nodeView keep = g.nodeView keep) (c : Context ν) {prop : String} (hprop : prop ∈ keep)
    (label : String) (value : ν) :
    g'.nodeMatches c label prop value = g.nodeMatches c label prop value := by
  have hview : ∀ g : Graph ν, g.nodeMatches c label prop value =
      (List.range (g.nodeView keep).length).filter fun i => (g.nodeView keep)[i]?.any fun o =>
        decide (o.1 = label) && (o.2 prop).any fun v => c.same v value := by
    intro g
    rw [Graph.nodeMatches, Graph.nodeView, List.length_map]
    refine List.filter_congr fun i _ => ?_
    rw [List.getElem?_map]
    cases g.nodes[i]? with
    | none => rfl
    | some n => simp [Node.answers, Node.outline, mask, hprop]
  rw [hview, hview, h]

theorem Graph.Alike.refl (keep : List String) (g : Graph ν) : g.Alike keep g := ⟨rfl, rfl⟩

theorem Graph.Alike.trans {keep : List String} {g g' g'' : Graph ν} (h : g.Alike keep g')
    (h' : g'.Alike keep g'') : g.Alike keep g'' :=
  ⟨h'.nodes.trans h.nodes, h'.relationships.trans h.relationships⟩

/-- A change of one element that a map does not see. -/
theorem map_modify_of_unseen {α β : Type} {view : α → β} {f : α → α}
    (h : ∀ a, view (f a) = view a) (l : List α) (i : ℕ) : (l.modify i f).map view = l.map view := by
  induction l generalizing i with
  | nil => cases i <;> rfl
  | cons a l ih =>
    cases i with
    | zero => simp [h]
    | succ i => simp [ih]

section

variable (c : Context ν)

/-- **A `SET` changes nothing but its property**, and leaves its table as it is. -/
theorem each_set {keep : List String} {var prop : String} (value : Expr) (hprop : prop ∉ keep)
    {g : Graph ν} {table : List (Scope ν)} (hbound : ∀ s ∈ table, ∃ e, s.vars var = some e) :
    ∃ g', (Clause.set var prop value).each c g table = some (g', table) ∧ g.Alike keep g' := by
  have hsame : ∀ (props : String → ν) (v : ν),
      mask keep (Function.update props prop v) = mask keep props := by
    intro props v
    funext p
    rw [mask, mask]
    split_ifs with hp
    · have hne : p ≠ prop := by
        rintro rfl
        exact hprop hp
      rw [Function.update_of_ne hne]
    · rfl
  induction table generalizing g with
  | nil => exact ⟨g, rfl, .refl keep g⟩
  | cons s table ih =>
    have hrest : ∀ s ∈ table, ∃ e, s.vars var = some e :=
      fun t ht => hbound t (List.mem_cons_of_mem _ ht)
    obtain ⟨e, he⟩ := hbound s List.mem_cons_self
    have hstep : ∃ g₁, (Clause.set var prop value).step c g s = some (g₁, [s]) ∧
        g.Alike keep g₁ := by
      simp only [Clause.step, he]
      cases e with
      | node i =>
        refine ⟨_, rfl, map_modify_of_unseen (fun n => ?_) g.nodes i, rfl⟩
        exact congrArg (Prod.mk n.label) (hsame n.props _)
      | relationship i =>
        refine ⟨_, rfl, rfl, map_modify_of_unseen (fun r => ?_) g.relationships i⟩
        rw [Relationship.outline, Relationship.outline, hsame r.props]
    obtain ⟨g₁, hstep, halike⟩ := hstep
    obtain ⟨g₂, heach, halike'⟩ := ih (g := g₁) hrest
    refine ⟨g₂, ?_, halike.trans halike'⟩
    rw [Clause.each, hstep]
    simp only [Option.bind_eq_bind, Option.bind_some, heach, List.singleton_append]

/-- The assignments at the end of a query. -/
theorem runQuery_sets {keep : List String} {var : String} {sets : List Clause}
    (hsets : ∀ clause ∈ sets, ∃ prop value, clause = .set var prop value ∧ prop ∉ keep)
    (g : Graph ν) {table : List (Scope ν)} (hbound : ∀ s ∈ table, ∃ e, s.vars var = some e) :
    ∃ g', runQuery c sets g table = some (g', table) ∧ g.Alike keep g' := by
  induction sets generalizing g with
  | nil => exact ⟨g, rfl, .refl keep g⟩
  | cons clause sets ih =>
    obtain ⟨prop, value, rfl, hprop⟩ := hsets _ List.mem_cons_self
    obtain ⟨g₁, heach, halike⟩ := each_set c value hprop hbound (g := g)
    obtain ⟨g₂, hrun, halike'⟩ := ih (fun clause h => hsets clause (List.mem_cons_of_mem _ h)) g₁
    refine ⟨g₂, ?_, halike.trans halike'⟩
    simp only [runQuery, heach, Option.bind_eq_bind, Option.bind_some, hrun]

end

/-! ### Labels -/

/-- The labels of the nodes, in the order of their creation. -/
def Graph.labels (g : Graph ν) : List String := g.nodes.map Node.label

def Clause.mergesNode : Clause → Bool
  | .mergeNode .. => true
  | _ => false

section

variable {c : Context ν}

theorem step_labels {clause : Clause} (hclause : clause.mergesNode = false) {g : Graph ν}
    {s : Scope ν} {next : Graph ν × List (Scope ν)} (h : clause.step c g s = some next) :
    next.1.labels = g.labels := by
  cases clause with
  | matchNode var label prop key =>
    obtain rfl := Option.some.inj h
    rfl
  | mergeNode var label prop key => cases hclause
  | mergeRelationship source var type key target =>
    simp only [Clause.step] at h
    split at h
    · split_ifs at h
      split at h
      all_goals
        obtain rfl := Option.some.inj h
        rfl
    · cases h
  | set var prop value =>
    simp only [Clause.step] at h
    split at h
    · obtain rfl := Option.some.inj h
      apply map_modify_of_unseen
      intro n
      rfl
    · obtain rfl := Option.some.inj h
      rfl
    · cases h

theorem each_labels {clause : Clause} (hclause : clause.mergesNode = false) {g : Graph ν}
    {table : List (Scope ν)} {next : Graph ν × List (Scope ν)}
    (h : clause.each c g table = some next) : next.1.labels = g.labels := by
  induction table generalizing g next with
  | nil =>
    obtain rfl := Option.some.inj h
    rfl
  | cons s table ih =>
    simp only [Clause.each, Option.bind_eq_bind, Option.bind_eq_some_iff] at h
    obtain ⟨first, hfirst, rest, hrest, hnext⟩ := h
    obtain rfl := Option.some.inj hnext
    exact (ih hrest).trans (step_labels hclause hfirst)

/-- **A query that merges no node leaves the labels as they are.** -/
theorem runQuery_labels {clauses : List Clause}
    (hclauses : ∀ clause ∈ clauses, clause.mergesNode = false) {g : Graph ν}
    {table : List (Scope ν)} {next : Graph ν × List (Scope ν)}
    (h : runQuery c clauses g table = some next) : next.1.labels = g.labels := by
  induction clauses generalizing g table with
  | nil =>
    obtain rfl := Option.some.inj h
    rfl
  | cons clause clauses ih =>
    simp only [runQuery, Option.bind_eq_bind, Option.bind_eq_some_iff] at h
    obtain ⟨first, hfirst, hrest⟩ := h
    have hlabels := each_labels (hclauses clause List.mem_cons_self) hfirst
    exact (ih (fun c hc => hclauses c (List.mem_cons_of_mem _ hc)) hrest).trans hlabels

end

end PropertyGraph
