import Text2Cypher.Answer.Generation
import Text2Cypher.Answer.Page

/-!
# The values that a page keeps

What all items share is shown once in front of them, and taken away from the items by its label.
An item that has the label twice, with a value that is not shared, loses that value.

* `fallbackItem_fields`: every field of a row is in its item;
* **`valuesKept_iff`**: when a page shows all values of some items, and of the fallback answer.
-/

namespace Answer

open Checks Composition Decimal Python

section

variable {V : Type} [PyValue V] [PyBuild V]

/-! ### What is to be shown -/

/-- Two metrics with the same label and the same value. -/
def sameMetric (a b : String × V) : Bool := sameLabel a b && a.2 == b.2

/-- One of several items' metrics that is the same in all of them. -/
def Common (items : List (Item V)) (m : String × V) : Prop :=
  2 ≤ items.length ∧ ∀ item ∈ items, ∃ other ∈ item.metrics, sameMetric other m = true

/-- What the items share and their own metrics hold everything together: common metrics once, and
all others each with its own item. -/
structure KeepsValues (items : List (Item V)) (shared : List (String × V)) (own : List (Item V)) :
    Prop where
  titles : own.map Item.title = items.map Item.title
  common : ∀ item ∈ items, ∀ m ∈ item.metrics, Common items m →
    (shared.filter (sameMetric · m)).length = 1 ∧
      ∀ rest ∈ own, ∀ other ∈ rest.metrics, sameMetric other m = false
  others : List.Forall₂ (fun item rest => ∀ m ∈ item.metrics, ¬ Common items m → m ∈ rest.metrics)
    items own

/-- No item has, beside a common metric, another with its label that is not common, and the first
item has no common metric twice. -/
structure NothingHidden (items : List (Item V)) : Prop where
  labels : ∀ item ∈ items, ∀ m ∈ item.metrics, ∀ other ∈ item.metrics, Common items other →
    sameLabel other m = true → Common items m
  once : ∀ first ∈ items.head?, first.metrics.Pairwise fun a b =>
    Common items a → sameMetric a b = false

instance (items : List (Item V)) (m : String × V) : Decidable (Common items m) := by
  unfold Common
  infer_instance

/-! ### Equal metrics -/

variable [PartialEquivBEq V]

theorem sameLabel_symm {a b : String × V} (h : sameLabel a b = true) : sameLabel b a = true :=
  BEq.symm h

theorem sameLabel_trans {a b c : String × V} (h : sameLabel a b = true)
    (h' : sameLabel b c = true) : sameLabel a c = true :=
  BEq.trans h h'

omit [PartialEquivBEq V] in
theorem sameMetric_iff {a b : String × V} :
    sameMetric a b = true ↔ sameLabel a b = true ∧ (a.2 == b.2) = true := by
  rw [sameMetric, Bool.and_eq_true]

theorem sameMetric_symm {a b : String × V} (h : sameMetric a b = true) : sameMetric b a = true := by
  rw [sameMetric_iff] at h ⊢
  exact ⟨sameLabel_symm h.1, BEq.symm h.2⟩

theorem sameMetric_trans {a b c : String × V} (h : sameMetric a b = true)
    (h' : sameMetric b c = true) : sameMetric a c = true := by
  rw [sameMetric_iff] at h h' ⊢
  exact ⟨sameLabel_trans h.1 h'.1, BEq.trans h.2 h'.2⟩

theorem Common.of_same {items : List (Item V)} {m other : String × V} (h : Common items m)
    (hsame : sameMetric m other = true) : Common items other := by
  refine ⟨h.1, fun item hitem => ?_⟩
  obtain ⟨found, hmem, hfound⟩ := h.2 item hitem
  exact ⟨found, hmem, sameMetric_trans hfound hsame⟩

/-! ### Shared metrics -/

/-- What the code finds shared is what is common, as the first item has it. -/
theorem mem_shared {items : List (Item V)} {m : String × V} :
    m ∈ Item.shared items ↔ Common items m ∧ ∃ first ∈ items.head?, m ∈ first.metrics := by
  match items with
  | [] => exact iff_of_false nofun fun h => by simpa using h.2
  | [item] => exact iff_of_false nofun fun h => absurd h.1.1 (by simp)
  | first :: second :: others =>
    have hall : (((second :: others).all fun item => item.metrics.any fun other =>
        sameLabel other m && other.2 == m.2) = true) ↔
        ∀ item ∈ second :: others, ∃ other ∈ item.metrics, sameMetric other m = true := by
      rw [List.all_eq_true]
      exact forall₂_congr fun item _ => List.any_eq_true
    rw [Item.shared, List.mem_filter, hall]
    constructor
    · rintro ⟨hfirst, hothers⟩
      obtain ⟨other, -, hother⟩ := hothers second List.mem_cons_self
      refine ⟨⟨by simp, fun item hitem => ?_⟩, first, rfl, hfirst⟩
      rcases List.mem_cons.1 hitem with rfl | hitem
      · exact ⟨m, hfirst, sameMetric_trans (sameMetric_symm hother) hother⟩
      · exact hothers item hitem
    · rintro ⟨⟨-, hcommon⟩, item, hitem, hmem⟩
      obtain rfl := Option.some.inj hitem
      exact ⟨hmem, fun item hitem => hcommon item (List.mem_cons_of_mem _ hitem)⟩

/-- A common metric is shared. -/
theorem Common.exists_shared {items : List (Item V)} {m : String × V} (h : Common items m) :
    ∃ metric ∈ Item.shared items, sameMetric metric m = true := by
  match items with
  | [] => exact absurd h.1 (by simp)
  | first :: others =>
    obtain ⟨metric, hmem, hsame⟩ := h.2 first List.mem_cons_self
    exact ⟨metric, mem_shared.2 ⟨h.of_same (sameMetric_symm hsame), first, rfl, hmem⟩, hsame⟩

omit [PartialEquivBEq V] in
theorem mem_without {shared : List (String × V)} {item : Item V} {m : String × V} :
    m ∈ (item.without shared).metrics ↔
      m ∈ item.metrics ∧ ∀ metric ∈ shared, sameLabel metric m = false := by
  rw [Item.without, List.mem_filter, Bool.not_eq_true', List.any_eq_false]
  simp only [Bool.not_eq_true]

theorem length_filter_le_one {α : Type} {p : α → Bool} {l : List α} :
    (l.filter p).length ≤ 1 ↔ l.Pairwise fun a b => ¬ (p a = true ∧ p b = true) := by
  induction l with
  | nil => exact iff_of_true (Nat.zero_le _) .nil
  | cons a l ih =>
    rw [List.pairwise_cons, ← ih]
    by_cases ha : p a = true
    · rw [List.filter_cons_of_pos ha, List.length_cons]
      have hnone : (l.filter p).length = 0 ↔ ∀ b ∈ l, ¬ (p a = true ∧ p b = true) := by
        rw [List.length_eq_zero_iff, List.filter_eq_nil_iff]
        exact forall₂_congr fun b _ => not_congr (and_iff_right ha).symm
      rw [← hnone]
      omega
    · rw [List.filter_cons_of_neg ha]
      exact (and_iff_right fun b _ h => ha h.1).symm

/-- Common metrics are shared once if the first item has none of them twice. -/
theorem shared_once (items : List (Item V)) :
    (∀ m, Common items m → ((Item.shared items).filter (sameMetric · m)).length ≤ 1) ↔
      ∀ first ∈ items.head?, first.metrics.Pairwise fun a b =>
        Common items a → sameMetric a b = false := by
  have hpairwise : (∀ m, Common items m →
      ((Item.shared items).filter (sameMetric · m)).length ≤ 1) ↔
        (Item.shared items).Pairwise fun a b => sameMetric a b = false := by
    constructor
    · intro h
      rw [List.pairwise_iff_forall_sublist]
      intro a b hsub
      by_contra hsame
      rw [Bool.not_eq_false] at hsame
      have hb : b ∈ Item.shared items := hsub.subset (by simp)
      have honce := length_filter_le_one.1 (h b (mem_shared.1 hb).1)
      exact List.pairwise_iff_forall_sublist.1 honce hsub
        ⟨hsame, sameMetric_trans (sameMetric_symm hsame) hsame⟩
    · intro h m _
      rw [length_filter_le_one]
      refine h.imp fun {a b} hdiffer hboth => ?_
      rw [sameMetric_trans hboth.1 (sameMetric_symm hboth.2)] at hdiffer
      cases hdiffer
  rw [hpairwise]
  match items with
  | [] => exact iff_of_true .nil nofun
  | [item] =>
    refine iff_of_true .nil fun first _ => List.pairwise_of_forall fun a b h => ?_
    exact absurd h.1 (by simp)
  | first :: second :: others =>
    have hmem : ∀ m ∈ first.metrics, (((second :: others).all fun item => item.metrics.any fun
        other => sameLabel other m && other.2 == m.2) = true) ↔
          Common (first :: second :: others) m := by
      intro m hm
      have hshared : m ∈ Item.shared (first :: second :: others) ↔ _ := mem_shared
      rw [Item.shared, List.mem_filter, and_iff_right hm] at hshared
      exact hshared.trans (and_iff_left ⟨first, rfl, hm⟩)
    rw [Item.shared, List.pairwise_filter, List.head?_cons]
    refine Iff.trans (List.Pairwise.iff_of_mem fun {a b} ha hb => ?_)
      (by simp : first.metrics.Pairwise (fun a b => Common (first :: second :: others) a →
        sameMetric a b = false) ↔ _)
    rw [hmem a ha, hmem b hb]
    constructor
    · intro h hcommon
      by_contra hsame
      rw [Bool.not_eq_false] at hsame
      have hdiffer := h hcommon (hcommon.of_same hsame)
      rw [hsame] at hdiffer
      cases hdiffer
    · exact fun h hcommon _ => h hcommon

/-- **Nothing is lost exactly if** no item has, beside a common metric, another with its label that
is not common; and what is common stands once in the first item. -/
theorem keepsValues_iff (items : List (Item V)) :
    KeepsValues items (Item.shared items) (ownItems items) ↔ NothingHidden items := by
  have hothers : List.Forall₂ (fun item rest => ∀ m ∈ item.metrics, ¬ Common items m →
      m ∈ rest.metrics) items (ownItems items) ↔ ∀ item ∈ items, ∀ m ∈ item.metrics,
        ∀ other ∈ item.metrics, Common items other → sameLabel other m = true →
          Common items m := by
    rw [ownItems, List.forall₂_map_right_iff, List.forall₂_same]
    refine forall₂_congr fun item hitem => forall₂_congr fun m hm => ?_
    rw [mem_without, and_iff_right hm]
    constructor
    · intro h other _ hcommon hlabel
      by_contra hnot
      obtain ⟨metric, hmem, hsame⟩ := hcommon.exists_shared
      have hdiffer := h hnot metric hmem
      rw [sameLabel_trans (sameMetric_iff.1 hsame).1 hlabel] at hdiffer
      cases hdiffer
    · intro h hnot metric hmem
      by_contra hlabel
      rw [Bool.not_eq_false] at hlabel
      have hcommon := (mem_shared.1 hmem).1
      obtain ⟨other, hother, hsame⟩ := hcommon.2 item hitem
      exact hnot (h other hother (hcommon.of_same (sameMetric_symm hsame))
        (sameLabel_trans (sameMetric_iff.1 hsame).1 hlabel))
  constructor
  · rintro ⟨-, hcommon, hown⟩
    refine ⟨hothers.1 hown, (shared_once items).1 fun m hm => ?_⟩
    cases items with
    | nil => exact absurd hm.1 (by simp)
    | cons first others =>
      -- the number is the same for the metric that the first item has
      obtain ⟨metric, hmem, hsame⟩ := hm.2 first List.mem_cons_self
      have hone := (hcommon first List.mem_cons_self metric hmem
        (hm.of_same (sameMetric_symm hsame))).1
      have hfilter : (Item.shared (first :: others)).filter (sameMetric · m) =
          (Item.shared (first :: others)).filter (sameMetric · metric) := by
        refine List.filter_congr fun a _ => ?_
        rw [Bool.eq_iff_iff]
        exact ⟨fun h => sameMetric_trans h (sameMetric_symm hsame), fun h =>
          sameMetric_trans h hsame⟩
      rw [hfilter, hone]
  · rintro ⟨hlabels, honce⟩
    refine ⟨?_, fun item hitem m hm hcommon => ⟨?_, fun rest hrest other hother => ?_⟩,
      hothers.2 hlabels⟩
    · rw [ownItems, List.map_map]
      rfl
    · obtain ⟨metric, hmem, hsame⟩ := hcommon.exists_shared
      have hle := (shared_once items).2 honce m hcommon
      have hpos : 0 < ((Item.shared items).filter (sameMetric · m)).length :=
        List.length_pos_of_mem (List.mem_filter.2 ⟨hmem, hsame⟩)
      omega
    · obtain ⟨other', -, rfl⟩ := List.mem_map.1 hrest
      obtain ⟨metric, hmem, hsame⟩ := hcommon.exists_shared
      have hdiffer := (mem_without.1 hother).2 metric hmem
      by_contra hother
      rw [Bool.not_eq_false] at hother
      rw [sameLabel_trans (sameMetric_iff.1 hsame).1
        (sameLabel_symm (sameMetric_iff.1 hother).1)] at hdiffer
      cases hdiffer

/-! ### Rows -/

/-- A field of a row is shown by an item: as its title, or as a metric under its label. -/
def FieldShown (item : Item V) (key : String) (value : V) : Prop :=
  (∃ text, PyValue.kind value = .str text ∧ item.title = some text) ∨
    (fieldLabel key, value) ∈ item.metrics

omit [PyBuild V] [PartialEquivBEq V] in
/-- **Every field of a row that is not null is in its item.** -/
theorem fallbackItem_fields {row : Dict String V} {key : String} {value : V}
    (hmem : (key, value) ∈ row.entries) (hvalue : isNone value = false) :
    FieldShown (fallbackItem row) key value := by
  by_cases htitle : some key = (fallbackTitle row).map Prod.fst
  · left
    cases hfound : fallbackTitle row with
    | none =>
      rw [hfound] at htitle
      cases htitle
    | some found =>
      rw [hfound, Option.map_some, Option.some.injEq] at htitle
      obtain ⟨title, -, htext⟩ := List.exists_of_findSome?_eq_some hfound
      split at htext
      · rename_i text hkind
        split_ifs at htext
        obtain rfl := Option.some.inj htext
        obtain rfl : key = title := htitle
        rw [Dict.get?_eq_some_iff.2 hmem, Option.map_some, Option.some.injEq] at hkind
        exact ⟨text, hkind, by rw [fallbackItem, hfound]; rfl⟩
      · cases htext
  · right
    refine List.mem_map_of_mem (List.mem_filter.2 ⟨hmem, ?_⟩)
    simp [htitle, hvalue]

variable [PyStr V]

/-- The lines of some items are those of a page that keeps all their titles and metrics. -/
def ValuesKept (floats : Floats) (items : List (Item V)) : Prop :=
  renderItemLines floats (items.map Item.toValue) = (do
      let shared ← each (textPair floats) (Item.shared items)
      let entries ← each (entryOf floats) (ownItems items)
      return (Page.mk shared entries).lines) ∧
    KeepsValues items (Item.shared items) (ownItems items)

/-- The fallback answer shows every field of the first ten rows that is not null. -/
def FieldsKept (floats : Floats) (composed : Composed V) : Prop :=
  ValuesKept floats (fallbackItems composed) ∧
    List.Forall₂ (fun row item => ∀ entry ∈ row.entries, isNone entry.2 = false →
      FieldShown item entry.1 entry.2)
      ((resultRowPool composed).take 10) (fallbackItems composed)

/-- **When no value is lost**, of any items and of the rows of the fallback answer: no item has,
beside a metric that all have, another one with its label, and the first has none of these twice. -/
theorem valuesKept_iff (floats : Floats) :
    (∀ items : List (Item V), ValuesKept floats items ↔ NothingHidden items) ∧
      ∀ composed : Composed V, FieldsKept floats composed ↔
        NothingHidden (fallbackItems composed) := by
  have hitems : ∀ items : List (Item V), ValuesKept floats items ↔ NothingHidden items := by
    intro items
    refine (and_iff_right ?_).trans (keepsValues_iff items)
    rw [renderItemLines_eq, pageOf]
    cases each (textPair floats) (Item.shared items) with
    | error exception => rfl
    | ok shared => cases each (entryOf floats) (ownItems items) <;> rfl
  refine ⟨hitems, fun composed => (and_iff_left ?_).trans (hitems _)⟩
  rw [fallbackItems, List.forall₂_map_right_iff, List.forall₂_same]
  exact fun row _ entry hentry hvalue => fallbackItem_fields hentry hvalue

end

/-! ### Two names of products -/

/-- A row of a component with the product it is in, and the product at the root. -/
def productRow (component finished root : String) : Dict String Cell where
  entries := [("componentName", .mk (.str component)), ("finishedProductName", .mk (.str finished)),
    ("rootProductName", .mk (.str root))]
  nodup := by
    show ["componentName", "finishedProductName", "rootProductName"].Nodup
    decide

/-- Two components of different products at the root. -/
def productRows (first second : String) : Composed Cell :=
  composeSingle ⟨[productRow "Bolt" first "Frame", productRow "Nut" second "Wheel"], none, false⟩

/-- Products that differ are shown, although they have one label. -/
theorem fieldsKept_different : FieldsKept exactFloats (productRows "Bike" "Car") := by
  refine ((valuesKept_iff exactFloats).2 _).2 ⟨?_, ?_⟩
  · decide +kernel
  · decide +kernel

/-- A product that both rows are in hides those at the root, which have the same label. -/
theorem not_fieldsKept_same : ¬ FieldsKept exactFloats (productRows "Bike" "Bike") := by
  rintro ⟨⟨-, hkept⟩, -⟩
  have hlabels := ((keepsValues_iff _).1 hkept).labels
  exact absurd hlabels (by decide +kernel)

end Answer
