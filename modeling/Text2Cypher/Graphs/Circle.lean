import Mathlib.Analysis.SpecialFunctions.Trigonometric.Angle
import Text2Cypher.Graphs.Accounts

/-!
# The circle of the nodes without a position

* **`circle_spec`**: the nodes that no mention gives a position stand on the circle once each, the
  nodes of every connected piece side by side, each but the first behind a neighbour, and no two of
  them at one place.
-/

namespace Graphs

open BreadthFirst

variable {N : Type}

namespace Graph

theorem mem_neighbours {edges : List (PlacedEdge N)} {a b : String} :
    b ∈ neighbours edges a ↔ ∃ edge ∈ edges, otherEnd a edge = some b := by
  rw [neighbours, List.mem_mergeSort, List.mem_dedup, List.mem_filterMap]

theorem otherEnd_symm {edge : PlacedEdge N} {a b : String} (h : otherEnd a edge = some b) :
    otherEnd b edge = some a := by
  unfold otherEnd at h ⊢
  split_ifs at h with hsource htarget
  · cases h
    rw [hsource]
    split_ifs with hloop hself
    · rw [hloop]
    · rfl
    · exact absurd rfl hself
  · cases h
    rw [if_pos rfl, htarget]

/-- Neighbours are mutual. -/
theorem neighbours_symm {edges : List (PlacedEdge N)} (a b : String) (h : b ∈ neighbours edges a) :
    a ∈ neighbours edges b := by
  obtain ⟨edge, hedge, hend⟩ := mem_neighbours.1 h
  exact mem_neighbours.2 ⟨edge, hedge, otherEnd_symm hend⟩

end Graph

/-! ### Places -/

/-- The real number that a coordinate stands for, before it is rounded. -/
noncomputable def Coordinate.real (value : N → ℝ) : Coordinate N → ℝ
  | .number n => value n
  | .cosine scale index total => scale * Real.cos (2 * Real.pi * index / total)
  | .sine scale index total => scale * Real.sin (2 * Real.pi * index / total)

/-- Different parts of a circle begin at different angles. -/
theorem eq_of_angle_eq {i j total : ℕ} (hi : i < total) (hj : j < total)
    (hcos : Real.cos (2 * Real.pi * i / total) = Real.cos (2 * Real.pi * j / total))
    (hsin : Real.sin (2 * Real.pi * i / total) = Real.sin (2 * Real.pi * j / total)) : i = j := by
  obtain ⟨k, hk⟩ := Real.Angle.angle_eq_iff_two_pi_dvd_sub.1 (Real.Angle.cos_sin_inj hcos hsin)
  have htotal : (total : ℝ) ≠ 0 := by
    have : 0 < total := by omega
    positivity
  have hturns : (i : ℝ) - j = total * k := by
    field_simp at hk
    exact hk
  have hint : (i : ℤ) - j = total * k := by exact_mod_cast hturns
  have hk0 : k = 0 := by
    by_contra hne
    rcases lt_or_gt_of_ne hne with hneg | hpos
    · nlinarith
    · nlinarith
  rw [hk0] at hint
  omega

/-- Two nodes of the circle have different places. -/
theorem circlePosition_ne {scale : ℚ} (hscale : 0 < scale) {order : List String} {a b : String}
    (ha : a ∈ order) (hb : b ∈ order) (hne : a ≠ b) (value : N → ℝ) :
    ((Graph.circlePosition scale order a).1.real value,
        (Graph.circlePosition scale order a).2.real value) ≠
      ((Graph.circlePosition scale order b).1.real value,
        (Graph.circlePosition scale order b).2.real value) := by
  intro heq
  obtain ⟨hcos, hsin⟩ := Prod.mk.inj heq
  have hreal : (scale : ℝ) ≠ 0 := by positivity
  have hindex := eq_of_angle_eq (List.idxOf_lt_length_of_mem ha) (List.idxOf_lt_length_of_mem hb)
    (mul_left_cancel₀ hreal hcos) (mul_left_cancel₀ hreal hsin)
  exact hne ((List.idxOf_inj ha).1 hindex)

open Graph

/-- How the nodes `missing` stand on the circle. -/
structure Circled (graph : Graph N) (missing : List String) (scale : ℚ) : Prop where
  once : (circleOrder graph.edges missing).Perm missing
  pieces : ∃ blocks : List (List String), circleOrder graph.edges missing = blocks.flatten ∧
    ∀ block ∈ blocks, IsComponent (neighbours graph.edges) missing block ∧
      Linked (neighbours graph.edges) block
  apart : ∀ a ∈ missing, ∀ b ∈ missing, a ≠ b → ∀ value : N → ℝ,
    ((circlePosition scale (circleOrder graph.edges missing) a).1.real value,
        (circlePosition scale (circleOrder graph.edges missing) a).2.real value) ≠
      ((circlePosition scale (circleOrder graph.edges missing) b).1.real value,
        (circlePosition scale (circleOrder graph.edges missing) b).2.real value)

/-- **The nodes without a position stand on the circle in connected pieces, no two at one place.** -/
theorem circle_spec (extracted : Extracted N) :
    let graph := (buildGraph extracted).1
    Circled graph (missingPositions graph.nodes extracted.nodes)
      (max 1 (graph.nodes.entries.length / 4)) := by
  intro graph
  set missing := missingPositions graph.nodes extracted.nodes with hmissing
  have hperm : (circleOrder graph.edges missing).Perm missing :=
    order_perm neighbours_symm (graph.nodes.nodup.filter _)
  refine ⟨hperm, exists_blocks neighbours_symm, fun a ha b hb hne value => ?_⟩
  exact circlePosition_ne (lt_max_of_lt_left one_pos) (hperm.mem_iff.2 ha) (hperm.mem_iff.2 hb) hne
    value

end Graphs
