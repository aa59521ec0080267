import Mathlib.Data.List.Basic
import Mathlib.Data.Nat.Init
import Mathlib.Logic.Function.Basic
import Mathlib.Logic.Relation
import Mathlib.Order.Basic

/-!
# Backtracking patterns

A pattern is matched at a place of a text.  `ends` lists the ends of its matches in the order in
which a backtracking matcher tries them, so that the matcher takes the first one.

* **`mem_ends_star`**: a repetition ends where some chain of matches ends;
* **`Pattern.ends_spec`**: a match reads a stretch of the text, and a pattern that `consumes` reads
  some of it;
* **`Rule.count_sub_le_one`**: a replacement of all matches leaves a letter at most once, when every
  two of its occurrences make a match begin at the first of them;
* **`Rule.HidesPairs.not_pair`**, **`Rule.HidesRuns.glued`**: the same for two occurrences on one
  line, and for runs of letters.
-/

namespace Patterns

variable {α : Type*}

/-- A place in a text: what stands before it, the nearest letter first, what stands behind it, and
the stretches that the groups have matched. -/
structure Place (α : Type*) where
  before : List α
  after : List α
  groups : ℕ → Option (List α)

/-- The place without groups. -/
def Place.mk₀ (before after : List α) : Place α := ⟨before, after, fun _ => none⟩

/-- At `t`, the group `n` has matched what stands between `s` and `t`. -/
def Place.close (s : Place α) (n : ℕ) (t : Place α) : Place α :=
  let matched := s.after.take (s.after.length - t.after.length)
  { t with groups := Function.update t.groups n (some matched) }

inductive Pattern (α : Type*)
  | empty
  | char (p : α → Bool)
  /-- a look around, which reads nothing -/
  | look (p : List α → List α → Bool)
  | seq (a b : Pattern α)
  /-- the first of two patterns, or else the second -/
  | alt (a b : Pattern α)
  | star (greedy : Bool) (a : Pattern α)
  | group (n : ℕ) (a : Pattern α)
  /-- what a group has matched, once more -/
  | again (n : ℕ)

/-- Matches one after the other, each of which reads something: `n` at most. -/
def chains (greedy : Bool) (ends : Place α → List (Place α)) : ℕ → Place α → List (Place α)
  | 0, s => [s]
  | n + 1, s =>
      let more := ((ends s).filter fun t => t.after.length < s.after.length).flatMap
        (chains greedy ends n)
      if greedy then more ++ [s] else s :: more

namespace Pattern

/-- The ends of the matches at a place, the preferred ones first. -/
def ends [DecidableEq α] : Pattern α → Place α → List (Place α)
  | empty, s => [s]
  | char p, s =>
      match s.after with
      | [] => []
      | c :: after => if p c then [⟨c :: s.before, after, s.groups⟩] else []
  | look p, s => if p s.before s.after then [s] else []
  | seq a b, s => (a.ends s).flatMap b.ends
  | alt a b, s => a.ends s ++ b.ends s
  | star greedy a, s => chains greedy a.ends s.after.length s
  | group n a, s => (a.ends s).map (s.close n)
  | again n, s =>
      match s.groups n with
      | none => []
      | some w =>
          if w <+: s.after then
            [⟨w.reverse ++ s.before, s.after.drop w.length, s.groups⟩] else []

/-- The pattern reads at least one letter. -/
def consumes : Pattern α → Bool
  | char _ => true
  | seq a b => a.consumes || b.consumes
  | alt a b => a.consumes && b.consumes
  | group _ a => a.consumes
  | _ => false

/-- A pattern or nothing, the pattern first. -/
def opt (a : Pattern α) : Pattern α := alt a empty

/-- One or more, as many as possible. -/
def plus (a : Pattern α) : Pattern α := seq a (star true a)

/-- `n` times. -/
def times : ℕ → Pattern α → Pattern α
  | 0, _ => empty
  | n + 1, a => seq a (times n a)

/-- Up to `n` times, as often as possible. -/
def upTo : ℕ → Pattern α → Pattern α
  | 0, _ => empty
  | n + 1, a => opt (seq a (upTo n a))

/-- The letters of a word, each in its way. -/
def word (p : α → α → Bool) (w : List α) : Pattern α :=
  w.foldr (fun c a => seq (char (p c)) a) empty

/-- The first of several patterns that matches. -/
def oneOf : List (Pattern α) → Pattern α
  | [] => look fun _ _ => false
  | [a] => a
  | a :: rest => alt a (oneOf rest)

end Pattern

open Pattern

/-! ### Where matches end -/

/-- `t` is reached from `s` by reading a stretch of the text. -/
def Reads (s t : Place α) : Prop :=
  ∃ w, s.after = w ++ t.after ∧ t.before = w.reverse ++ s.before

theorem Reads.refl (s : Place α) : Reads s s := ⟨[], rfl, rfl⟩

theorem Reads.trans {s t u : Place α} (h : Reads s t) (h' : Reads t u) : Reads s u := by
  obtain ⟨w, hafter, hbefore⟩ := h
  obtain ⟨w', hafter', hbefore'⟩ := h'
  refine ⟨w ++ w', ?_, ?_⟩
  · rw [hafter, hafter', List.append_assoc]
  · rw [hbefore', hbefore, List.reverse_append, List.append_assoc]

theorem Reads.length_le {s t : Place α} (h : Reads s t) : t.after.length ≤ s.after.length := by
  obtain ⟨w, hafter, -⟩ := h
  rw [hafter, List.length_append]
  omega

/-- One more match in a chain. -/
def Links (ends : Place α → List (Place α)) (s t : Place α) : Prop :=
  t ∈ ends s ∧ t.after.length < s.after.length

theorem mem_chains {greedy : Bool} {ends : Place α → List (Place α)} {n : ℕ} {s t : Place α}
    (hn : s.after.length ≤ n) :
    t ∈ chains greedy ends n s ↔ Relation.ReflTransGen (Links ends) s t := by
  induction n generalizing s with
  | zero =>
    rw [chains, List.mem_singleton]
    constructor
    · rintro rfl
      exact .refl
    · intro h
      rcases Relation.ReflTransGen.cases_head h with rfl | ⟨u, ⟨-, hlt⟩, -⟩
      · rfl
      · omega
  | succ n ih =>
    have hmore : t ∈ ((ends s).filter fun t => t.after.length < s.after.length).flatMap
        (chains greedy ends n) ↔ ∃ u, Links ends s u ∧ Relation.ReflTransGen (Links ends) u t := by
      simp only [List.mem_flatMap, List.mem_filter, decide_eq_true_eq, Links]
      constructor
      · rintro ⟨u, hu, ht⟩
        exact ⟨u, hu, (ih (by omega)).1 ht⟩
      · rintro ⟨u, hu, ht⟩
        exact ⟨u, hu, (ih (by omega)).2 ht⟩
    have hchain : t ∈ chains greedy ends (n + 1) s ↔
        t = s ∨ ∃ u, Links ends s u ∧ Relation.ReflTransGen (Links ends) u t := by
      rw [← hmore, chains]
      cases greedy <;> simp [or_comm]
    rw [hchain, Relation.ReflTransGen.cases_head_iff, eq_comm]

variable [DecidableEq α]

/-- A repetition ends where a chain of matches ends. -/
theorem mem_ends_star {greedy : Bool} {a : Pattern α} {s t : Place α} :
    t ∈ (star greedy a).ends s ↔ Relation.ReflTransGen (Links a.ends) s t :=
  mem_chains (Nat.le_refl _)

theorem mem_ends_char {p : α → Bool} {s t : Place α} :
    t ∈ (char p).ends s ↔
      ∃ c after, s.after = c :: after ∧ p c = true ∧ t = ⟨c :: s.before, after, s.groups⟩ := by
  rw [ends]
  cases hafter : s.after with
  | nil => simp
  | cons c after =>
    by_cases hp : p c = true
    · simp [hp]
    · simp [hp]

theorem mem_ends_look {p : List α → List α → Bool} {s t : Place α} :
    t ∈ (look p).ends s ↔ p s.before s.after = true ∧ t = s := by
  rw [ends]
  split_ifs with hp <;> simp [hp]

theorem mem_ends_seq {a b : Pattern α} {s t : Place α} :
    t ∈ (seq a b).ends s ↔ ∃ u ∈ a.ends s, t ∈ b.ends u := by
  rw [ends, List.mem_flatMap]

theorem mem_ends_alt {a b : Pattern α} {s t : Place α} :
    t ∈ (alt a b).ends s ↔ t ∈ a.ends s ∨ t ∈ b.ends s := by
  rw [ends, List.mem_append]

theorem mem_ends_empty {s t : Place α} : t ∈ (empty : Pattern α).ends s ↔ t = s :=
  List.mem_singleton

theorem mem_ends_opt {a : Pattern α} {s t : Place α} :
    t ∈ (opt a).ends s ↔ t ∈ a.ends s ∨ t = s := by
  rw [opt, mem_ends_alt, ends, List.mem_singleton]

/-- A repetition reads any stretch of letters that it can read one by one. -/
theorem mem_ends_star_of_letters {greedy : Bool} {a : Pattern α} {s : Place α} {w rest : List α}
    (hafter : s.after = w ++ rest)
    (hw : ∀ c ∈ w, ∀ before after,
      ⟨c :: before, after, s.groups⟩ ∈ a.ends ⟨before, c :: after, s.groups⟩) :
    ⟨w.reverse ++ s.before, rest, s.groups⟩ ∈ (star greedy a).ends s := by
  rw [mem_ends_star]
  induction w generalizing s with
  | nil =>
    obtain ⟨before, after, groups⟩ := s
    obtain rfl : after = rest := hafter
    exact .refl
  | cons c w ih =>
    obtain ⟨before, after, groups⟩ := s
    obtain rfl : after = c :: (w ++ rest) := hafter
    have hlink : Links a.ends ⟨before, c :: (w ++ rest), groups⟩
        ⟨c :: before, w ++ rest, groups⟩ :=
      ⟨hw c List.mem_cons_self before (w ++ rest), by simp⟩
    have htail := ih (s := ⟨c :: before, w ++ rest, groups⟩) rfl
      fun c' hc' => hw c' (List.mem_cons_of_mem _ hc')
    rw [List.reverse_cons, List.append_assoc, List.singleton_append]
    exact .head hlink htail

theorem mem_ends_star_char {greedy : Bool} {p : α → Bool} {s : Place α} {w rest : List α}
    (hafter : s.after = w ++ rest) (hw : ∀ c ∈ w, p c = true) :
    ⟨w.reverse ++ s.before, rest, s.groups⟩ ∈ (star greedy (char p)).ends s :=
  mem_ends_star_of_letters hafter fun c hc _ after => mem_ends_char.2 ⟨c, after, rfl, hw c hc, rfl⟩

/-- Some letters, one after the other. -/
theorem mem_ends_times_char {p : α → Bool} {n : ℕ} {s : Place α} {w rest : List α}
    (hafter : s.after = w ++ rest) (hlength : w.length = n) (hw : ∀ c ∈ w, p c = true) :
    ⟨w.reverse ++ s.before, rest, s.groups⟩ ∈ (times n (char p)).ends s := by
  induction n generalizing s w with
  | zero =>
    obtain rfl := List.length_eq_zero_iff.1 hlength
    obtain ⟨before, after, groups⟩ := s
    obtain rfl : after = rest := hafter
    exact List.mem_singleton_self _
  | succ n ih =>
    obtain ⟨before, after, groups⟩ := s
    cases w with
    | nil => cases hlength
    | cons c w =>
      obtain rfl : after = c :: (w ++ rest) := hafter
      refine mem_ends_seq.2 ⟨⟨c :: before, w ++ rest, groups⟩, ?_, ?_⟩
      · exact mem_ends_char.2 ⟨c, w ++ rest, rfl, hw c List.mem_cons_self, rfl⟩
      · rw [List.reverse_cons, List.append_assoc, List.singleton_append]
        exact ih (s := ⟨c :: before, w ++ rest, groups⟩) rfl (Nat.succ.inj hlength)
          fun c' hc' => hw c' (List.mem_cons_of_mem _ hc')

/-- A chain of letters reads letters of its class. -/
theorem exists_of_mem_ends_star_char {greedy : Bool} {p : α → Bool} {s t : Place α}
    (h : t ∈ (star greedy (char p)).ends s) :
    ∃ w, s.after = w ++ t.after ∧ t.before = w.reverse ++ s.before ∧ t.groups = s.groups ∧
      ∀ c ∈ w, p c = true := by
  rw [mem_ends_star] at h
  induction h using Relation.ReflTransGen.head_induction_on with
  | refl => exact ⟨[], rfl, rfl, rfl, by simp⟩
  | head hlink _ ih =>
    obtain ⟨c, after, hafter, hp, rfl⟩ := mem_ends_char.1 hlink.1
    obtain ⟨w, hw, hbefore, hgroups, hall⟩ := ih
    refine ⟨c :: w, ?_, ?_, hgroups, ?_⟩
    · rw [hafter]
      exact congrArg (c :: ·) hw
    · rw [hbefore, List.reverse_cons, List.append_assoc, List.singleton_append]
    · simpa [hp] using hall

/-- A match reads a stretch of the text. -/
theorem Pattern.ends_reads {a : Pattern α} {s t : Place α} (h : t ∈ a.ends s) : Reads s t := by
  induction a generalizing s t with
  | empty =>
    obtain rfl : t = s := List.mem_singleton.1 h
    exact .refl _
  | char p =>
    obtain ⟨c, after, hafter, -, rfl⟩ := mem_ends_char.1 h
    exact ⟨[c], hafter, rfl⟩
  | look p =>
    obtain ⟨-, rfl⟩ := mem_ends_look.1 h
    exact .refl _
  | seq a b iha ihb =>
    obtain ⟨u, hu, ht⟩ := mem_ends_seq.1 h
    exact (iha hu).trans (ihb ht)
  | alt a b iha ihb => exact (mem_ends_alt.1 h).elim iha ihb
  | star greedy a ih =>
    have hchain := mem_ends_star.1 h
    induction hchain using Relation.ReflTransGen.head_induction_on with
    | refl => exact .refl _
    | head hlink htail ih' => exact (ih hlink.1).trans (ih' (mem_ends_star.2 htail))
  | group n a ih =>
    obtain ⟨u, hu, rfl⟩ := List.mem_map.1 h
    have hreads : Reads s u := ih hu
    exact hreads
  | again n =>
    rw [ends] at h
    cases hgroup : s.groups n with
    | none => simp [hgroup] at h
    | some w =>
      simp only [hgroup] at h
      split_ifs at h with hprefix
      · obtain rfl := List.mem_singleton.1 h
        obtain ⟨rest, hrest⟩ := hprefix
        exact ⟨w, by simp [← hrest], rfl⟩
      · cases h

/-- The pattern reads letters of a kind only. -/
def Pattern.OnlyReads (p : α → Prop) : Pattern α → Prop
  | empty => True
  | char q => ∀ c, q c = true → p c
  | look _ => True
  | seq a b => a.OnlyReads p ∧ b.OnlyReads p
  | alt a b => a.OnlyReads p ∧ b.OnlyReads p
  | star _ a => a.OnlyReads p
  | group _ a => a.OnlyReads p
  | again _ => False

omit [DecidableEq α] in
theorem Pattern.OnlyReads.times {p : α → Prop} {a : Pattern α} (h : a.OnlyReads p) (n : ℕ) :
    (times n a).OnlyReads p := by
  induction n with
  | zero => trivial
  | succ n ih => exact ⟨h, ih⟩

theorem Pattern.OnlyReads.forall_mem {p : α → Prop} {a : Pattern α} (ha : a.OnlyReads p)
    {s t : Place α} (h : t ∈ a.ends s) {w : List α} (hw : s.after = w ++ t.after) :
    ∀ c ∈ w, p c := by
  induction a generalizing s t w with
  | empty =>
    obtain rfl := mem_ends_empty.1 h
    obtain rfl : w = [] := by simpa using hw
    simp
  | char q =>
    obtain ⟨c, after, hafter, hq, rfl⟩ := mem_ends_char.1 h
    obtain rfl : w = [c] := by
      rw [hafter, ← List.singleton_append] at hw
      exact (List.append_cancel_right hw).symm
    simpa using ha c hq
  | look q =>
    obtain ⟨-, rfl⟩ := mem_ends_look.1 h
    obtain rfl : w = [] := by simpa using hw
    simp
  | seq a b iha ihb =>
    obtain ⟨u, hu, ht⟩ := mem_ends_seq.1 h
    obtain ⟨x, hx, -⟩ := ends_reads hu
    obtain ⟨y, hy, -⟩ := ends_reads ht
    obtain rfl : w = x ++ y := by
      rw [hx, hy, ← List.append_assoc] at hw
      exact (List.append_cancel_right hw).symm
    have hax := iha ha.1 hu hx
    have hby := ihb ha.2 ht hy
    simpa [or_imp, forall_and] using ⟨hax, hby⟩
  | alt a b iha ihb =>
    exact (mem_ends_alt.1 h).elim (fun h' => iha ha.1 h' hw) fun h' => ihb ha.2 h' hw
  | star greedy a ih =>
    have hchain := mem_ends_star.1 h
    induction hchain using Relation.ReflTransGen.head_induction_on generalizing w with
    | refl =>
      obtain rfl : w = [] := by simpa using hw
      simp
    | head hlink htail ih' =>
      obtain ⟨x, hx, -⟩ := ends_reads hlink.1
      have hstar : t ∈ (star greedy a).ends _ := mem_ends_star.2 htail
      obtain ⟨y, hy, -⟩ := ends_reads hstar
      obtain rfl : w = x ++ y := by
        rw [hx, hy, ← List.append_assoc] at hw
        exact (List.append_cancel_right hw).symm
      have hax := ih ha hlink.1 hx
      have hay := ih' hstar hy
      simpa [or_imp, forall_and] using ⟨hax, hay⟩
  | group n a ih =>
    obtain ⟨u, hu, rfl⟩ := List.mem_map.1 h
    exact ih (t := u) ha hu hw
  | again n => exact ha.elim

/-- A pattern that consumes reads at least one letter. -/
theorem Pattern.ends_consumes {a : Pattern α} (ha : a.consumes = true) {s t : Place α}
    (h : t ∈ a.ends s) : t.after.length < s.after.length := by
  induction a generalizing s t with
  | empty => cases ha
  | char p =>
    obtain ⟨c, after, hafter, -, rfl⟩ := mem_ends_char.1 h
    simp [hafter]
  | look p => cases ha
  | seq a b iha ihb =>
    obtain ⟨u, hu, ht⟩ := mem_ends_seq.1 h
    rw [consumes, Bool.or_eq_true] at ha
    have hu' := (ends_reads hu).length_le
    have ht' := (ends_reads ht).length_le
    rcases ha with ha | hb
    · have := iha ha hu
      omega
    · have := ihb hb ht
      omega
  | alt a b iha ihb =>
    rw [consumes, Bool.and_eq_true] at ha
    exact (mem_ends_alt.1 h).elim (iha ha.1) (ihb ha.2)
  | star greedy a ih => cases ha
  | group n a ih =>
    obtain ⟨u, hu, rfl⟩ := List.mem_map.1 h
    have hlength : u.after.length < s.after.length := ih ha hu
    exact hlength
  | again n => cases ha

/-! ### Search -/

/-- The first match at a place. -/
def Pattern.find (a : Pattern α) (before after : List α) : Option (Place α) :=
  (a.ends (.mk₀ before after)).head?

theorem Pattern.find_eq_none {a : Pattern α} {before after : List α} :
    a.find before after = none ↔ ∀ t, t ∉ a.ends (.mk₀ before after) := by
  rw [find, List.head?_eq_none_iff, List.eq_nil_iff_forall_not_mem]

theorem Pattern.find_ne_none {a : Pattern α} {before after : List α} {t : Place α}
    (h : t ∈ a.ends (.mk₀ before after)) : a.find before after ≠ none :=
  fun hnone => find_eq_none.1 hnone t h

theorem Pattern.mem_of_find {a : Pattern α} {before after : List α} {t : Place α}
    (h : a.find before after = some t) : t ∈ a.ends (.mk₀ before after) :=
  List.mem_of_head? h

/-- The first match in the text behind a place. -/
def Pattern.searchFrom (a : Pattern α) (before : List α) : List α → Option (Place α)
  | [] => a.find before []
  | c :: after => (a.find before (c :: after)).or (a.searchFrom (c :: before) after)

/-- `pattern.search(text)` finds something. -/
def Pattern.occursIn (a : Pattern α) (text : List α) : Bool := (a.searchFrom [] text).isSome

theorem Pattern.isSome_searchFrom {a : Pattern α} {before text : List α} :
    (a.searchFrom before text).isSome = true ↔
      ∃ u v, text = u ++ v ∧ (a.find (u.reverse ++ before) v).isSome = true := by
  induction text generalizing before with
  | nil =>
    rw [searchFrom]
    constructor
    · exact fun h => ⟨[], [], rfl, h⟩
    · rintro ⟨u, v, huv, h⟩
      obtain ⟨rfl, rfl⟩ := List.append_eq_nil_iff.1 huv.symm
      exact h
  | cons c text ih =>
    rw [searchFrom, Option.isSome_or, Bool.or_eq_true, ih]
    constructor
    · rintro (h | ⟨u, v, rfl, h⟩)
      · exact ⟨[], c :: text, rfl, h⟩
      · refine ⟨c :: u, v, rfl, ?_⟩
        rwa [List.reverse_cons, List.append_assoc, List.singleton_append]
    · rintro ⟨_ | ⟨c', u⟩, v, huv, h⟩
      · obtain rfl : c :: text = v := huv
        exact .inl h
      · obtain ⟨rfl, rfl⟩ := List.cons.inj huv
        rw [List.reverse_cons, List.append_assoc, List.singleton_append] at h
        exact .inr ⟨u, v, rfl, h⟩

/-! ### Replacement -/

/-- A pattern that reads something, and what takes the place of a match. -/
structure Rule (α : Type*) where
  pattern : Pattern α
  replacement : Place α → List α
  consumes : pattern.consumes = true

namespace Rule

/-- `pattern.sub(replacement, text)`, from a place on: the matches are replaced from left to right,
and look at the text as it was. -/
def sub (r : Rule α) (before after : List α) : List α :=
  match _h : r.pattern.find before after with
  | some t => r.replacement t ++ r.sub t.before t.after
  | none =>
      match after with
      | [] => []
      | c :: after => c :: r.sub (c :: before) after
termination_by after.length
decreasing_by
  · exact ends_consumes r.consumes (mem_of_find _h)
  · simp

variable {r : Rule α}

theorem sub_of_find {before after : List α} {t : Place α}
    (h : r.pattern.find before after = some t) :
    r.sub before after = r.replacement t ++ r.sub t.before t.after := by
  rw [sub]
  split <;> simp_all

theorem sub_cons {before after : List α} {c : α}
    (h : r.pattern.find before (c :: after) = none) :
    r.sub before (c :: after) = c :: r.sub (c :: before) after := by
  rw [sub]
  split <;> simp_all

@[simp] theorem sub_nil {before : List α} : r.sub before [] = [] := by
  have hnone : r.pattern.find before [] = none := by
    rw [find_eq_none]
    intro t ht
    have := ends_consumes r.consumes ht
    simp [Place.mk₀] at this
  rw [sub]
  split <;> simp_all

/-- A replacement leaves a match, or the letter at its place. -/
theorem sub_induction {motive : List α → List α → List α → Prop}
    (nil : ∀ before, motive before [] [])
    (kept : ∀ before c after, r.pattern.find before (c :: after) = none →
      motive (c :: before) after (r.sub (c :: before) after) →
        motive before (c :: after) (c :: r.sub (c :: before) after))
    (replaced : ∀ before after t, r.pattern.find before after = some t →
      motive t.before t.after (r.sub t.before t.after) →
        motive before after (r.replacement t ++ r.sub t.before t.after))
    (before after : List α) : motive before after (r.sub before after) := by
  induction hlength : after.length using Nat.strong_induction_on generalizing before after with
  | _ n ih =>
    subst hlength
    cases hfind : r.pattern.find before after with
    | some t =>
      rw [sub_of_find hfind]
      exact replaced before after t hfind
        (ih _ (ends_consumes r.consumes (mem_of_find hfind)) t.before t.after rfl)
    | none =>
      cases after with
      | nil =>
        rw [sub_nil]
        exact nil before
      | cons c after =>
        rw [sub_cons hfind]
        exact kept before c after hfind (ih _ (by simp) (c :: before) after rfl)

/-- No letter becomes more frequent that no replacement has. -/
theorem count_sub_le {x : α} (hx : ∀ t, x ∉ r.replacement t) (before after : List α) :
    (r.sub before after).count x ≤ after.count x := by
  refine sub_induction (motive := fun _ after out => out.count x ≤ after.count x)
    (fun _ => Nat.le_refl _) ?_ ?_ before after
  · intro before c after _ ih
    rw [List.count_cons, List.count_cons]
    omega
  · intro before after t hfind ih
    obtain ⟨w, hafter, -⟩ := ends_reads (mem_of_find hfind)
    obtain rfl : after = w ++ t.after := hafter
    rw [List.count_append, List.count_append, List.count_eq_zero.2 (hx t)]
    omega

/-- **A letter is left once at most, when a match begins at each of its occurrences that is not
the last one.** -/
theorem count_sub_le_one {x : α} (hx : ∀ t, x ∉ r.replacement t)
    (hfind : ∀ before after, x ∈ after → r.pattern.find before (x :: after) ≠ none)
    (before after : List α) : (r.sub before after).count x ≤ 1 := by
  refine sub_induction (motive := fun _ _ out => out.count x ≤ 1) (fun _ => by simp) ?_ ?_
    before after
  · intro before c after hnone ih
    by_cases hc : c = x
    · subst hc
      have hlast : c ∉ after := fun hmem => hfind before after hmem hnone
      have hzero := count_sub_le hx (c :: before) after
      rw [List.count_eq_zero.2 hlast] at hzero
      simp
      omega
    · rw [List.count_cons_of_ne hc]
      exact ih
  · intro before after t _ ih
    rw [List.count_append, List.count_eq_zero.2 (hx t)]
    omega

/-- Letters that no match reads and no replacement has stay as they are. -/
theorem filter_sub {p : α → Bool} (hp : ∀ t, ∀ c ∈ r.replacement t, p c = false)
    (hread : ∀ before after t w, r.pattern.find before after = some t → after = w ++ t.after →
      ∀ c ∈ w, p c = false) (before after : List α) :
    (r.sub before after).filter p = after.filter p := by
  refine sub_induction (motive := fun _ after out => out.filter p = after.filter p)
    (fun _ => rfl) ?_ ?_ before after
  · intro before c after _ ih
    rw [List.filter_cons, List.filter_cons, ih]
  · intro before after t hfind ih
    obtain ⟨w, hafter, -⟩ := ends_reads (mem_of_find hfind)
    obtain rfl : after = w ++ t.after := hafter
    have hw : w.filter p = [] := by
      simpa using hread before _ t w hfind rfl
    have hreplacement : (r.replacement t).filter p = [] := by
      simpa using hp t
    rw [List.filter_append, List.filter_append, hw, hreplacement, ih]

/-! ### Two equal letters on a line -/

/-- The letters `x` and the line ends `b` of a text. -/
def marks (x b : α) (text : List α) : List α := text.filter fun c => c = x ∨ c = b

/-- Replacements of stretches of a line that hide every two letters `x` of it. -/
structure HidesPairs (r : Rule α) (x b : α) : Prop where
  ne : x ≠ b
  replacement : ∀ t, x ∉ r.replacement t ∧ b ∉ r.replacement t
  read : ∀ before after t w, r.pattern.find before after = some t → after = w ++ t.after → b ∉ w
  find : ∀ before w after, b ∉ w → r.pattern.find before (x :: (w ++ x :: after)) ≠ none

theorem HidesPairs.marks_replacement {x b : α} (h : r.HidesPairs x b) (t : Place α) :
    marks x b (r.replacement t) = [] := by
  refine List.filter_eq_nil_iff.2 fun c hc => ?_
  have hx := (h.replacement t).1
  have hb := (h.replacement t).2
  grind

/-- A line end that comes first stays so. -/
theorem HidesPairs.marks_sub {x b : α} (h : r.HidesPairs x b) {before after l : List α}
    (hafter : marks x b after = b :: l) : ∃ l', marks x b (r.sub before after) = b :: l' := by
  refine sub_induction
    (motive := fun _ after out => ∀ l, marks x b after = b :: l → ∃ l', marks x b out = b :: l')
    ?_ ?_ ?_ before after l hafter
  · intro _ l hl
    cases hl
  · intro before c after _ ih l hl
    by_cases hb : c = b
    · exact ⟨marks x b (r.sub (c :: before) after), by simp [marks, hb]⟩
    · have hx : c ≠ x := by
        rintro rfl
        simp only [marks, List.filter_cons, true_or, decide_true, if_true, List.cons.injEq] at hl
        exact h.ne hl.1
      have hskip : ∀ rest, marks x b (c :: rest) = marks x b rest := fun rest => by
        simp [marks, hb, hx]
      rw [hskip] at hl ⊢
      exact ih l hl
  · intro before after t hfind ih l hl
    obtain ⟨w, hafter, -⟩ := ends_reads (mem_of_find hfind)
    obtain rfl : after = w ++ t.after := hafter
    have hread := h.read before _ t w hfind rfl
    -- what the match reads has no mark: the first one is a line end
    have hw : marks x b w = [] := by
      cases hmarks : marks x b w with
      | nil => rfl
      | cons c rest =>
        have hc : c ∈ marks x b w := hmarks ▸ List.mem_cons_self
        have hcons : marks x b (w ++ t.after) = c :: (rest ++ marks x b t.after) := by
          rw [marks, List.filter_append]
          exact congrArg (· ++ marks x b t.after) hmarks
        obtain rfl : c = b := (List.cons.inj (hcons.symm.trans hl)).1
        exact absurd (List.mem_of_mem_filter hc) hread
    have hsplit : ∀ u v, marks x b (u ++ v) = marks x b u ++ marks x b v := fun u v =>
      List.filter_append ..
    rw [hsplit, hw, List.nil_append] at hl
    rw [hsplit, h.marks_replacement, List.nil_append]
    exact ih l hl

/-- **No two letters `x` of one line are left.** -/
theorem HidesPairs.not_pair {x b : α} (h : r.HidesPairs x b) (before after : List α) :
    ¬ [x, x] <:+: marks x b (r.sub before after) := by
  refine sub_induction (motive := fun _ _ out => ¬ [x, x] <:+: marks x b out)
    (fun _ => by simp [marks]) ?_ ?_ before after
  · intro before c after hnone ih
    by_cases hx : c = x
    · subst hx
      have hcons : marks c b (c :: r.sub (c :: before) after) =
          c :: marks c b (r.sub (c :: before) after) := by
        simp [marks]
      rw [hcons, List.infix_cons_iff]
      rintro (hstart | hinfix)
      · -- the next mark of the text is a line end, for the pattern finds nothing here
        obtain ⟨l, hl⟩ := (List.cons_prefix_cons.1 hstart).2
        cases hmarks : marks c b after with
        | nil =>
          have hnot : c ∉ after := fun hmem => by
            have : c ∈ marks c b after := List.mem_filter.2 ⟨hmem, by simp⟩
            simp [hmarks] at this
          have hzero := count_sub_le (fun t => (h.replacement t).1) (c :: before) after
          rw [List.count_eq_zero.2 hnot, Nat.le_zero, List.count_eq_zero] at hzero
          refine hzero (List.mem_of_mem_filter (p := fun d => d = c ∨ d = b) ?_)
          change c ∈ marks c b (r.sub (c :: before) after)
          rw [← hl]
          simp
        | cons d rest =>
          have hd : d ∈ marks c b after := hmarks ▸ List.mem_cons_self
          obtain rfl | rfl : d = c ∨ d = b := by simpa using (List.mem_filter.1 hd).2
          · obtain ⟨w, v, rfl, hw, -, -⟩ := List.filter_eq_cons_iff.1 hmarks
            refine h.find before w v ?_ hnone
            intro hb
            simpa using hw b hb
          · have hsub : ∃ l', marks c d (r.sub (c :: before) after) = d :: l' := h.marks_sub hmarks
            obtain ⟨l', hl'⟩ := hsub
            rw [← hl] at hl'
            exact h.ne (List.cons.inj hl').1
      · exact ih hinfix
    · by_cases hb : c = b
      · subst hb
        have hcons : marks x c (c :: r.sub (c :: before) after) =
            c :: marks x c (r.sub (c :: before) after) := by
          simp [marks]
        rw [hcons, List.infix_cons_iff]
        rintro (hstart | hinfix)
        · exact hx (List.cons_prefix_cons.1 hstart).1.symm
        · exact ih hinfix
      · have hskip : marks x b (c :: r.sub (c :: before) after) =
            marks x b (r.sub (c :: before) after) := by
          simp [marks, hx, hb]
        rw [hskip]
        exact ih
  · intro before after t _ ih
    have hsplit : marks x b (r.replacement t ++ r.sub t.before t.after) =
        marks x b (r.sub t.before t.after) := by
      rw [marks, List.filter_append]
      exact congrArg (· ++ marks x b (r.sub t.before t.after)) (h.marks_replacement t)
    rw [hsplit]
    exact ih

/-- Where no two marks `x` follow each other, a line end lies between any two letters `x`. -/
theorem mem_of_not_pair {x b : α} {text u w v : List α} (h : ¬ [x, x] <:+: marks x b text)
    (htext : text = u ++ x :: (w ++ x :: v)) : b ∈ w := by
  by_contra hb
  refine h ?_
  have hw : ∀ c ∈ marks x b w, c = x := by
    intro c hc
    obtain ⟨hmem, hmark⟩ := List.mem_filter.1 hc
    rcases of_decide_eq_true hmark with hx | rfl
    · exact hx
    · exact absurd hmem hb
  have hmarks : marks x b text = marks x b u ++ x :: (marks x b w ++ x :: marks x b v) := by
    simp [htext, marks]
  rw [hmarks]
  cases hrest : marks x b w with
  | nil => exact ⟨marks x b u, marks x b v, by simp⟩
  | cons c rest =>
    obtain rfl : c = x := hw c (hrest ▸ List.mem_cons_self)
    exact ⟨marks c b u, rest ++ c :: marks c b v, by simp⟩

/-! ### Runs of letters -/

/-- Replacements that hide the runs of at least `n` letters of `run`, where no letter of `left`
stands before the run and no letter of `right` behind it. -/
structure HidesRuns (r : Rule α) (run left right : α → Bool) (n : ℕ) : Prop where
  pos : 0 < n
  left_of_run : ∀ c, run c = true → left c = true
  right_of_run : ∀ c, run c = true → right c = true
  replacement : ∀ t, ∃ c w, r.replacement t = c :: w ∧ ∀ d ∈ c :: w, run d = false
  free : ∀ before after t, r.pattern.find before after = some t →
    (∀ c ∈ before.head?, left c = false) ∧ ∀ c ∈ t.after.head?, right c = false
  find : ∀ before w after, n ≤ w.length → (∀ c ∈ w, run c = true) →
    (∀ c ∈ before.head?, left c = false) → (∀ c ∈ after.head?, right c = false) →
      r.pattern.find before (w ++ after) ≠ none

namespace HidesRuns

variable {run left right : α → Bool} {n : ℕ}

/-- Behind a letter of `left`, no match begins. -/
theorem find_eq_none (h : r.HidesRuns run left right n) {before after : List α} {c : α}
    (hc : left c = true) : r.pattern.find (c :: before) after = none := by
  cases hfind : r.pattern.find (c :: before) after with
  | none => rfl
  | some t =>
    have hfree := (h.free _ _ t hfind).1 c rfl
    rw [hc] at hfree
    cases hfree

/-- A run that comes out first is kept, once its first letter is. -/
theorem exists_kept (h : r.HidesRuns run left right n) {w out before after : List α} {c : α}
    (hc : run c = true) (hw : ∀ d ∈ w, run d = true)
    (hsub : r.sub (c :: before) after = w ++ out) :
    ∃ rest, after = w ++ rest ∧ out = r.sub (w.reverse ++ c :: before) rest := by
  induction w generalizing c before after with
  | nil => exact ⟨after, rfl, hsub.symm⟩
  | cons d w ih =>
    have hnone : r.pattern.find (c :: before) after = none :=
      h.find_eq_none (h.left_of_run c hc)
    cases after with
    | nil => simp at hsub
    | cons e after =>
      rw [sub_cons hnone] at hsub
      obtain ⟨rfl, htail⟩ := List.cons.inj hsub
      obtain ⟨rest, rfl, hout⟩ := ih (hw e List.mem_cons_self)
        (fun d hd => hw d (List.mem_cons_of_mem _ hd)) htail
      refine ⟨rest, rfl, ?_⟩
      rw [hout, List.reverse_cons, List.append_assoc, List.singleton_append]

/-- What comes out behind a match begins with no letter of a run. -/
theorem head?_sub (h : r.HidesRuns run left right n) {before after : List α}
    (hafter : ∀ c ∈ after.head?, right c = false) :
    ∀ c ∈ (r.sub before after).head?, run c = false := by
  intro c hc
  cases hfind : r.pattern.find before after with
  | some t =>
    obtain ⟨d, w, hreplacement, hrun⟩ := h.replacement t
    rw [sub_of_find hfind, hreplacement] at hc
    obtain rfl : d = c := Option.some.inj hc
    exact hrun d List.mem_cons_self
  | none =>
    cases after with
    | nil => simp at hc
    | cons d after =>
      rw [sub_cons hfind] at hc
      obtain rfl : d = c := Option.some.inj hc
      rw [Bool.eq_false_iff]
      intro hrun
      have hright := hafter d rfl
      rw [h.right_of_run d hrun] at hright
      cases hright

/-- A run that is left and starts at `w` stands behind a letter of `left` or before a letter of
`right`. -/
theorem glued_of_starts (h : r.HidesRuns run left right n) {before after u w v : List α}
    (hsub : r.sub before after = u ++ (w ++ v)) (hlength : n ≤ w.length)
    (hw : ∀ c ∈ w, run c = true) (hu : ∀ c ∈ (u.reverse ++ before).head?, run c = false) :
    (∃ c ∈ (u.reverse ++ before).head?, left c = true) ∨ ∃ c ∈ v.head?, right c = true := by
  have hne : w ≠ [] := by
    rintro rfl
    exact absurd hlength (Nat.not_le.2 h.pos)
  refine sub_induction (motive := fun before after out => ∀ u, out = u ++ (w ++ v) →
      (∀ c ∈ (u.reverse ++ before).head?, run c = false) →
        (∃ c ∈ (u.reverse ++ before).head?, left c = true) ∨ ∃ c ∈ v.head?, right c = true)
    ?_ ?_ ?_ before after u hsub hu
  · intro before u hnil
    simp only [List.nil_eq, List.append_eq_nil_iff] at hnil
    exact absurd hnil.2.1 hne
  · intro before c after hnone ih u hout hu
    cases u with
    | cons d u =>
      obtain ⟨rfl, htail⟩ := List.cons.inj hout
      rw [List.reverse_cons, List.append_assoc, List.singleton_append] at hu ⊢
      exact ih u htail hu
    | nil =>
      obtain ⟨d, w', rfl⟩ := List.exists_cons_of_ne_nil hne
      obtain ⟨rfl, htail⟩ := List.cons.inj hout
      have hc := hw c List.mem_cons_self
      have hrest : ∀ d ∈ w', run d = true := fun d hd => hw d (List.mem_cons_of_mem _ hd)
      obtain ⟨rest, rfl, hv⟩ := h.exists_kept hc hrest htail
      by_contra hfree
      obtain ⟨hleft, hright⟩ := not_or.1 hfree
      refine h.find before (c :: w') rest hlength hw ?_ ?_ hnone
      · intro d hd
        exact Bool.eq_false_iff.2 fun h' => hleft ⟨d, hd, h'⟩
      · intro e he
        rw [Bool.eq_false_iff]
        intro hrighte
        refine hright ⟨e, ?_, hrighte⟩
        obtain ⟨rest, rfl⟩ : ∃ rest', rest = e :: rest' := by
          cases rest with
          | nil => cases he
          | cons e' rest => exact ⟨rest, by rw [Option.some.inj he]⟩
        -- the letter behind the run is kept, for a letter of the run stands before it
        obtain ⟨last, init, hlast⟩ : ∃ last init, w'.reverse ++ c :: before = last :: init ∧
            run last = true := by
          cases hreverse : w'.reverse with
          | nil => exact ⟨c, before, rfl, hc⟩
          | cons last init =>
            refine ⟨last, init ++ c :: before, rfl, hrest last ?_⟩
            rw [← List.mem_reverse, hreverse]
            exact List.mem_cons_self
        rw [hv, hlast.1, sub_cons (h.find_eq_none (h.left_of_run last hlast.2))]
        rfl
  · intro before after t hfind ih u hout hu
    obtain ⟨c, m, hreplacement, hrun⟩ := h.replacement t
    rw [hreplacement] at hout
    -- the replacement has no letter of a run, so that the run comes behind it
    obtain ⟨u', rfl, hout'⟩ : ∃ u', u = (c :: m) ++ u' ∧
        r.sub t.before t.after = u' ++ (w ++ v) := by
      rcases List.append_eq_append_iff.1 hout with ⟨u', hu', hsub'⟩ | ⟨x, hx, hwx⟩
      · exact ⟨u', hu', hsub'⟩
      · cases x with
        | nil => exact ⟨[], by simpa using hx.symm, by simpa using hwx.symm⟩
        | cons d x =>
          obtain ⟨d', w', rfl⟩ := List.exists_cons_of_ne_nil hne
          obtain ⟨rfl, -⟩ := List.cons.inj hwx
          have hfalse := hrun d' (by rw [hx]; simp)
          rw [hw d' List.mem_cons_self] at hfalse
          cases hfalse
    have hu'ne : u' ≠ [] := by
      rintro rfl
      obtain ⟨d, w', rfl⟩ := List.exists_cons_of_ne_nil hne
      have hhead : ∀ c ∈ (r.sub t.before t.after).head?, run c = false :=
        h.head?_sub (h.free _ _ t hfind).2
      have hd := hhead d (by rw [hout']; rfl)
      rw [hw d List.mem_cons_self] at hd
      cases hd
    have hhead : (((c :: m) ++ u').reverse ++ before).head? = (u'.reverse ++ t.before).head? := by
      obtain ⟨last, init, hreverse⟩ :=
        List.exists_cons_of_ne_nil (List.reverse_ne_nil_iff.2 hu'ne)
      rw [List.reverse_append, hreverse]
      rfl
    rw [hhead] at hu ⊢
    exact ih u' hout' hu

/-- **A run that is left stands behind a letter of `left` or before a letter of `right`.** -/
theorem glued (h : r.HidesRuns run left right n) {text u w v : List α}
    (hsub : r.sub [] text = u ++ (w ++ v)) (hlength : n ≤ w.length)
    (hw : ∀ c ∈ w, run c = true) :
    (∃ c ∈ u.getLast?, left c = true) ∨ ∃ c ∈ v.head?, right c = true := by
  have hlast : (u.reverse ++ []).head? = u.getLast? := by simp
  by_cases hu : ∃ c ∈ u.getLast?, run c = true
  · obtain ⟨c, hc, hrun⟩ := hu
    exact .inl ⟨c, hc, h.left_of_run c hrun⟩
  · rw [← hlast] at hu ⊢
    refine h.glued_of_starts hsub hlength hw fun c hc => Bool.eq_false_iff.2 fun hrun => ?_
    exact hu ⟨c, hc, hrun⟩

end HidesRuns

end Rule

end Patterns
