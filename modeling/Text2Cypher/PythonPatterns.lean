import Text2Cypher.Library.DecimalText
import Text2Cypher.Library.Pattern

/-!
# Pieces of Python's regular expressions

The classes and anchors that the patterns of the code are made of.  `\w` is a parameter, as in
`WordClass`.
-/

namespace Patterns

open Pattern

/-- The characters of a text, as they are. -/
def exactly (text : String) : Pattern Char := .word (fun c d => c == d) text.toList

/-- The characters of a text in capitals, ignoring case. -/
def anyCase (text : String) : Pattern Char := .word Python.matchesIgnoreCase text.toList

def digit : Pattern Char := .char Python.isDigit

def space : Pattern Char := .char Python.isSpace

/-- No character of a class stands before the place. -/
def notBehind (p : Char → Bool) : Pattern Char := .look fun before _ => before.head?.all (!p ·)

/-- No character of a class stands behind the place. -/
def notBefore (p : Char → Bool) : Pattern Char := .look fun _ after => after.head?.all (!p ·)

/-- `\b`. -/
def boundary (k : WordClass) : Pattern Char :=
  .look fun before after => before.head?.any k.isWord != after.head?.any k.isWord

/-- `^`. -/
def start : Pattern Char := .look fun before _ => before.isEmpty

/-- `$`: the end, or a line break that ends the text. -/
def finish : Pattern Char := .look fun _ after => after.isEmpty || after == ['\n']

/-- One pattern after the other. -/
def inTurn (patterns : List (Pattern Char)) : Pattern Char := patterns.foldr .seq .empty

theorem mem_ends_inTurn_cons {a : Pattern Char} {rest : List (Pattern Char)} {s t : Place Char} :
    t ∈ (inTurn (a :: rest)).ends s ↔ ∃ u ∈ a.ends s, t ∈ (inTurn rest).ends u :=
  mem_ends_seq

theorem mem_ends_inTurn_nil {s t : Place Char} : t ∈ (inTurn []).ends s ↔ t = s := mem_ends_empty

theorem mem_ends_inTurn_singleton {a : Pattern Char} {s t : Place Char} :
    t ∈ (inTurn [a]).ends s ↔ t ∈ a.ends s := by
  simp [mem_ends_inTurn_cons, mem_ends_inTurn_nil]

theorem mem_ends_inTurn_append {patterns patterns' : List (Pattern Char)} {s t : Place Char} :
    t ∈ (inTurn (patterns ++ patterns')).ends s ↔
      ∃ u ∈ (inTurn patterns).ends s, t ∈ (inTurn patterns').ends u := by
  induction patterns generalizing s with
  | nil => simp [mem_ends_inTurn_nil]
  | cons a patterns ih =>
    simp only [List.cons_append, mem_ends_inTurn_cons, ih]
    constructor
    · rintro ⟨u, hu, v, hv, ht⟩
      exact ⟨v, ⟨u, hu, hv⟩, ht⟩
    · rintro ⟨v, ⟨u, hu, hv⟩, ht⟩
      exact ⟨u, hu, v, hv, ht⟩

theorem mem_ends_notBehind {p : Char → Bool} {s t : Place Char} :
    t ∈ (notBehind p).ends s ↔ (∀ c ∈ s.before.head?, p c = false) ∧ t = s := by
  rw [notBehind, mem_ends_look]
  cases s.before.head? <;> simp

theorem mem_ends_notBefore {p : Char → Bool} {s t : Place Char} :
    t ∈ (notBefore p).ends s ↔ (∀ c ∈ s.after.head?, p c = false) ∧ t = s := by
  rw [notBefore, mem_ends_look]
  cases s.after.head? <;> simp

/-- A pattern between two looks around finds nothing next to their letters. -/
theorem free_of_find {left right : Char → Bool} (patterns : List (Pattern Char))
    {before after : Text} {t : Place Char}
    (h : (inTurn (notBehind left :: (patterns ++ [notBefore right]))).find before after = some t) :
    (∀ c ∈ before.head?, left c = false) ∧ ∀ c ∈ t.after.head?, right c = false := by
  obtain ⟨u, hu, ht⟩ := mem_ends_inTurn_cons.1 (mem_of_find h)
  obtain ⟨hleft, rfl⟩ := mem_ends_notBehind.1 hu
  obtain ⟨v, -, hv⟩ := mem_ends_inTurn_append.1 ht
  obtain ⟨hright, rfl⟩ := mem_ends_notBefore.1 (mem_ends_inTurn_singleton.1 hv)
  exact ⟨hleft, hright⟩

end Patterns
