import Text2Cypher.Entities.ComparedStretches

/-!
# Boundaries of words

A name is only to be found in the question where no ASCII word goes on before or behind it.  The
spans of a name as it is written keep to that.  The spans up to blanks and commas are checked with
the first and the last character of the name as it is given: a comma, a blank or a letter that only
folds to an ASCII letter there switches the check off.

* `EdgesChecked`: the stretches inside of words that the check stops;
* **`nameSpans_respect_iff`**: boundaries are kept just for names of which it stops all.
-/

namespace Entities

open Python

variable {u : UnicodeData} {removeCommas : Bool}

/-- Every stretch that is compared as the name, and that begins or ends inside of an ASCII word, has
a word character before it while the name begins with one, or one behind it while the name ends with
one. -/
def EdgesChecked (u : UnicodeData) (removeCommas : Bool) (query name : Text) : Prop :=
  ∀ a s b, u.nfc query = a ++ s ++ b → StandsFor u removeCommas name s →
    (InsideWord (u.nfc query) a.length ∨ InsideWord (u.nfc query) (a.length + s.length)) →
    (isAsciiWordAt (u.nfc name) 0 && a.getLast?.any isAsciiWordCharacter) = true ∨
      (isAsciiWordAt (u.nfc name) ((u.nfc name).length - 1) &&
        b.head?.any isAsciiWordCharacter) = true

/-- A name that begins and ends with word characters is checked at both ends. -/
theorem edgesChecked_of_word_ends {query name : Text} (hfirst : isAsciiWordAt (u.nfc name) 0 = true)
    (hlast : isAsciiWordAt (u.nfc name) ((u.nfc name).length - 1) = true) :
    EdgesChecked u removeCommas query name := by
  intro a s b hquery _ hinside
  rw [hfirst, hlast, Bool.true_and, Bool.true_and]
  rw [hquery] at hinside
  rcases hinside with hinside | hinside
  · rw [List.append_assoc, insideWord_append] at hinside
    exact Or.inl hinside.1
  · rw [← List.length_append, insideWord_append] at hinside
    exact Or.inr hinside.2

/-- A text that is folded to the name is compared as the name. -/
theorem Respects.comparison {query name : Text} {span : Span}
    (h : Respects u (fun s => casefold u (u.nfc s)) query name span) :
    Respects u (normalizedNameComparison u removeCommas) query name span := by
  refine ⟨h.start, h.finish, ?_⟩
  unfold normalizedNameComparison
  rw [h.text]

/-- **Name spans respect word boundaries** just if the name, as it is given, lets the check stop
every stretch inside of a word. -/
theorem nameSpans_respect_iff (u : UnicodeData) (hu : u.Lawful) (removeCommas : Bool)
    (query name : Text) :
    ((∀ span ∈ literalNameSpans u query name,
        Respects u (fun s => casefold u (u.nfc s)) query name span ∧
        Respects u (normalizedNameComparison u removeCommas) query name span) ∧
      ∀ span ∈ normalizedNameSpans u removeCommas query name,
        Respects u (normalizedNameComparison u removeCommas) query name span) ↔
      EdgesChecked u removeCommas query name := by
  constructor
  · rintro ⟨-, hspans⟩ a s b hquery hs hinside
    by_contra hunchecked
    rw [not_or, Bool.not_eq_true, Bool.not_eq_true] at hunchecked
    have hspan := hspans (a.length, a.length + s.length)
      ((mem_normalizedNameSpans hu).2 ⟨a, s, b, hquery, hs, rfl, hunchecked⟩)
    rcases hinside with hinside | hinside
    · exact hspan.start hinside
    · exact hspan.finish hinside
  · intro hchecked
    refine ⟨fun span hspan => ?_, fun span hspan => ?_⟩
    · have hrespects := respects_of_mem_literalNameSpans hu hspan
      exact ⟨hrespects, hrespects.comparison⟩
    · obtain ⟨a, s, b, hquery, hs, rfl, hstart, hend⟩ := (mem_normalizedNameSpans hu).1 hspan
      have hnone : ∀ i, i = a.length ∨ i = a.length + s.length →
          ¬ InsideWord (u.nfc query) i := by
        intro i hi hinside
        have hboth := hchecked a s b hquery hs (by rcases hi with rfl | rfl <;> simp [hinside])
        rw [hstart, hend] at hboth
        simp at hboth
      refine ⟨hnone _ (Or.inl rfl), hnone _ (Or.inr rfl), ?_⟩
      rw [hquery, slice_append]
      exact hs.text

/-- A comma behind the name switches the check at the end off. -/
theorem not_nameSpans_respect_bolts :
    ¬ ((∀ span ∈ literalNameSpans asciiData "bolts".toList "bolt,".toList,
        Respects asciiData (fun s => casefold asciiData (asciiData.nfc s)) "bolts".toList
          "bolt,".toList span ∧
        Respects asciiData (normalizedNameComparison asciiData true) "bolts".toList "bolt,".toList
          span) ∧
      ∀ span ∈ normalizedNameSpans asciiData true "bolts".toList "bolt,".toList,
        Respects asciiData (normalizedNameComparison asciiData true) "bolts".toList "bolt,".toList
          span) := by
  rintro ⟨-, hspans⟩
  refine (hspans (0, 4) (by decide +kernel)).finish ⟨by decide, ?_, ?_⟩
  · decide +kernel
  · decide +kernel

/-- A name that begins and ends with a letter is checked at both ends. -/
theorem nameSpans_respect_bolt :
    ((∀ span ∈ literalNameSpans asciiData "bolts, bolt".toList "bolt".toList,
        Respects asciiData (fun s => casefold asciiData (asciiData.nfc s)) "bolts, bolt".toList
          "bolt".toList span ∧
        Respects asciiData (normalizedNameComparison asciiData true) "bolts, bolt".toList
          "bolt".toList span) ∧
      ∀ span ∈ normalizedNameSpans asciiData true "bolts, bolt".toList "bolt".toList,
        Respects asciiData (normalizedNameComparison asciiData true) "bolts, bolt".toList
          "bolt".toList span) ↔
      EdgesChecked asciiData true "bolts, bolt".toList "bolt".toList :=
  nameSpans_respect_iff asciiData asciiData_lawful true _ _

end Entities
