import Mathlib
import Text2Cypher.Evaluation.Safety

/-!
# When the safety check is sound for PostgreSQL

The check looks at a text through a mask that takes a backslash for an escape in every literal and
knows neither `$tag$` nor nested comments.  PostgreSQL reads literals otherwise, and what stands in
code for PostgreSQL may be hidden by the mask.

* `ReadOnlyStatement`: what the check is to establish, in PostgreSQL's reading;
* `Hidden`: an offence in PostgreSQL's reading that the mask does not show as it is;
* `readOnlySql_sound_iff`: the check is sound for a text just if such an offence comes with one that
  the mask shows.
-/

namespace Evaluation

open Guards Postgres Python WholeWords

/-- A single statement that begins with a word to start with and has no write keyword. -/
structure ReadOnlyStatement (query : Text) : Prop where
  single : ∀ before after, readText query = before ++ (';', .code) :: after →
    ∀ x ∈ after, ¬ Solid x
  first : ∃ word ∈ sqlStart, (words query).head?.map (List.map Char.toUpper) = some word.toList
  readOnly : ∀ w ∈ words query, ∀ word ∈ sqlWriteKeywords, w.map Char.toUpper ≠ word.toList

/-! ### Both readings -/

/-- Every character with what it belongs to for PostgreSQL, and whether the mask shows it. -/
def marks (m : Postgres.Mode) (m' : Reading.Mode) : Text → List (Char × Kind × Bool)
  | [] => []
  | c :: rest =>
      (c, kindOf m c rest,
        decide (m' = .code ∧ Reading.step maskReading m' c rest.head? = .code)) ::
        marks (Postgres.step m c rest) (Reading.step maskReading m' c rest.head?) rest

def marksOf (query : Text) : List (Char × Kind × Bool) := marks (.code .apart) .code query

/-- What the mask shows of a character. -/
def shownMark (x : Char × Kind × Bool) : Char := if x.2.2 then x.1 else ' '

/-- What PostgreSQL sees of it. -/
def sqlMark (x : Char × Kind × Bool) : Char × Kind := (x.1, x.2.1)

theorem map_sqlMark (query : Text) : (marksOf query).map sqlMark = readText query := by
  have hread : ∀ (s : Text) (m : Postgres.Mode) (m' : Reading.Mode),
      (marks m m' s).map sqlMark = Postgres.read m s := by
    intro s
    induction s with
    | nil => exact fun _ _ => rfl
    | cons c s ih =>
      intro m m'
      rw [marks, List.map_cons, ih]
      rfl
  exact hread query _ _

theorem map_shownMark (query : Text) : (marksOf query).map shownMark = maskShown query := by
  have hread : ∀ (s : Text) (m : Postgres.Mode) (m' : Reading.Mode),
      (marks m m' s).map shownMark = Reading.shown (Reading.read maskReading m' s) := by
    intro s
    induction s with
    | nil => exact fun _ _ => rfl
    | cons c s ih =>
      intro m m'
      rw [marks, List.map_cons, ih, Reading.read_cons, shown_cons]
      rfl
  exact hread query _ _

/-- The words of PostgreSQL's reading, with their marks. -/
def wordMarks (query : Text) : List (List (Char × Kind × Bool)) :=
  ((wholeWords (fun x => inName (sqlMark x)) (marksOf query)).map
    (List.dropWhile fun x => leads x.1)).filter (· ≠ [])

theorem map_wordMarks (query : Text) :
    (wordMarks query).map (List.map Prod.fst) = words query := by
  rw [words, ← map_sqlMark, wholeWords_map (p := fun x => inName (sqlMark x)) (g := sqlMark)
    (fun _ => rfl) (fun _ _ => rfl), wordMarks]
  induction wholeWords (fun x => inName (sqlMark x)) (marksOf query) with
  | nil => rfl
  | cons run runs ih =>
    have hdrop : ((run.map sqlMark).map Prod.fst).dropWhile leads =
        (run.dropWhile fun x => leads x.1).map Prod.fst := by
      rw [List.map_map, List.dropWhile_map]
      rfl
    simp only [List.map_cons, List.filter_cons]
    rw [hdrop]
    by_cases hnil : (run.dropWhile fun x => leads x.1) = []
    · simpa [hnil] using ih
    · simpa [hnil] using ih

/-- An offence in PostgreSQL's reading that the mask hides: a semicolon or a token behind it, some
character of a write keyword, or the first word. -/
inductive Hidden (u : UpperCase) (query : Text) : Prop
  | separator {before after : List (Char × Kind × Bool)} {flag : Bool} {x : Char × Kind × Bool}
      (split : marksOf query = before ++ (';', .code, flag) :: after) (mem : x ∈ after)
      (solid : Solid (sqlMark x))
      (hidden : ¬ (flag = true ∧ x.2.2 = true ∧ isSpace x.1 = false)) : Hidden u query
  | keyword {run : List (Char × Kind × Bool)} {word : String} (mem : run ∈ wordMarks query)
      (isKeyword : word ∈ sqlWriteKeywords)
      (spells : (run.map Prod.fst).map Char.toUpper = word.toList)
      (hidden : ¬ ∀ x ∈ run, x.2.2 = true) : Hidden u query
  | first
      (offends : ∀ word ∈ sqlStart,
        (words query).head?.map (List.map Char.toUpper) ≠ some word.toList)
      (hidden : (words query).head?.map (List.map Char.toUpper) ≠
        (tokens u (maskShown query)).head?) : Hidden u query

/-! ### What is shown is checked -/

/-- The keywords consist of capital letters. -/
theorem isUpper_of_keyword {word : String} (hword : word ∈ sqlWriteKeywords) {c : Char}
    (hc : c ∈ word.toList) : c.isUpper = true := by
  have hall : (sqlWriteKeywords.all fun word => word.toList.all Char.isUpper) = true := by
    decide +kernel
  exact List.all_eq_true.1 (List.all_eq_true.1 hall word hword) c hc

theorem toUpper_of_not_isLower {c : Char} (h : c.isLower = false) : c.toUpper = c := by
  rw [Char.isLower] at h
  simp only [Char.toUpper]
  rw [dif_neg]
  simpa using h

/-- What becomes a capital letter is a letter. -/
theorem isAlpha_of_toUpper {c : Char} (h : c.toUpper.isUpper = true) : c.isAlpha = true := by
  cases hlower : c.isLower with
  | true => simp [Char.isAlpha, hlower]
  | false =>
    rw [toUpper_of_not_isLower hlower] at h
    simp [Char.isAlpha, h]

/-- What is no character of a name, or may lead one, is no token character. -/
theorem isTokenChar_of_border {c : Char} (h : isNameChar c = false ∨ leads c = true) :
    c.toNat < 128 ∧ isTokenChar c = false := by
  rcases h with h | h
  · simp only [isNameChar, isNameStart, Bool.or_eq_false_iff, decide_eq_false_iff_not] at h
    refine ⟨by omega, ?_⟩
    simp [isTokenChar, h]
  · simp only [leads, Bool.or_eq_true, beq_iff_eq] at h
    rcases h with h | rfl
    · simp only [Char.isDigit, Bool.and_eq_true, decide_eq_true_eq, ge_iff_le,
        UInt32.le_iff_toNat_le] at h
      have hsmall : c.toNat ≤ 57 := h.2
      refine ⟨by omega, ?_⟩
      rw [isTokenChar, Bool.or_eq_false_iff, beq_eq_false_iff_ne]
      constructor
      · by_contra halpha
        have hlarge := (toNat_of_isAlpha (by simpa using halpha)).1
        omega
      · rintro rfl
        revert hsmall
        decide
    · decide

/-- What the mask shows at the border of a word is no token character in upper case. -/
theorem upper_border (u : UpperCase) {x : Char × Kind × Bool}
    (hx : isNameChar x.1 = false ∨ leads x.1 = true) :
    ∃ d, u.upper (shownMark x) = [d] ∧ isTokenChar d = false := by
  have hupper : ∀ c : Char, c.toNat < 128 → isTokenChar c = false →
      ∃ d, u.upper c = [d] ∧ isTokenChar d = false := by
    intro c hc htoken
    have hlower : c.isLower = false := by
      simp only [isTokenChar, Char.isAlpha, Bool.or_eq_false_iff] at htoken
      exact htoken.1.2
    exact ⟨c, by rw [u.ascii c hc, toUpper_of_not_isLower hlower], htoken⟩
  rw [shownMark]
  split_ifs
  · obtain ⟨hsmall, htoken⟩ := isTokenChar_of_border hx
    exact hupper x.1 hsmall htoken
  · exact hupper ' ' (by decide) (by decide)

/-- How the characters of both readings meet. -/
theorem marksOf_isChain (query : Text) :
    (marksOf query).IsChain fun x y => Beside (sqlMark x) (sqlMark y) := by
  have hchain := read_isChain (.code .apart) query trivial
  rwa [← readText, ← map_sqlMark, List.isChain_map] at hchain

/-- A word with what leads it. -/
theorem exists_lead_of_mem_wordMarks {query : Text} {run : List (Char × Kind × Bool)}
    (h : run ∈ wordMarks query) :
    run ≠ [] ∧ ∃ lead, (∀ x ∈ lead, leads x.1 = true) ∧
      lead ++ run ∈ wholeWords (fun x => inName (sqlMark x)) (marksOf query) := by
  obtain ⟨hmem, hne⟩ := List.mem_filter.1 h
  obtain ⟨whole, hwhole, rfl⟩ := List.mem_map.1 hmem
  refine ⟨of_decide_eq_true hne, whole.takeWhile fun x => leads x.1,
    fun x hx => List.mem_takeWhile_imp (p := fun x : Char × Kind × Bool => leads x.1) hx, ?_⟩
  rwa [List.takeWhile_append_dropWhile]

theorem inName_eq_false {x : Char × Kind} (h : inName x = false) :
    isNameChar x.1 = false ∨ x.2 ≠ .code := by
  rwa [inName, Bool.and_eq_false_iff, decide_eq_false_iff_not] at h

/-- **The borders of a word in PostgreSQL's reading**: no character of a name, or one that leads the
word. -/
theorem exists_split_of_mem_wordMarks {query : Text} {run : List (Char × Kind × Bool)}
    (h : run ∈ wordMarks query) (hletters : ∀ x ∈ run, x.1.isAlpha = true) :
    run ≠ [] ∧ ∃ before after, marksOf query = before ++ (run ++ after) ∧
      (∀ x ∈ before.getLast?, isNameChar x.1 = false ∨ leads x.1 = true) ∧
      ∀ x ∈ after.head?, isNameChar x.1 = false := by
  obtain ⟨hne, lead, hlead, hwhole⟩ := exists_lead_of_mem_wordMarks h
  obtain ⟨-, hall, before, after, heq, hbefore, hafter⟩ := split_of_mem_wholeWords hwhole
  have hcode : ∀ x ∈ run, isNameChar x.1 = true ∧ x.2.1 = .code := by
    intro x hx
    have hin := hall x (List.mem_append_right lead hx)
    rwa [inName, Bool.and_eq_true, decide_eq_true_eq] at hin
  rw [List.append_assoc] at heq
  have hchain := marksOf_isChain query
  rw [heq] at hchain
  obtain ⟨-, hchain, hfront⟩ := List.isChain_append.1 hchain
  obtain ⟨-, hchain, -⟩ := List.isChain_append.1 hchain
  obtain ⟨-, -, hback⟩ := List.isChain_append.1 hchain
  refine ⟨hne, before ++ lead, after, ?_, fun x hx => ?_, fun y hy => ?_⟩
  · rw [heq, List.append_assoc]
  · rcases List.eq_nil_or_concat' lead with rfl | ⟨lead', z, rfl⟩
    · rw [List.append_nil] at hx
      obtain ⟨y, run', rfl⟩ := List.exists_cons_of_ne_nil hne
      obtain ⟨hname, hkind⟩ := hcode y List.mem_cons_self
      rcases inName_eq_false (hbefore x hx) with hout | hout
      · exact Or.inl hout
      · rcases (hfront x hx y rfl).before hkind hname with hcode' | hclose
        · exact absurd hcode' hout
        · have hclosers : (closers.all fun c => !isNameChar c || leads c) = true := by decide
          simpa using List.all_eq_true.1 hclosers x.1 hclose
    · -- the word has digits or a dollar in front
      rw [← List.append_assoc, List.getLast?_concat] at hx
      obtain rfl := Option.some.inj hx
      exact Or.inr (hlead z (List.mem_append_right lead' (List.mem_singleton_self z)))
  · obtain ⟨run', x, rfl⟩ := (List.eq_nil_or_concat' run).resolve_left hne
    have hmem : x ∈ run' ++ [x] := List.mem_append_right run' (List.mem_singleton_self x)
    have hstart : isNameStart x.1 = true := by simp [isNameStart, hletters x hmem]
    by_contra hname
    have hname : isNameChar y.1 = true := by simpa using hname
    have hkind := (hback x List.getLast?_concat y hy).behind (hcode x hmem).2 hstart hname
    rcases inName_eq_false (hafter y hy) with hout | hout
    · exact absurd (hname.symm.trans hout) (by decide)
    · exact hout hkind

/-- **A keyword that the mask shows is a token.** -/
theorem mem_tokens_of_shown (u : UpperCase) {query : Text} {run : List (Char × Kind × Bool)}
    {word : String} (h : run ∈ wordMarks query) (hword : word ∈ sqlWriteKeywords)
    (hspells : (run.map Prod.fst).map Char.toUpper = word.toList)
    (hshown : ∀ x ∈ run, x.2.2 = true) : word.toList ∈ tokens u (maskShown query) := by
  have hupper : ∀ x ∈ run, x.1.toUpper.isUpper = true := by
    intro x hx
    refine isUpper_of_keyword hword ?_
    rw [← hspells]
    exact List.mem_map_of_mem (List.mem_map_of_mem hx)
  have hletters : ∀ x ∈ run, x.1.isAlpha = true := fun x hx => isAlpha_of_toUpper (hupper x hx)
  obtain ⟨hne, before, after, heq, hbefore, hafter⟩ := exists_split_of_mem_wordMarks h hletters
  have hrun : ∀ run : List (Char × Kind × Bool), (∀ x ∈ run, x.2.2 = true ∧ x.1.isAlpha = true) →
      (run.map shownMark).flatMap u.upper = (run.map Prod.fst).map Char.toUpper := by
    intro run
    induction run with
    | nil => exact fun _ => rfl
    | cons x run ih =>
      intro hall
      obtain ⟨hshow, halpha⟩ := hall x List.mem_cons_self
      have hsmall := (toNat_of_isAlpha halpha).2
      rw [List.map_cons, List.flatMap_cons, ih fun y hy => hall y (List.mem_cons_of_mem x hy),
        shownMark, if_pos hshow, u.ascii x.1 (by omega)]
      rfl
  rw [tokens, ← map_shownMark, heq, List.map_append, List.map_append, List.flatMap_append,
    List.flatMap_append, hrun run fun x hx => ⟨hshown x hx, hletters x hx⟩, hspells]
  refine mem_wholeWords_of_split ?_ ?_ ?_ ?_
  · rw [← hspells]
    simpa using hne
  · intro c hc
    rw [isTokenChar, Char.isAlpha, isUpper_of_keyword hword hc]
    rfl
  · intro c hc
    rcases List.eq_nil_or_concat' before with rfl | ⟨before', x, rfl⟩
    · cases hc
    · obtain ⟨d, hd, htoken⟩ := upper_border u (hbefore x List.getLast?_concat)
      rw [List.map_append, List.flatMap_append, List.map_singleton, List.flatMap_singleton, hd,
        List.getLast?_concat] at hc
      rwa [← Option.some.inj hc]
  · intro c hc
    cases after with
    | nil => cases hc
    | cons x after =>
      obtain ⟨d, hd, htoken⟩ := upper_border u (Or.inl (hafter x rfl))
      rw [List.map_cons, List.flatMap_cons, hd] at hc
      rwa [← Option.some.inj hc]

/-- **A statement that the check accepts is read-only, unless an offence is hidden.** -/
theorem readOnlyStatement_of_passes {u : UpperCase} {query : Text}
    (hpasses : Passes u sqlStart sqlWriteKeywords query) (hidden : ¬ Hidden u query) :
    ReadOnlyStatement query := by
  refine ⟨fun before after heq x hx hsolid => ?_, ?_, fun w hw word hword hspells => ?_⟩
  · rw [← map_sqlMark] at heq
    obtain ⟨before', rest, heq', rfl, hrest⟩ := List.map_eq_append_iff.1 heq
    obtain ⟨⟨c, kind, flag⟩, after', rfl, hmark, rfl⟩ := List.map_eq_cons_iff.1 hrest
    obtain ⟨rfl, rfl⟩ := Prod.mk.inj hmark
    obtain ⟨y, hy, rfl⟩ := List.mem_map.1 hx
    apply hidden
    refine .separator heq' hy hsolid ?_
    rintro ⟨rfl, hshow, hspace⟩
    have hsplit : maskShown query = before'.map shownMark ++ ';' :: after'.map shownMark := by
      rw [← map_shownMark, heq', List.map_append, List.map_cons]
      rfl
    have hmem : y.1 ∈ after'.map shownMark :=
      List.mem_map.2 ⟨y, hy, by rw [shownMark, if_pos hshow]⟩
    rw [hpasses.single _ _ hsplit y.1 hmem] at hspace
    cases hspace
  · obtain ⟨start, hstart, hfirst⟩ := hpasses.first
    by_contra hno
    apply hidden
    refine .first (fun word hword hspells => hno ⟨word, hword, hspells⟩) fun hsame => ?_
    exact hno ⟨start, hstart, hsame.trans hfirst⟩
  · rw [← map_wordMarks] at hw
    obtain ⟨run, hrun, rfl⟩ := List.mem_map.1 hw
    apply hidden
    refine .keyword hrun hword hspells fun hshown => ?_
    exact hpasses.readOnly word hword (mem_tokens_of_shown u hrun hword hspells hshown)

/-- What is hidden is an offence. -/
theorem not_readOnlyStatement_of_hidden {u : UpperCase} {query : Text} (h : Hidden u query) :
    ¬ ReadOnlyStatement query := by
  intro hread
  cases h with
  | @separator before after _ _ split mem solid _ =>
    have hsplit : readText query = before.map sqlMark ++ (';', .code) :: after.map sqlMark := by
      rw [← map_sqlMark, split, List.map_append, List.map_cons]
      rfl
    exact hread.single _ _ hsplit _ (List.mem_map_of_mem mem) solid
  | keyword mem isKeyword spells _ =>
    refine hread.readOnly _ ?_ _ isKeyword spells
    rw [← map_wordMarks]
    exact List.mem_map_of_mem mem
  | first offends _ =>
    obtain ⟨word, hword, hfirst⟩ := hread.first
    exact offends word hword hfirst

/-- **When the safety check is sound.** -/
theorem readOnlySql_sound_iff (u : UpperCase) (query : Text) :
    (validateReadOnlySql u query = .ok () → ReadOnlyStatement query) ↔
      (Hidden u query → ¬ Passes u sqlStart sqlWriteKeywords query) := by
  rw [validateReadOnlySql, validateReadOnly_eq_ok]
  constructor
  · exact fun h hhidden hpasses => not_readOnlyStatement_of_hidden hhidden (h hpasses)
  · intro h hpasses
    exact readOnlyStatement_of_passes hpasses fun hhidden => h hhidden hpasses

/-- `str.upper` on ASCII texts. -/
def asciiUpper : UpperCase where
  upper c := [c.toUpper]
  ascii _ _ := rfl
  space c hc := by
    have hlower : c.isLower = false := by
      by_contra hlower
      rw [isSpace_of_isAlpha (by simp [Char.isAlpha, hlower])] at hc
      cases hc
    rw [toUpper_of_not_isLower hlower]

/-- The backslash ends no literal for the mask, so the deletion looks like a part of the text. -/
def hiddenDelete : Text := "SELECT '\\'; DELETE FROM t --'".toList

theorem not_readOnlySql_sound_hiddenDelete :
    ¬ (validateReadOnlySql asciiUpper hiddenDelete = .ok () → ReadOnlyStatement hiddenDelete) := by
  intro h
  have haccepted : validateReadOnlySql asciiUpper hiddenDelete = .ok () := by
    decide +kernel
  have hword : "DELETE".toList ∈ words hiddenDelete := by decide +kernel
  exact (h haccepted).readOnly _ hword "DELETE" (by decide) (by decide +kernel)

end Evaluation
