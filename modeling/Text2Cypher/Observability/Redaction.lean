import Text2Cypher.Observability.Privacy

/-!
# What redaction hides

The last rules of `redact_query` and `redact_question` see whatever the earlier ones have left.
Each of them is described by what it hides in every text, so that the order of the rules in front
does not matter.

* **`redactQuery_hides`**: a redacted query has at most one quote of each kind, and no number in it
  stands alone;
* **`redactQuestion_hides`**: a redacted question has at most one quote of each kind on every line,
  and no number of four digits in it stands alone.
-/

namespace Privacy

open Patterns Pattern

/-! ### Literals -/

/-- Behind a quote, a literal is found if there is one more quote. -/
theorem find_literalPattern {quote : Char} {before after : Text} (h : quote ∈ after) :
    (literalPattern quote).find before (quote :: after) ≠ none := by
  obtain ⟨w, rest, rfl, hw⟩ := List.eq_append_cons_of_mem h
  let opened : Place Char := .mk₀ (quote :: before) (w ++ quote :: rest)
  let read : Place Char := .mk₀ (w.reverse ++ quote :: before) (quote :: rest)
  have hopen : opened ∈ (char (· = quote)).ends (.mk₀ before (quote :: (w ++ quote :: rest))) :=
    mem_ends_char.2 ⟨quote, _, rfl, by simp, rfl⟩
  have hread : read ∈ (star true (oneOf [.seq (char (· = quote)) (char (· = quote)),
      .seq (char (· = '\\')) (char (· ≠ '\n')), char (· ≠ quote)])).ends opened := by
    refine mem_ends_star_of_letters rfl fun c hc before after => ?_
    refine mem_ends_alt.2 (.inr (mem_ends_alt.2 (.inr ?_)))
    refine mem_ends_char.2 ⟨c, after, rfl, ?_, rfl⟩
    have hne : c ≠ quote := fun heq => hw (heq ▸ hc)
    simpa using hne
  have hclose : Place.mk₀ (quote :: (w.reverse ++ quote :: before)) rest ∈
      (char (· = quote)).ends read :=
    mem_ends_char.2 ⟨quote, rest, rfl, by simp, rfl⟩
  refine find_ne_none (t := .mk₀ (quote :: (w.reverse ++ quote :: before)) rest) ?_
  exact mem_ends_inTurn_cons.2 ⟨opened, hopen, mem_ends_inTurn_cons.2
    ⟨read, hread, mem_ends_inTurn_singleton.2 hclose⟩⟩

theorem count_literalRule {quote : Char} (hquote : quote ∉ "[VALUE]".toList) (text : Text) :
    ((literalRule quote).sub [] text).count quote ≤ 1 :=
  Rule.count_sub_le_one (fun _ => hquote) (fun _ _ => find_literalPattern) [] text

theorem count_mask_le {pattern : Pattern Char} {marker : String} {h : pattern.consumes = true}
    {quote : Char} (hquote : quote ∉ marker.toList) (text : Text) :
    ((mask pattern marker h).sub [] text).count quote ≤ text.count quote :=
  Rule.count_sub_le (fun _ => hquote) [] text

/-! ### Numbers -/

variable (k : Platform)

theorem numberRule_hidesRuns :
    (numberRule k).HidesRuns Python.isDigit (fun c => k.isWord c || c == '$') k.isWord 1 where
  pos := one_pos
  left_of_run c hc := by rw [k.digit c hc, Bool.true_or]
  right_of_run := k.digit
  replacement _ := ⟨'[', "VALUE]".toList, rfl, List.forall_iff_forall_mem.1 (by decide)⟩
  free before after t h :=
    free_of_find [.opt (.char fun c => c = '-' ∨ c = '+'), .plus digit,
      .opt (.seq (.char (· = '.')) (.plus digit))] h
  find before w after hlength hw hleft hright := by
    obtain ⟨c, w, rfl⟩ := List.exists_cons_of_length_pos (Nat.lt_of_lt_of_le one_pos hlength)
    let start : Place Char := .mk₀ before (c :: (w ++ after))
    let stop : Place Char := .mk₀ (w.reverse ++ c :: before) after
    have hdigits : stop ∈ (plus digit).ends start := by
      refine mem_ends_seq.2 ⟨.mk₀ (c :: before) (w ++ after), ?_, ?_⟩
      · exact mem_ends_char.2 ⟨c, w ++ after, rfl, hw c List.mem_cons_self, rfl⟩
      · exact mem_ends_star_char rfl fun d hd => hw d (List.mem_cons_of_mem _ hd)
    refine find_ne_none (t := stop) (mem_ends_inTurn_cons.2 ⟨start, ?_, ?_⟩)
    · exact mem_ends_notBehind.2 ⟨hleft, rfl⟩
    · refine mem_ends_inTurn_cons.2 ⟨start, mem_ends_opt.2 (.inr rfl), ?_⟩
      refine mem_ends_inTurn_cons.2 ⟨stop, hdigits, ?_⟩
      refine mem_ends_inTurn_cons.2 ⟨stop, mem_ends_opt.2 (.inr rfl), ?_⟩
      exact mem_ends_inTurn_singleton.2 (mem_ends_notBefore.2 ⟨hright, rfl⟩)

theorem longNumberRule_hidesRuns :
    (longNumberRule k).HidesRuns Python.isDigit k.isWord k.isWord 4 where
  pos := by decide
  left_of_run := k.digit
  right_of_run := k.digit
  replacement _ := ⟨'[', "NUMBER]".toList, rfl, List.forall_iff_forall_mem.1 (by decide)⟩
  free before after t h := free_of_find [.times 4 digit, .star true digit] h
  find before w after hlength hw hleft hright := by
    let start : Place Char := .mk₀ before (w ++ after)
    let middle : Place Char := .mk₀ ((w.take 4).reverse ++ before) (w.drop 4 ++ after)
    let stop : Place Char :=
      .mk₀ ((w.drop 4).reverse ++ ((w.take 4).reverse ++ before)) after
    have hstart : middle ∈ (times 4 digit).ends start := by
      refine mem_ends_times_char ?_ (by simpa using hlength)
        fun c hc => hw c (List.mem_of_mem_take hc)
      rw [← List.append_assoc, List.take_append_drop]
      rfl
    have hstop : stop ∈ (star true digit).ends middle :=
      mem_ends_star_char rfl fun c hc => hw c (List.mem_of_mem_drop hc)
    refine find_ne_none (t := stop) (mem_ends_inTurn_cons.2 ⟨start, ?_, ?_⟩)
    · exact mem_ends_notBehind.2 ⟨hleft, rfl⟩
    · refine mem_ends_inTurn_cons.2 ⟨middle, hstart, ?_⟩
      refine mem_ends_inTurn_cons.2 ⟨stop, hstop, ?_⟩
      exact mem_ends_inTurn_singleton.2 (mem_ends_notBefore.2 ⟨hright, rfl⟩)

/-! ### Quoted stretches of a line -/

/-- What `quotedPattern` reads lies on one line. -/
theorem read_quotedPattern {before after : Text} {t : Place Char}
    (h : quotedPattern.find before after = some t) {w : Text} (hw : after = w ++ t.after) :
    '\n' ∉ w := by
  obtain ⟨u, hu, ht⟩ := mem_ends_inTurn_cons.1 (mem_of_find h)
  obtain ⟨opened, hopened, rfl⟩ := List.mem_map.1 hu
  obtain ⟨quote, rest, hafter, hquote, rfl⟩ := mem_ends_char.1 hopened
  obtain ⟨v, hv, ht⟩ := mem_ends_inTurn_cons.1 ht
  obtain ⟨line, hline, -, hgroups, hall⟩ := exists_of_mem_ends_star_char hv
  have hend := mem_ends_inTurn_singleton.1 ht
  have hafter' : after = quote :: rest := hafter
  have hgroup : v.groups 1 = some [quote] := by
    rw [hgroups]
    simp [Place.close, Place.mk₀, hafter']
  have hne : quote ≠ '\n' := by
    rintro rfl
    simp at hquote
  rw [ends, hgroup] at hend
  simp only at hend
  split_ifs at hend with hprefix
  · obtain rfl := List.mem_singleton.1 hend
    obtain ⟨tail, htail⟩ := hprefix
    have hline' : rest = line ++ v.after := hline
    have hread : w = quote :: (line ++ [quote]) := by
      rw [hafter', hline', ← htail] at hw
      simp only [List.singleton_append, List.length_singleton, List.drop_succ_cons,
        List.drop_zero] at hw
      have hcancel : w ++ tail = (quote :: (line ++ [quote])) ++ tail := by
        rw [← hw]
        simp
      exact List.append_cancel_right hcancel
    rw [hread]
    simp only [List.mem_cons, List.mem_append, List.not_mem_nil, or_false, not_or]
    refine ⟨hne.symm, fun hmem => ?_, hne.symm⟩
    simpa using hall _ hmem
  · cases hend

/-- A quote is found if there is one more on the line. -/
theorem find_quotedPattern {quote : Char} (hquote : quote = '\'' ∨ quote = '"')
    {before w after : Text} (hw : '\n' ∉ w) :
    quotedPattern.find before (quote :: (w ++ quote :: after)) ≠ none := by
  let start : Place Char := .mk₀ before (quote :: (w ++ quote :: after))
  let groups : ℕ → Option Text := Function.update (fun _ => none) 1 (some [quote])
  let opened : Place Char := ⟨quote :: before, w ++ quote :: after, groups⟩
  let read : Place Char := ⟨w.reverse ++ quote :: before, quote :: after, groups⟩
  let stop : Place Char := ⟨quote :: (w.reverse ++ quote :: before), after, groups⟩
  have hopened : opened ∈ (group 1 (char fun c => c = '\'' ∨ c = '"')).ends start := by
    refine List.mem_map.2 ⟨.mk₀ (quote :: before) (w ++ quote :: after), ?_, ?_⟩
    · exact mem_ends_char.2 ⟨quote, _, rfl, by simpa using hquote, rfl⟩
    · simp [Place.close, Place.mk₀, start, opened, groups]
  have hread : read ∈ (star false (char (· ≠ '\n'))).ends opened := by
    refine mem_ends_star_char (s := opened) rfl fun c hc => ?_
    have hne : c ≠ '\n' := fun heq => hw (heq ▸ hc)
    simpa using hne
  have hstop : stop ∈ (again 1).ends read := by
    simp [ends, read, stop, groups]
  exact find_ne_none (mem_ends_inTurn_cons.2 ⟨opened, hopened, mem_ends_inTurn_cons.2
    ⟨read, hread, mem_ends_inTurn_singleton.2 hstop⟩⟩)

theorem quotedRule_hidesPairs {quote : Char} (hquote : quote = '\'' ∨ quote = '"') :
    quotedRule.HidesPairs quote '\n' where
  ne := by rcases hquote with rfl | rfl <;> decide
  replacement _ := by
    change quote ∉ "[VALUE]".toList ∧ '\n' ∉ "[VALUE]".toList
    rcases hquote with rfl | rfl <;> decide
  read _ _ _ _ h hw := read_quotedPattern h hw
  find _ _ _ hw := find_quotedPattern hquote hw

/-- The rule for long numbers reads neither quotes nor line ends. -/
theorem marks_longNumberRule {quote : Char} (hquote : quote = '\'' ∨ quote = '"') (text : Text) :
    Rule.marks quote '\n' ((longNumberRule k).sub [] text) = Rule.marks quote '\n' text := by
  have hreads : (longNumberPattern k).OnlyReads fun c => Python.isDigit c = true :=
    ⟨trivial, OnlyReads.times (a := digit) (fun c hc => hc) 4, fun c hc => hc, trivial, trivial⟩
  refine Rule.filter_sub ?_ ?_ [] text
  · rintro _ c hc
    change c ∈ "[NUMBER]".toList at hc
    have hletters : "[NUMBER]".toList.Forall fun d => decide (d = quote ∨ d = '\n') = false := by
      rcases hquote with rfl | rfl <;> decide
    exact List.forall_iff_forall_mem.1 hletters c hc
  · intro before after t w hfind hw c hc
    have hdigit := hreads.forall_mem (mem_of_find hfind) hw c hc
    have hmark : ¬ (c = quote ∨ c = '\n') := by
      rintro (rfl | rfl)
      · rcases hquote with rfl | rfl <;> exact absurd hdigit (by decide)
      · exact absurd hdigit (by decide)
    exact decide_eq_false hmark

/-! ### Queries -/

/-- A text without pairs of quotes and without numbers that stand alone. -/
structure HidesValues (value : Text) : Prop where
  quotes : ∀ quote, quote = '\'' ∨ quote = '"' → value.count quote ≤ 1
  numbers : ∀ u w v, value = u ++ (w ++ v) → w ≠ [] → (∀ c ∈ w, Python.isDigit c = true) →
    (∃ c ∈ u.getLast?, (k.isWord c || c == '$') = true) ∨ ∃ c ∈ v.head?, k.isWord c = true

theorem redacted_hides (query : Text) : HidesValues k (redacted k query) := by
  set value := applyAll (secretRules k) (Python.strip (k.nfc query)) with hvalue
  set singles := (literalRule '\'').sub [] value with hsingles
  set doubles := (literalRule '"').sub [] singles with hdoubles
  have hredacted : redacted k query = (numberRule k).sub [] doubles := rfl
  rw [hredacted]
  refine ⟨?_, ?_⟩
  · rintro quote hquote
    have hnumbers : ((numberRule k).sub [] doubles).count quote ≤ doubles.count quote :=
      count_mask_le (by rcases hquote with rfl | rfl <;> decide) doubles
    refine hnumbers.trans ?_
    rcases hquote with rfl | rfl
    · have hkept : doubles.count '\'' ≤ singles.count '\'' := count_mask_le (by decide) singles
      exact hkept.trans (count_literalRule (by decide) value)
    · exact count_literalRule (by decide) singles
  · intro u w v hsplit hne hdigits
    exact (numberRule_hidesRuns k).glued hsplit (List.length_pos_iff.2 hne) hdigits

/-- **A redacted query has no pair of quotes and no number that stands alone.** -/
theorem redactQuery_hides {env : Environment} {query out : Text}
    (h : redactQuery k env query = some out) :
    ∃ value, HidesValues k value ∧
      (out = value ∨ ∃ n, 160 ≤ n ∧ n < value.length ∧ out = value.take n ++ truncatedMark) := by
  refine ⟨redacted k query, redacted_hides k query, ?_⟩
  rw [redactQuery] at h
  split_ifs at h
  split at h
  · cases h
  · rename_i configured _
    dsimp only at h
    split_ifs at h with hlong
    · refine .inr ⟨_, ?_, hlong, (Option.some.inj h).symm⟩
      omega
    · exact .inl (Option.some.inj h).symm

/-- The logging of queries is on. -/
def logging : Environment := ⟨some "True".toList, none, none⟩

theorem redactQuery_hides_values :
    redactQuery (.plain fun _ => none) logging "a = 'it''s' AND $1 < 12.5 OR \"b\" = x1".toList =
        some "a = [VALUE] AND $1 < [VALUE] OR [VALUE] = x1".toList ∧
      ∃ value, HidesValues (.plain fun _ => none) value ∧
        ("a = [VALUE] AND $1 < [VALUE] OR [VALUE] = x1".toList = value ∨ ∃ n, 160 ≤ n ∧
          n < value.length ∧ "a = [VALUE] AND $1 < [VALUE] OR [VALUE] = x1".toList =
            value.take n ++ truncatedMark) := by
  have hout : redactQuery (.plain fun _ => none) logging
      "a = 'it''s' AND $1 < 12.5 OR \"b\" = x1".toList =
        some "a = [VALUE] AND $1 < [VALUE] OR [VALUE] = x1".toList := by
    decide +kernel
  exact ⟨hout, redactQuery_hides _ hout⟩

/-! ### Questions -/

/-- **A redacted question has no pair of quotes on a line, and no number of four digits that stands
alone; its first 160 characters are kept.** -/
theorem redactQuestion_hides {env : Environment} {question out : Text} {entityNames : List Text}
    (h : redactQuestion k env question entityNames = some out) :
    ∃ value, out = value.take 160 ∧
      (∀ quote, quote = '\'' ∨ quote = '"' → ∀ u w v,
        value = u ++ quote :: (w ++ quote :: v) → '\n' ∈ w) ∧
      ∀ u w v, value = u ++ (w ++ v) → 4 ≤ w.length → (∀ c ∈ w, Python.isDigit c = true) →
        (∃ c ∈ u.getLast?, k.isWord c = true) ∨ ∃ c ∈ v.head?, k.isWord c = true := by
  rw [redactQuestion] at h
  split_ifs at h
  set value := entityNames.foldl (hideEntity k) (k.nfc question)
  set phones := applyAll (secretRules k ++ [mask phonePattern "[PHONE]" rfl]) value with hphones
  have hrules : applyAll (rules k) value =
      (longNumberRule k).sub [] (quotedRule.sub [] phones) := by
    rw [hphones, applyAll, applyAll, rules, List.foldl_append, List.foldl_append]
    rfl
  refine ⟨applyAll (rules k) value, (Option.some.inj h).symm, ?_, ?_⟩
  · intro quote hquote u w v hsplit
    refine Rule.mem_of_not_pair ?_ hsplit
    rw [hrules, marks_longNumberRule k hquote]
    exact (quotedRule_hidesPairs hquote).not_pair [] phones
  · intro u w v hsplit hlength hdigits
    rw [hrules] at hsplit
    exact (longNumberRule_hidesRuns k).glued hsplit hlength hdigits

theorem redactQuestion_hides_values :
    redactQuestion (.plain fun _ => none) ⟨none, none, none⟩ "is 'x' 20250 of Acme?".toList
        ["Acme".toList] = some "is [VALUE] [NUMBER] of [ENTITY]?".toList ∧
      ∃ value, "is [VALUE] [NUMBER] of [ENTITY]?".toList = value.take 160 ∧
        (∀ quote, quote = '\'' ∨ quote = '"' → ∀ u w v,
          value = u ++ quote :: (w ++ quote :: v) → '\n' ∈ w) ∧
        ∀ u w v, value = u ++ (w ++ v) → 4 ≤ w.length → (∀ c ∈ w, Python.isDigit c = true) →
          (∃ c ∈ u.getLast?, (Platform.plain fun _ => none).isWord c = true) ∨
            ∃ c ∈ v.head?, (Platform.plain fun _ => none).isWord c = true := by
  have hout : redactQuestion (.plain fun _ => none) ⟨none, none, none⟩
      "is 'x' 20250 of Acme?".toList ["Acme".toList] =
        some "is [VALUE] [NUMBER] of [ENTITY]?".toList := by
    decide +kernel
  exact ⟨hout, redactQuestion_hides _ hout⟩

end Privacy
