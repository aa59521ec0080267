import Mathlib
import Text2Cypher.Guards.Shared
import Text2Cypher.PythonPatterns

/-!
# Write requests

`has_write_intent` blocks a question that asks for a change before anything is planned for it.

* `hasWriteIntent_of_keyword`: a question that begins with a write keyword of one of the query
  languages is blocked.
-/

namespace Guards

open Patterns Pattern

variable (k : WordClass)

/-- The first of some texts. -/
def oneOfTexts (texts : List String) : Pattern Char := .oneOf (texts.map exactly)

/-- The first of some texts in capitals, ignoring case. -/
def oneOfWords (words : List String) : Pattern Char := .oneOf (words.map anyCase)

def spaces : Pattern Char := .star true space

def changeNouns : Pattern Char :=
  oneOfTexts ["삭제", "제거", "수정", "변경", "추가", "삽입", "생성", "초기화", "파기", "폐기", "갱신", "등록"]

/-- `[.!?]`. -/
def isStop (c : Char) : Bool := c = '.' ∨ c = '!' ∨ c = '?'

/-- `_KOREAN_FORMAL_WRITE_REQUEST`. -/
def koreanFormalWriteRequest : Pattern Char :=
  .seq changeNouns (.oneOf
    [inTurn [exactly "해", spaces, exactly "줘", .opt (exactly "요")],
      inTurn [exactly "해", spaces, exactly "주세요"], exactly "해라", exactly "하라", exactly "하세요",
      inTurn [exactly "해", spaces, exactly "줄래"], inTurn [exactly "해", spaces, exactly "주시겠"],
      inTurn [exactly "해", spaces, exactly "주십시오"], inTurn [exactly "해", spaces, exactly "바랍니다"],
      inTurn [exactly "을", spaces, exactly "부탁"], inTurn [exactly "를", spaces, exactly "부탁"]])

/-- `_KOREAN_COLLOQUIAL_WRITE_REQUEST`. -/
def koreanColloquialWriteRequest : Pattern Char :=
  inTurn [.oneOf [exactly "지워", exactly "없애", exactly "바꿔", exactly "넣어", exactly "만들어",
      inTurn [exactly "덮어", spaces, exactly "써"]],
    .opt (.oneOf [inTurn [spaces, exactly "줘", .opt (exactly "요")], inTurn [spaces, exactly "주세요"],
      exactly "라", inTurn [spaces, exactly "줄래"], inTurn [spaces, exactly "주시겠"],
      inTurn [spaces, exactly "주십시오"]]),
    .look fun _ after => after.head?.any (fun c => Python.isSpace c || isStop c) ||
      after.isEmpty || after == ['\n']]

/-- `_KOREAN_TERSE_WRITE_REQUEST`. -/
def koreanTerseWriteRequest : Pattern Char :=
  inTurn [changeNouns, spaces, .opt (oneOfTexts ["요청", "실행", "처리"]), spaces,
    .opt (.char isStop), finish]

/-- `[A-Za-z_]` under `re.IGNORECASE`. -/
def isNameStart (c : Char) : Bool :=
  ('A' ≤ c.toUpper ∧ c.toUpper ≤ 'Z') || ['İ', 'ı', 'ſ', '_'].contains c || c.toNat == 0x212a

/-- `_SQL_WRITE_SYNTAX`. -/
def sqlWriteSyntax : Pattern Char :=
  let gap : Pattern Char := .plus space
  let containers := oneOfWords ["TABLE", "DATABASE", "SCHEMA"]
  inTurn [boundary k,
    .oneOf [inTurn [anyCase "DELETE", gap, anyCase "FROM"],
      inTurn [anyCase "UPDATE", gap, .char isNameStart,
        .star true (.char fun c => k.isWord c || c == '.'), gap, anyCase "SET"],
      inTurn [anyCase "INSERT", gap, anyCase "INTO"], inTurn [anyCase "DROP", gap, containers],
      inTurn [anyCase "TRUNCATE", gap, .opt (inTurn [anyCase "TABLE", gap])],
      inTurn [anyCase "ALTER", gap, containers], inTurn [anyCase "CREATE", gap, containers]],
    boundary k]

/-- `sorted(SQL_WRITE_KEYWORDS | CYPHER_WRITE_KEYWORDS)`. -/
def sharedWriteKeywords : List String :=
  (sqlWriteKeywords ++ cypherWriteKeywords).dedup.insertionSort (fun a b => a.toList ≤ b.toList)

/-- `_SHARED_WRITE_KEYWORD`. -/
def sharedWriteKeyword : Pattern Char :=
  inTurn [start, spaces, oneOfWords sharedWriteKeywords, boundary k]

/-- `_ENGLISH_WRITE_REQUEST`. -/
def englishWriteRequest : Pattern Char :=
  inTurn [start, spaces,
    .opt (.oneOf [inTurn [oneOfWords ["PLEASE", "KINDLY"], .plus space],
      inTurn [oneOfWords ["CAN", "COULD", "WOULD", "WILL"], .plus space, anyCase "YOU",
        .plus space]]),
    oneOfWords ["DELETE", "REMOVE", "UPDATE", "INSERT", "DROP", "TRUNCATE", "ALTER", "MODIFY",
      "CHANGE", "ADD", "CREATE", "RESET", "DESTROY"], boundary k]

/-- `has_write_intent`. -/
def hasWriteIntent (query : Text) : Bool :=
  [koreanFormalWriteRequest, koreanColloquialWriteRequest, koreanTerseWriteRequest,
    sqlWriteSyntax k, sharedWriteKeyword k, englishWriteRequest k].any (·.occursIn query)

/-! ### Keywords at the beginning -/

theorem mem_ends_oneOf {patterns : List (Pattern Char)} {a : Pattern Char} {s t : Place Char}
    (ha : a ∈ patterns) (h : t ∈ a.ends s) : t ∈ (oneOf patterns).ends s := by
  induction patterns with
  | nil => cases ha
  | cons b rest ih =>
    cases rest with
    | nil =>
      obtain rfl := List.mem_singleton.1 ha
      exact h
    | cons c rest =>
      rcases List.mem_cons.1 ha with rfl | hrest
      · exact mem_ends_alt.2 (.inl h)
      · exact mem_ends_alt.2 (.inr (ih hrest))

/-- A word is read where the text has it. -/
theorem mem_ends_word {p : Char → Char → Bool} {word w before after : Text}
    (h : List.Forall₂ (fun c d => p c d = true) word w) :
    .mk₀ (w.reverse ++ before) after ∈ (Pattern.word p word).ends (.mk₀ before (w ++ after)) := by
  induction h generalizing before with
  | nil => exact List.mem_singleton_self _
  | @cons c d word w hcd _ ih =>
    refine mem_ends_seq.2 ⟨.mk₀ (d :: before) (w ++ after), ?_, ?_⟩
    · exact mem_ends_char.2 ⟨d, w ++ after, rfl, hcd, rfl⟩
    · rw [List.reverse_cons, List.append_assoc, List.singleton_append]
      exact ih

theorem mem_sharedWriteKeywords {keyword : String} :
    keyword ∈ sharedWriteKeywords ↔ keyword ∈ sqlWriteKeywords ∨ keyword ∈ cypherWriteKeywords := by
  rw [sharedWriteKeywords, List.mem_insertionSort, List.mem_dedup, List.mem_append]

theorem letters_of_mem {keyword : String} (h : keyword ∈ sqlWriteKeywords ∨
    keyword ∈ cypherWriteKeywords) :
    keyword.toList ≠ [] ∧ ∀ c ∈ keyword.toList, 'A' ≤ c ∧ c ≤ 'Z' := by
  have hall : ∀ word ∈ sqlWriteKeywords ++ cypherWriteKeywords,
      word.toList ≠ [] ∧ word.toList.Forall fun c => 'A' ≤ c ∧ c ≤ 'Z' := by
    decide +kernel
  obtain ⟨hne, hletters⟩ := hall keyword (List.mem_append.2 h)
  exact ⟨hne, List.forall_iff_forall_mem.1 hletters⟩

/-- A letter that is a capital of ASCII in capitals is a word character. -/
theorem isWord_of_toUpper {c : Char} (h : 'A' ≤ c.toUpper ∧ c.toUpper ≤ 'Z') :
    k.isWord c = true := by
  have hrange : 65 ≤ c.toNat ∧ c.toNat ≤ 90 ∨ 97 ≤ c.toNat ∧ c.toNat ≤ 122 := by
    simp only [Char.toUpper] at h
    split at h
    · rename_i hlower
      simp only [UInt32.le_iff_toNat_le] at hlower
      exact .inr hlower
    · exact .inl h
  have hword : ∀ n < 128, (65 ≤ n ∧ n ≤ 90 ∨ 97 ≤ n ∧ n ≤ 122) →
      ((Char.ofNat n).isAlphanum || Char.ofNat n == '_') = true := by
    decide +kernel
  have hascii : c.toNat < 128 := by omega
  rw [k.ascii c hascii]
  simpa [Char.ofNat_toNat] using hword c.toNat hascii hrange

theorem find_sharedWriteKeyword {keyword : String}
    (hkeyword : keyword ∈ sqlWriteKeywords ∨ keyword ∈ cypherWriteKeywords) {gap w rest : Text}
    (hgap : ∀ c ∈ gap, Python.isSpace c = true) (hw : w.map Char.toUpper = keyword.toList)
    (hrest : ∀ c ∈ rest.head?, k.isWord c = false) :
    ((sharedWriteKeyword k).find [] (gap ++ (w ++ rest))).isSome = true := by
  obtain ⟨hne, hcapitals⟩ := letters_of_mem hkeyword
  have hletters : ∀ c ∈ w, k.isWord c = true := fun c hc =>
    isWord_of_toUpper k (hcapitals _ (hw ▸ List.mem_map_of_mem hc))
  let begins : Place Char := .mk₀ [] (gap ++ (w ++ rest))
  let opens : Place Char := .mk₀ gap.reverse (w ++ rest)
  let closes : Place Char := .mk₀ (w.reverse ++ gap.reverse) rest
  have hopens : opens ∈ spaces.ends begins := by
    have hread : ⟨gap.reverse ++ [], w ++ rest, fun _ => none⟩ ∈ spaces.ends begins :=
      mem_ends_star_char rfl hgap
    rw [List.append_nil] at hread
    exact hread
  have hcloses : closes ∈ (oneOfWords sharedWriteKeywords).ends opens := by
    refine mem_ends_oneOf (List.mem_map_of_mem (mem_sharedWriteKeywords.2 hkeyword)) ?_
    refine mem_ends_word ?_
    rw [← hw, List.forall₂_map_left_iff]
    exact List.forall₂_same.2 fun c _ => by simp [Python.matchesIgnoreCase]
  have hboundary : closes ∈ (boundary k).ends closes := by
    have hwne : w ≠ [] := by
      rintro rfl
      exact hne hw.symm
    obtain ⟨last, init, hlast⟩ := List.exists_cons_of_ne_nil (List.reverse_ne_nil_iff.2 hwne)
    have hmem : last ∈ w := by
      rw [← List.mem_reverse, hlast]
      exact List.mem_cons_self
    have hbehind : rest.head?.any k.isWord = false := by
      cases hhead : rest.head? with
      | none => rfl
      | some c => exact hrest c hhead
    refine mem_ends_look.2 ⟨?_, rfl⟩
    simp [closes, Place.mk₀, hlast, hletters last hmem, hbehind]
  have hend : closes ∈ (sharedWriteKeyword k).ends begins :=
    mem_ends_inTurn_cons.2 ⟨begins, mem_ends_look.2 ⟨rfl, rfl⟩, mem_ends_inTurn_cons.2
      ⟨opens, hopens, mem_ends_inTurn_cons.2 ⟨closes, hcloses,
        mem_ends_inTurn_singleton.2 hboundary⟩⟩⟩
  exact Option.isSome_iff_ne_none.2 (find_ne_none hend)

/-- A question that begins with a write keyword, in any case, is blocked. -/
theorem hasWriteIntent_of_keyword {keyword : String}
    (hkeyword : keyword ∈ sqlWriteKeywords ∨ keyword ∈ cypherWriteKeywords) {gap w rest : Text}
    (hgap : ∀ c ∈ gap, Python.isSpace c = true) (hw : w.map Char.toUpper = keyword.toList)
    (hrest : ∀ c ∈ rest.head?, k.isWord c = false) :
    hasWriteIntent k (gap ++ (w ++ rest)) = true := by
  have hfind := find_sharedWriteKeyword k hkeyword hgap hw hrest
  have hoccurs : (sharedWriteKeyword k).occursIn (gap ++ (w ++ rest)) = true :=
    isSome_searchFrom.2 ⟨[], _, rfl, hfind⟩
  simp [hasWriteIntent, hoccurs]

end Guards
