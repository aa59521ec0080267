import Text2Cypher.Library.Reading
import Text2Cypher.Python

/-!
# The text mask shared by the query guards

`mask_query_text` blanks literals, quoted names and comments before the keyword checks.  The
source's inner loops are the modes of `maskFrom`.

`maskFrom_rel`, `runs_maskFrom`: the mask reads a text by the rules of `maskReading`, in which `--`
opens a comment and a backslash protects the next character inside every quote, backticks included.
-/

namespace Guards

open Reading WholeWords

/-- The verdict of a guard. -/
structure GuardResult where
  allowed : Bool
  reasonCode : Option String
  reasonDetail : Option String
  deriving DecidableEq

def GuardResult.allow : GuardResult := ⟨true, none, none⟩

def GuardResult.block (code detail : String) : GuardResult :=
  ⟨false, some code, some detail⟩

def sqlWriteKeywords : List String :=
  ["ALTER", "ANALYZE", "CALL", "CLUSTER", "COMMENT", "COPY", "CREATE", "DELETE", "DO", "DROP",
    "EXECUTE", "GRANT", "INTO", "INSERT", "LOCK", "MERGE", "REFRESH", "REINDEX", "REVOKE",
    "TRUNCATE", "UPDATE", "VACUUM"]

def cypherWriteKeywords : List String :=
  ["CALL", "CREATE", "DELETE", "DETACH", "DROP", "FOREACH", "LOAD", "MERGE", "REMOVE", "SET"]

/-- The loops of `mask_query_text`. -/
inductive MaskLoop
  | top
  | lineComment
  | blockComment
  | literal (quote : Char)

/-- What the loops of `mask_query_text` write for the rest of the text.  The two characters that
open a comment are skipped without a blank. -/
def maskFrom : MaskLoop → Text → Text
  | _, [] => []
  | .top, [char] => if isQuote char then [' '] else [char]
  | .top, char :: nextChar :: rest =>
      if char = '-' ∧ nextChar = '-' then maskFrom .lineComment rest
      else if char = '/' ∧ nextChar = '/' then maskFrom .lineComment rest
      else if char = '/' ∧ nextChar = '*' then maskFrom .blockComment rest
      else if isQuote char then ' ' :: maskFrom (.literal char) (nextChar :: rest)
      else char :: maskFrom .top (nextChar :: rest)
  | .lineComment, char :: rest =>
      -- the line break is left to the outer loop, which copies it
      if isBreak char then char :: maskFrom .top rest else ' ' :: maskFrom .lineComment rest
  | .blockComment, [_] => [' ']
  | .blockComment, char :: nextChar :: rest =>
      if char = '*' ∧ nextChar = '/' then ' ' :: ' ' :: maskFrom .top rest
      else ' ' :: maskFrom .blockComment (nextChar :: rest)
  | .literal _, [_] => [' ']
  | .literal quote, char :: nextChar :: rest =>
      if char = quote then
        if nextChar = quote then ' ' :: ' ' :: maskFrom (.literal quote) rest
        else ' ' :: maskFrom .top (nextChar :: rest)
      else if char = '\\' then ' ' :: ' ' :: maskFrom (.literal quote) rest
      else ' ' :: maskFrom (.literal quote) (nextChar :: rest)

def maskQueryText (query : Text) : Text := maskFrom .top query

/-- The lexical rules the mask follows, for both query languages. -/
def maskReading : Dialect where
  dashComment := true
  escapes _ := true
  doubles _ := true

/-- The reading mode in which a loop of the mask meets the text `s`. -/
def MaskLoop.mode : MaskLoop → Text → Mode
  | .top, _ => .code
  | .lineComment, s => lineMode s.head?
  | .blockComment, _ => .block
  | .literal quote, _ => .quoted quote

theorem shown_cons (x : Char × Bool) (r : List (Char × Bool)) :
    shown (x :: r) = (if x.2 then x.1 else ' ') :: shown r := rfl

theorem shown_hidden (d : Dialect) {m : Mode} (hm : m ≠ .code) (c : Char) (rest : Text) :
    shown (read d m (c :: rest)) = ' ' :: shown (read d (step d m c rest.head?) rest) := by
  rw [read_cons_hidden _ hm, shown_cons]; simp

theorem shown_code (d : Dialect) {c : Char} {rest : Text}
    (h : step d .code c rest.head? = .code) :
    shown (read d .code (c :: rest)) = c :: shown (read d .code rest) := by
  rw [read_cons, shown_cons, h]; simp

theorem shown_opens (d : Dialect) {c : Char} {rest : Text} {m : Mode}
    (h : step d .code c rest.head? = m) (hm : m ≠ .code) :
    shown (read d .code (c :: rest)) = ' ' :: shown (read d m rest) := by
  rw [read_cons, shown_cons, h]; simp [hm]

/-- A hidden stretch begins with a blank, or is at its line break. -/
theorem head_shown_lineMode (d : Dialect) (s : Text) :
    ∀ c ∈ (shown (read d (lineMode s.head?) s)).head?, c = ' ' ∨ isBreak c = true := by
  cases s with
  | nil => simp [shown]
  | cons c rest =>
    by_cases hc : isBreak c = true
    · rw [read_cons, shown_cons]
      split_ifs <;> simp [hc]
    · rw [shown_hidden _ (by simp [lineMode, hc])]
      simp

theorem head_shown_block (d : Dialect) (s : Text) :
    ∀ c ∈ (shown (read d .block s)).head?, c = ' ' ∨ isBreak c = true := by
  cases s with
  | nil => simp [shown]
  | cons c rest =>
    rw [shown_hidden _ (by simp)]
    simp

/-- **The mask writes what `maskReading` shows**, up to the two blanks for the characters that open
a comment. -/
theorem maskFrom_rel {R : Text → Text → Prop} (hnil : R [] [])
    (hcons : ∀ (c : Char) {A B : Text}, R A B → R (c :: A) (c :: B))
    (hskip : ∀ {A B : Text}, (∀ c ∈ B.head?, c = ' ' ∨ isBreak c = true) → R A B →
      R A (' ' :: ' ' :: B)) (loop : MaskLoop) (s : Text) :
    R (maskFrom loop s) (shown (read maskReading (loop.mode s) s)) := by
  fun_induction maskFrom loop s with
  | case1 loop => exact hnil
  | case2 char hq =>
    rw [MaskLoop.mode, shown_opens _ (m := .quoted char) (by simp [step, hq]) (by simp)]
    exact hcons ' ' hnil
  | case3 char hq =>
    rw [MaskLoop.mode, shown_code _ (by simp [step, hq])]
    exact hcons char hnil
  | case4 char next rest h ih =>
    rw [MaskLoop.mode, shown_opens _ (m := .line) (by simp [step, h, maskReading]) (by simp),
      shown_hidden _ (by simp)]
    exact hskip (head_shown_lineMode _ rest) ih
  | case5 char next rest _ h ih =>
    rw [MaskLoop.mode, shown_opens _ (m := .line) (by simp [step, h]) (by simp),
      shown_hidden _ (by simp)]
    exact hskip (head_shown_lineMode _ rest) ih
  | case6 char next rest _ _ h ih =>
    rw [MaskLoop.mode, shown_opens _ (m := .blockOpen) (by simp [step, h]) (by simp),
      shown_hidden _ (by simp)]
    exact hskip (head_shown_block _ rest) ih
  | case7 char next rest h1 h2 h3 hq ih =>
    rw [MaskLoop.mode, shown_opens _ (m := .quoted char) _ (by simp)]
    · exact hcons ' ' ih
    · simp only [step, List.head?_cons, Option.some.injEq]
      rw [if_neg (fun h => h1 ⟨h.1, h.2.1⟩), if_neg h2, if_neg h3, if_pos hq]
  | case8 char next rest h1 h2 h3 hq ih =>
    rw [MaskLoop.mode, shown_code]
    · exact hcons char ih
    · simp only [step, List.head?_cons, Option.some.injEq]
      rw [if_neg (fun h => h1 ⟨h.1, h.2.1⟩), if_neg h2, if_neg h3, if_neg hq]
  | case9 char rest hb ih =>
    rw [MaskLoop.mode, List.head?_cons, show lineMode (some char) = .code by simp [lineMode, hb]]
    rw [shown_code _ (by simp only [isBreak, Bool.or_eq_true, beq_iff_eq] at hb
                         rcases hb with rfl | rfl <;> simp [step, isQuote])]
    exact hcons char ih
  | case10 char rest hb ih =>
    rw [MaskLoop.mode, List.head?_cons, show lineMode (some char) = .line by simp [lineMode, hb],
      shown_hidden _ (by simp)]
    exact hcons ' ' ih
  | case11 char =>
    rw [MaskLoop.mode, shown_hidden _ (by simp)]
    exact hcons ' ' hnil
  | case12 char next rest h ih =>
    rw [MaskLoop.mode, shown_hidden _ (by simp), h.1, h.2,
      show step maskReading .block '*' (List.head? ('/' :: rest)) = .blockClose from rfl,
      shown_hidden _ (by simp)]
    exact hcons ' ' (hcons ' ' ih)
  | case13 char next rest h ih =>
    rw [MaskLoop.mode, shown_hidden _ (by simp)]
    rw [show step maskReading .block char (List.head? (next :: rest)) = .block by simp [step, h]]
    exact hcons ' ' ih
  | case14 quote char =>
    rw [MaskLoop.mode, shown_hidden _ (by simp)]
    exact hcons ' ' hnil
  | case15 quote rest ih =>
    rw [MaskLoop.mode, shown_hidden _ (by simp),
      show step maskReading (.quoted quote) quote (List.head? (quote :: rest)) = .protect quote by
        simp [step, maskReading], shown_hidden _ (by simp)]
    exact hcons ' ' (hcons ' ' ih)
  | case16 quote next rest h ih =>
    rw [MaskLoop.mode, shown_hidden _ (by simp),
      show step maskReading (.quoted quote) quote (List.head? (next :: rest)) = .code by
        simp [step, h]]
    exact hcons ' ' ih
  | case17 quote next rest h ih =>
    rw [MaskLoop.mode, shown_hidden _ (by simp),
      show step maskReading (.quoted quote) '\\' (List.head? (next :: rest)) = .protect quote by
        simp [step, maskReading, h], shown_hidden _ (by simp)]
    exact hcons ' ' (hcons ' ' ih)
  | case18 quote char next rest h1 h2 ih =>
    rw [MaskLoop.mode, shown_hidden _ (by simp),
      show step maskReading (.quoted quote) char (List.head? (next :: rest)) = .quoted quote by
        simp [step, h1, h2]]
    exact hcons ' ' ih

/-- The mask leaves the words that `maskReading` shows, and nothing else. -/
theorem runs_maskFrom {W : Char → Bool} (hW : ∀ c, isDelimiter c = true → W c = false)
    (hblank : W ' ' = false) (loop : MaskLoop) (s : Text) :
    runs W (maskFrom loop s) = runs W (shown (read maskReading (loop.mode s) s)) := by
  refine maskFrom_rel (R := fun A B => runs W A = runs W B) rfl ?_ ?_ loop s
  · intro c A B h
    rw [runs, runs, h]
  · intro A B hhead h
    have hfst : (runs W B).1 = [] := by
      refine runs_fst_of_head fun c hc => ?_
      rcases hhead c hc with rfl | hbreak
      · exact hblank
      · exact hW c (by simp [isDelimiter, hbreak])
    have hone := runs_cons_sep_of_fst hblank hfst
    rw [h, runs_cons_sep_of_fst hblank (by rw [hone, hfst]), hone]

end Guards
