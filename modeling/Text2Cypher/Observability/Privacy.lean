import Text2Cypher.PythonPatterns

/-!
# The redaction of queries and questions

`redact_query` and `redact_question` replace values before a text is logged.  The regular
expressions are patterns of the backtracking library, applied one after the other.
-/

namespace Privacy

open Patterns

/-! ### Letters -/

/-- What the character classes of regular expressions accept outside ASCII, and `unicodedata`. -/
structure Platform extends WordClass where
  digit : ∀ c : Char, Python.isDigit c = true → isWord c = true
  /-- two characters are equal under `re.IGNORECASE` -/
  sameLetter : Char → Char → Bool
  /-- `unicodedata.normalize("NFC", ...)` -/
  nfc : Text → Text
  /-- `int(...)`, where it does not raise -/
  int : Text → Option ℤ

theorem isDigit_of_lt : ∀ n < 128, Python.isDigit (Char.ofNat n) = true →
    ((Char.ofNat n).isAlphanum || Char.ofNat n == '_') = true := by
  decide +kernel

theorem not_isDigit_of_isSpace {c : Char} (h : Python.isSpace c = true) :
    Python.isDigit c = false := by
  have hall : ∀ n ∈ [0x09, 0x0a, 0x0b, 0x0c, 0x0d, 0x1c, 0x1d, 0x1e, 0x1f, 0x20, 0x85, 0xa0, 0x1680,
      0x2000, 0x2001, 0x2002, 0x2003, 0x2004, 0x2005, 0x2006, 0x2007, 0x2008, 0x2009, 0x200a,
      0x2028, 0x2029, 0x202f, 0x205f, 0x3000], Python.isDigit (Char.ofNat n) = false := by
    decide +kernel
  have hc := hall c.toNat (of_decide_eq_true h)
  rwa [Char.ofNat_toNat] at hc

/-- The word characters of ASCII text and all digits, for text that is composed already. -/
def Platform.plain (int : Text → Option ℤ) : Platform where
  isWord c := WordClass.asciiOnly.isWord c || Python.isDigit c
  ascii c hc := by
    have hdigit := isDigit_of_lt c.toNat hc
    rw [Char.ofNat_toNat] at hdigit
    rw [WordClass.asciiOnly.ascii c hc]
    cases hword : (c.isAlphanum || c == '_') with
    | true => rfl
    | false =>
      rw [Bool.false_or, Bool.eq_false_iff]
      intro h
      rw [hdigit h] at hword
      cases hword
  space c hc := by
    rw [WordClass.asciiOnly.space c hc, not_isDigit_of_isSpace hc, Bool.false_or]
  digit c hc := by rw [hc, Bool.or_true]
  sameLetter := (· == ·)
  nfc := id
  int := int

variable (k : Platform)

/-- `[A-Z]` under `re.IGNORECASE`. -/
def isLetter (c : Char) : Bool :=
  ('A' ≤ c.toUpper ∧ c.toUpper ≤ 'Z') || ['İ', 'ı', 'ſ'].contains c || c.toNat == 0x212a

def isAsciiDigit (c : Char) : Bool := '0' ≤ c ∧ c ≤ '9'

/-- `[A-Z0-9...]` under `re.IGNORECASE`, with the other characters listed. -/
def isLetterOr (others : List Char) (c : Char) : Bool :=
  isLetter c || isAsciiDigit c || others.contains c

/-- `[0-9a-fA-F...]`, with the other characters listed. -/
def isHexOr (others : List Char) (c : Char) : Bool :=
  isAsciiDigit c || ('a' ≤ c ∧ c ≤ 'f') || ('A' ≤ c ∧ c ≤ 'F') || others.contains c

/-! ### `_PATTERNS` -/

def emailPattern : Pattern Char :=
  inTurn [boundary k.toWordClass, .plus (.char (isLetterOr ['.', '_', '%', '+', '-'])), exactly "@",
    .plus (.char (isLetterOr ['.', '-'])), exactly ".",
    .times 2 (.char isLetter), .star true (.char isLetter), boundary k.toWordClass]

def tokenPattern : Pattern Char :=
  let part := Pattern.plus (.char (isLetterOr ['_', '-']))
  inTurn [boundary k.toWordClass, .opt (.seq (anyCase "BEARER") (.plus space)), anyCase "EYJ", part,
    exactly ".", part, exactly ".", part, boundary k.toWordClass]

def secretPattern : Pattern Char :=
  inTurn [boundary k.toWordClass,
    .oneOf [inTurn [anyCase "API", .opt (.char fun c => c = '_' ∨ c = '-'), anyCase "KEY"],
      anyCase "TOKEN", anyCase "SECRET"],
    .star true space, .char (fun c => c = ':' ∨ c = '='), .star true space,
    .plus (.char fun c => !Python.isSpace c)]

def credentialsPattern : Pattern Char :=
  inTurn [.group 1 (inTurn [anyCase "HTTP", .opt (anyCase "S"), exactly "://"]),
    .plus (.char fun c => !(c == '/' || c == '@' || Python.isSpace c || c == ':')), exactly ":",
    .plus (.char fun c => !(c == '/' || c == '@' || Python.isSpace c)), exactly "@"]

def ipPattern : Pattern Char :=
  let part := Pattern.seq digit (.upTo 2 digit)
  inTurn [boundary k.toWordClass, .times 3 (.seq part (exactly ".")), part, boundary k.toWordClass]

def uuidPattern : Pattern Char :=
  inTurn [boundary k.toWordClass, .times 8 (.char (isHexOr [])), exactly "-",
    .times 27 (.char (isHexOr ['-'])), .upTo 9 (.char (isHexOr ['-'])), boundary k.toWordClass]

def phonePattern : Pattern Char :=
  let gap := Pattern.opt (.char fun c => c = ' ' ∨ c = '-')
  inTurn [notBehind Python.isDigit, exactly "01",
    .char (fun c => ['0', '1', '6', '7', '8', '9'].contains c), gap, .times 3 digit, .opt digit, gap,
    .times 4 digit, notBefore Python.isDigit]

/-- `(['\"]).*?\1`. -/
def quotedPattern : Pattern Char :=
  inTurn [.group 1 (.char fun c => c = '\'' ∨ c = '"'), .star false (.char (· ≠ '\n')), .again 1]

/-- `(?<!\w)\d{4,}(?!\w)`. -/
def longNumberPattern : Pattern Char :=
  inTurn [notBehind k.isWord, .times 4 digit, .star true digit, notBefore k.isWord]

/-! ### `_QUERY_LITERAL_PATTERNS` -/

/-- A literal in some quotes, in which the quote may be doubled or escaped. -/
def literalPattern (quote : Char) : Pattern Char :=
  let isQuote : Pattern Char := .char (· = quote)
  inTurn [isQuote,
    .star true (.oneOf [.seq isQuote isQuote, .seq (.char (· = '\\')) (.char (· ≠ '\n')),
      .char (· ≠ quote)]), isQuote]

/-- `(?<![\w$])[-+]?\d+(?:\.\d+)?(?!\w)`. -/
def numberPattern : Pattern Char :=
  inTurn [notBehind fun c => k.isWord c || c == '$', .opt (.char fun c => c = '-' ∨ c = '+'),
    .plus digit, .opt (.seq (.char (· = '.')) (.plus digit)), notBefore k.isWord]

/-! ### The rules -/

/-- A rule with a fixed replacement. -/
def mask (pattern : Pattern Char) (marker : String) (h : pattern.consumes = true) : Rule Char :=
  ⟨pattern, fun _ => marker.toList, h⟩

/-- `\1[USER]:[PASSWORD]@`. -/
def credentialsRule : Rule Char :=
  ⟨credentialsPattern, fun t => (t.groups 1).getD [] ++ "[USER]:[PASSWORD]@".toList, rfl⟩

/-- `_PATTERNS[:-3]`. -/
def secretRules : List (Rule Char) :=
  [mask (emailPattern k) "[EMAIL]" rfl, mask (tokenPattern k) "[TOKEN]" rfl,
    mask (secretPattern k) "[SECRET]" rfl, credentialsRule, mask (ipPattern k) "[IP]" rfl,
    mask (uuidPattern k) "[UUID]" rfl]

def quotedRule : Rule Char := mask quotedPattern "[VALUE]" rfl

def longNumberRule : Rule Char := mask (longNumberPattern k) "[NUMBER]" rfl

/-- `_PATTERNS`. -/
def rules : List (Rule Char) :=
  secretRules k ++ [mask phonePattern "[PHONE]" rfl, quotedRule, longNumberRule k]

def literalRule (quote : Char) : Rule Char := mask (literalPattern quote) "[VALUE]" rfl

def numberRule : Rule Char := mask (numberPattern k) "[VALUE]" rfl

/-- `_QUERY_LITERAL_PATTERNS`. -/
def queryLiteralRules : List (Rule Char) := [literalRule '\'', literalRule '"', numberRule k]

/-- The rules are applied one after the other. -/
def applyAll (rules : List (Rule Char)) (text : Text) : Text :=
  rules.foldl (fun value rule => rule.sub [] value) text

/-! ### `redact_query` -/

/-- The environment variables, where they are set. -/
structure Environment where
  logFailedQuery : Option Text
  logFailedQueryMaxChars : Option Text
  logQuestionPreview : Option Text

/-- `value.lower() == "true"`: only ASCII letters have a letter of this word in lower case. -/
def isTrue (value : Text) : Bool := value.map Char.toLower = "true".toList

/-- The value that `redact_query` cuts. -/
def redacted (query : Text) : Text :=
  applyAll (queryLiteralRules k) (applyAll (secretRules k) (Python.strip (k.nfc query)))

def truncatedMark : Text := "\n… [TRUNCATED]".toList

/-- `redact_query`. -/
def redactQuery (env : Environment) (query : Text) : Option Text :=
  if isTrue (env.logFailedQuery.getD "false".toList) = false then none
  else
    match env.logFailedQueryMaxChars.elim (some 4000) k.int with
    | none => none
    | some configured =>
        let value := redacted k query
        let maximum := (max 160 configured).toNat
        if maximum < value.length then some (value.take maximum ++ truncatedMark) else some value

/-! ### `redact_question` -/

/-- `re.sub(re.escape(name), "[ENTITY]", ..., flags=re.IGNORECASE)`. -/
def entityRule (first : Char) (rest : Text) : Rule Char :=
  mask (.word k.sameLetter (first :: rest)) "[ENTITY]" rfl

def hideEntity (value : Text) : Text → Text
  | [] => value
  | first :: rest => (entityRule k first rest).sub [] value

/-- `redact_question`. -/
def redactQuestion (env : Environment) (question : Text) (entityNames : List Text) :
    Option Text :=
  if isTrue (env.logQuestionPreview.getD "true".toList) = false then none
  else
    let value := entityNames.foldl (hideEntity k) (k.nfc question)
    some ((applyAll (rules k) value).take 160)

end Privacy
