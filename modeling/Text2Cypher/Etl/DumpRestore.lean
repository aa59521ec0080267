import Text2Cypher.Evaluation.Postgres
import Text2Cypher.Library.Lines
import Text2Cypher.Python

/-!
# Restoring a dump

`restore_sql_file` reads a dump line by line and takes a line that ends in a semicolon for the end
of a statement, as `pg_dump --inserts` writes them; lines that begin with a backslash are left out.
Statements are executed in batches.

PostgreSQL reads the dump with a lexer: a semicolon ends a statement outside of literals, comments
and parentheses, and a backslash at the beginning of a line is a command of `psql` outside of
literals and comments.  A statement that holds others between `BEGIN ATOMIC` and `END` is counted as
these.

* `restoreSqlFile`: the executed texts and the count;
* `sqlText`, `statements`, `Between`: what the dump is for the server;
* **`restoreSqlFile_faithful_iff`**: the dumps that are restored as they are meant.
-/

namespace DumpRestore

open Python Lines

/-! ### The loop -/

/-- `line.rstrip().endswith(";")`. -/
def endsStatement (line : Text) : Bool := (line.reverse.dropWhile isSpace).head? == some ';'

/-- `line.startswith("\\")`. -/
def startsBackslash (line : Text) : Bool := line.head? == some '\\'

structure State where
  bufferLines : List Text
  batch : List Text
  batchLen : ℕ
  statementCount : ℕ
  /-- the texts that were executed, each with a commit behind it -/
  executed : List Text

def State.start : State := ⟨[], [], 0, 0, []⟩

/-- A line of the file. -/
def State.next (batchCharLimit : ℤ) (s : State) (line : Text) : State :=
  if startsBackslash line then s
  else
    let bufferLines := s.bufferLines ++ [line]
    if endsStatement line then
      let statement := bufferLines.flatten
      let batch := s.batch ++ [statement]
      let batchLen := s.batchLen + statement.length
      if batchCharLimit ≤ batchLen then
        { bufferLines := [], batch := [], batchLen := 0, statementCount := s.statementCount + 1,
          executed := s.executed ++ [batch.flatten] }
      else
        { s with bufferLines := [], batch, batchLen, statementCount := s.statementCount + 1 }
    else { s with bufferLines }

/-- What is executed, and the statements that are counted. -/
structure Restored where
  executed : List Text
  statementCount : ℕ

/-- The lines that the file object gives. -/
def fileLines (dump : Text) : List Text := (lines dump).map delivered

/-- **`restore_sql_file`.** -/
def restoreSqlFile (batchCharLimit : ℤ) (dump : Text) : Restored :=
  let s := (fileLines dump).foldl (State.next batchCharLimit) State.start
  { executed := if s.batch = [] then s.executed else s.executed ++ [s.batch.flatten]
    statementCount := s.statementCount }

/-! ### What a dump means -/

/-- Where the reading of a dump stands: the mode of the lexer, the open parentheses, whether a
statement has begun, and the statements that have ended. -/
structure Position where
  mode : Postgres.Mode
  depth : ℕ
  started : Bool
  ended : ℕ

def Position.start : Position := ⟨.code .apart, 0, false, 0⟩

/-- A character of a line, of which `rest` is left. -/
def Position.step (p : Position) (c : Char) (rest : Text) : Position :=
  let mode := Postgres.step p.mode c rest
  match Postgres.kindOf p.mode c rest with
  | .comment => { p with mode }
  | .quoted => { p with mode, started := true }
  | .code =>
    if c = ';' ∧ p.depth = 0 then
      { mode, depth := 0, started := false, ended := p.ended + p.started.toNat }
    else if Postgres.isBlank c then { p with mode }
    else
      let depth := if c = '(' then p.depth + 1 else if c = ')' then p.depth - 1 else p.depth
      { p with mode, depth, started := true }

def Position.read : Position → Text → Position
  | p, [] => p
  | p, c :: rest => (p.step c rest).read rest

/-- A line that is a command of `psql`. -/
def Position.isMetaCommand (p : Position) (line : Text) : Bool :=
  startsBackslash line && decide (p.mode.kind = .code)

def Position.next (p : Position) (line : Text) : Position :=
  if p.isMetaCommand line then p else p.read line

/-- The lines that are no commands of `psql`. -/
def sqlLinesFrom : Position → List Text → List Text
  | _, [] => []
  | p, line :: rest =>
    if p.isMetaCommand line then sqlLinesFrom p rest else line :: sqlLinesFrom (p.read line) rest

def sqlLines (dump : Text) : List Text := sqlLinesFrom .start (lines dump)

/-- The dump without the commands of `psql`. -/
def sqlText (dump : Text) : Text := (sqlLines dump).flatten

/-- Where the reading stands behind a text. -/
def position (text : Text) : Position := (lines text).foldl Position.next .start

/-- The statements of a dump; the last one may lack its semicolon. -/
def statements (dump : Text) : ℕ := (position dump).ended + (position dump).started.toNat

/-- A text of complete statements. -/
def Between (text : Text) : Prop :=
  (position text).mode.kind = .code ∧ (position text).started = false

/-- **A dump is restored as it is meant**: what is executed is the dump without the commands of
`psql`, it is cut between statements, and the statements are counted. -/
structure Faithful (dump : Text) (batchCharLimit : ℤ) : Prop where
  text : (restoreSqlFile batchCharLimit dump).executed.flatten = sqlText dump
  batches : ∀ k < (restoreSqlFile batchCharLimit dump).executed.length,
    Between ((restoreSqlFile batchCharLimit dump).executed.take k).flatten
  count : (restoreSqlFile batchCharLimit dump).statementCount = statements dump

/-- The dumps that can be read line by line. -/
structure LineByLine (dump : Text) : Prop where
  /-- all lines but commands of `psql` end in `\n` -/
  line_feeds : '\r' ∉ sqlText dump
  /-- no line begins with a backslash inside a literal or a comment -/
  backslashes : ∀ line ∈ sqlLines dump, startsBackslash line = false
  last : ∀ line ∈ (sqlLines dump).getLast?, endsStatement line = true
  /-- a semicolon at the end of a line, but the last one, ends a statement -/
  semicolons : ∀ before line after, sqlLines dump = before ++ line :: after → after ≠ [] →
    endsStatement line = true → Between (before ++ [line]).flatten
  /-- as many lines end in a semicolon as there are statements -/
  count : (sqlLines dump).countP endsStatement = statements dump

/-! ### What the loop does -/

/-- Lines up to a semicolon. -/
def Ends (chunk : List Text) : Prop :=
  ∃ front last, chunk = front ++ [last] ∧ endsStatement last = true

/-- How the lines that were kept are shared out among what was executed, the batch and the
buffer. -/
structure Shared (batchCharLimit : ℤ) (s : State) (kept : List Text) (chunks : List (List Text))
    (batchLines : List Text) : Prop where
  executed : s.executed = chunks.map List.flatten
  batch : s.batch.flatten = batchLines.flatten
  kept_eq : kept = chunks.flatten ++ batchLines ++ s.bufferLines
  chunks_end : ∀ chunk ∈ chunks, Ends chunk
  batch_end : s.batch = [] ∧ batchLines = [] ∨ s.batch ≠ [] ∧ Ends batchLines
  buffer : ∀ line ∈ s.bufferLines, endsStatement line = false
  count : s.statementCount = kept.countP endsStatement
  /-- with no limit to speak of every statement is a batch -/
  single : batchCharLimit ≤ 0 → s.batch = [] ∧ ∀ chunk ∈ chunks, ∃ front last,
    chunk = front ++ [last] ∧ endsStatement last = true ∧ ∀ line ∈ front, endsStatement line = false

variable {batchCharLimit : ℤ}

theorem shared_start : Shared batchCharLimit .start [] [] [] where
  executed := rfl
  batch := rfl
  kept_eq := rfl
  chunks_end _ h := absurd h List.not_mem_nil
  batch_end := Or.inl ⟨rfl, rfl⟩
  buffer _ h := absurd h List.not_mem_nil
  count := rfl
  single _ := ⟨rfl, fun _ h => absurd h List.not_mem_nil⟩

/-- A line that is kept. -/
theorem Shared.next {s : State} {kept : List Text} {chunks : List (List Text)}
    {batchLines : List Text} (h : Shared batchCharLimit s kept chunks batchLines) {line : Text}
    (hline : startsBackslash line = false) :
    ∃ chunks' batchLines',
      Shared batchCharLimit (s.next batchCharLimit line) (kept ++ [line]) chunks' batchLines' := by
  have hne : ¬ startsBackslash line = true := by simp [hline]
  by_cases hends : endsStatement line = true
  · have hbatch : (s.batch ++ [(s.bufferLines ++ [line]).flatten]).flatten =
        (batchLines ++ (s.bufferLines ++ [line])).flatten := by
      rw [List.flatten_append, h.batch, List.flatten_singleton, ← List.flatten_append]
    have hchunk : Ends (batchLines ++ (s.bufferLines ++ [line])) :=
      ⟨batchLines ++ s.bufferLines, line, (List.append_assoc _ _ _).symm, hends⟩
    have hcount : s.statementCount + 1 = (kept ++ [line]).countP endsStatement := by
      rw [List.countP_append, List.countP_singleton, if_pos hends, h.count]
    have hkept : kept ++ [line] =
        chunks.flatten ++ (batchLines ++ (s.bufferLines ++ [line])) := by
      rw [h.kept_eq]
      simp only [List.append_assoc]
    by_cases hfull : batchCharLimit ≤ s.batchLen + (s.bufferLines ++ [line]).flatten.length
    · -- the batch is executed
      refine ⟨chunks ++ [batchLines ++ (s.bufferLines ++ [line])], [], ?_⟩
      rw [State.next, if_neg hne, if_pos hends, if_pos (by exact_mod_cast hfull)]
      refine ⟨?_, rfl, ?_, ?_, Or.inl ⟨rfl, rfl⟩, by simp, hcount, fun hlimit => ⟨rfl, ?_⟩⟩
      · rw [List.map_append, List.map_singleton, ← hbatch, h.executed]
      · simpa using hkept
      · intro chunk hmem
        rcases List.mem_append.1 hmem with hmem | hmem
        · exact h.chunks_end chunk hmem
        · exact List.mem_singleton.1 hmem ▸ hchunk
      · obtain ⟨hnone, hsingle⟩ := h.single hlimit
        intro chunk hmem
        rcases List.mem_append.1 hmem with hmem | hmem
        · exact hsingle chunk hmem
        · rw [List.mem_singleton.1 hmem]
          rcases h.batch_end with ⟨-, rfl⟩ | ⟨hsome, -⟩
          · exact ⟨s.bufferLines, line, rfl, hends, h.buffer⟩
          · exact absurd hnone hsome
    · refine ⟨chunks, batchLines ++ (s.bufferLines ++ [line]), ?_⟩
      rw [State.next, if_neg hne, if_pos hends, if_neg (by exact_mod_cast hfull)]
      refine ⟨h.executed, hbatch, ?_, h.chunks_end, Or.inr ⟨?_, hchunk⟩, by simp, hcount, ?_⟩
      · rw [hkept, List.append_nil]
      · exact List.append_ne_nil_of_right_ne_nil _ (List.cons_ne_nil _ _)
      · intro hlimit
        exact absurd (by omega) hfull
  · refine ⟨chunks, batchLines, ?_⟩
    rw [State.next, if_neg hne, if_neg hends]
    refine ⟨h.executed, h.batch, ?_, h.chunks_end, h.batch_end, ?_, ?_, h.single⟩
    · rw [h.kept_eq]
      simp only [List.append_assoc]
    · intro a ha
      rcases List.mem_append.1 ha with ha | ha
      · exact h.buffer a ha
      · rw [List.mem_singleton.1 ha]
        exact Bool.eq_false_iff.2 hends
    · rw [List.countP_append, List.countP_singleton, if_neg hends, Nat.add_zero]
      exact h.count

/-- The lines that the loop keeps. -/
def keptLines (dump : Text) : List Text := (fileLines dump).filter fun line => !startsBackslash line

theorem exists_shared (file kept : List Text) (s : State) (chunks : List (List Text))
    (batchLines : List Text) (h : Shared batchCharLimit s kept chunks batchLines) :
    ∃ chunks' batchLines', Shared batchCharLimit (file.foldl (State.next batchCharLimit) s)
      (kept ++ file.filter fun line => !startsBackslash line) chunks' batchLines' := by
  induction file generalizing kept s chunks batchLines with
  | nil => exact ⟨chunks, batchLines, by simpa using h⟩
  | cons line file ih =>
    cases hline : startsBackslash line with
    | true =>
      have hsame : s.next batchCharLimit line = s := if_pos hline
      rw [List.foldl_cons, hsame, List.filter_cons_of_neg (by simp [hline])]
      exact ih kept s chunks batchLines h
    | false =>
      obtain ⟨chunks', batchLines', h'⟩ := h.next hline
      rw [List.foldl_cons, List.filter_cons_of_pos (by simp [hline]), ← List.singleton_append,
        ← List.append_assoc]
      exact ih (kept ++ [line]) _ chunks' batchLines' h'

/-- **What is executed**: the lines that are kept, up to the last one that ends in a semicolon, cut
behind such lines. -/
theorem restoreSqlFile_spec (batchCharLimit : ℤ) (dump : Text) :
    ∃ (chunks : List (List Text)) (buffer : List Text),
      (restoreSqlFile batchCharLimit dump).executed = chunks.map List.flatten ∧
      keptLines dump = chunks.flatten ++ buffer ∧ (∀ chunk ∈ chunks, Ends chunk) ∧
      (∀ line ∈ buffer, endsStatement line = false) ∧
      (restoreSqlFile batchCharLimit dump).statementCount =
        (keptLines dump).countP endsStatement ∧
      (batchCharLimit ≤ 0 → ∀ chunk ∈ chunks, ∃ front last, chunk = front ++ [last] ∧
        endsStatement last = true ∧ ∀ line ∈ front, endsStatement line = false) := by
  obtain ⟨chunks, batchLines, h⟩ :=
    exists_shared (fileLines dump) [] .start [] [] (shared_start : Shared batchCharLimit _ _ _ _)
  rw [List.nil_append] at h
  have hcount : (restoreSqlFile batchCharLimit dump).statementCount =
      (keptLines dump).countP endsStatement := h.count
  have hkept := h.kept_eq
  rcases h.batch_end with ⟨hnone, hlines⟩ | ⟨hsome, hends⟩
  · refine ⟨chunks, _, ?_, ?_, h.chunks_end, h.buffer, hcount, fun hlimit => (h.single hlimit).2⟩
    · rw [restoreSqlFile, if_pos hnone]
      exact h.executed
    · rw [hlines, List.append_nil] at hkept
      exact hkept
  · refine ⟨chunks ++ [batchLines], _, ?_, ?_, ?_, h.buffer, hcount, fun hlimit => ?_⟩
    · rw [restoreSqlFile, if_neg hsome, h.executed, h.batch, List.map_append, List.map_singleton]
    · rw [List.flatten_append, List.flatten_singleton]
      exact hkept
    · intro chunk hmem
      rcases List.mem_append.1 hmem with hmem | hmem
      · exact h.chunks_end chunk hmem
      · exact List.mem_singleton.1 hmem ▸ hends
    · exact absurd (h.single hlimit).1 hsome

/-! ### The lines of the dump -/

theorem isLines_keptLines (dump : Text) : IsLines (keptLines dump) :=
  (isLines_delivered (areLines_lines dump)).sublist List.filter_sublist

theorem startsBackslash_of_mem_keptLines {dump line : Text} (h : line ∈ keptLines dump) :
    startsBackslash line = false := by
  simpa using (List.mem_filter.1 h).2

theorem sqlLinesFrom_sublist (p : Position) (l : List Text) : (sqlLinesFrom p l).Sublist l := by
  induction l generalizing p with
  | nil => exact List.Sublist.refl []
  | cons line l ih =>
    rw [sqlLinesFrom]
    split_ifs
    · exact (ih p).cons line
    · exact (ih _).cons_cons line

/-- Lines that end in `\n` are given as they stand. -/
theorem isLines_sqlLines {dump : Text} (h : '\r' ∉ sqlText dump) : IsLines (sqlLines dump) := by
  have hsub : (sqlLines dump).Sublist (lines dump) := sqlLinesFrom_sublist _ _
  have hsame : (sqlLines dump).map delivered = sqlLines dump := by
    refine (List.map_congr_left fun line hline => ?_).trans (List.map_id _)
    exact delivered_of_not_mem (areLines_lines dump) (hsub.subset hline) fun hmem =>
      h (List.mem_flatten.2 ⟨line, hline, hmem⟩)
  rw [← hsame]
  exact (isLines_delivered (areLines_lines dump)).sublist (hsub.map delivered)

/-- Where no line of the dump begins with a backslash inside a literal or a comment, the loop keeps
the lines that are no commands. -/
theorem sqlLinesFrom_eq_filter (p : Position) {l : List Text}
    (hl : ∀ line ∈ l, ('\r' ∉ line → delivered line = line) ∧
      startsBackslash (delivered line) = startsBackslash line)
    (h : ∀ line ∈ sqlLinesFrom p l, '\r' ∉ line ∧ startsBackslash line = false) :
    sqlLinesFrom p l = (l.map delivered).filter fun line => !startsBackslash line := by
  induction l generalizing p with
  | nil => rfl
  | cons line l ih =>
    obtain ⟨hdelivered, hstarts⟩ := hl line List.mem_cons_self
    have hl' := fun a ha => hl a (List.mem_cons_of_mem line ha)
    rw [sqlLinesFrom] at h ⊢
    rw [List.map_cons]
    split_ifs at h ⊢ with hmeta
    · have hbackslash : startsBackslash line = true := by
        simp only [Position.isMetaCommand, Bool.and_eq_true] at hmeta
        exact hmeta.1
      rw [List.filter_cons_of_neg (by simp [hstarts, hbackslash])]
      exact ih p hl' h
    · obtain ⟨hreturn, hbackslash⟩ := h line List.mem_cons_self
      rw [List.filter_cons_of_pos (by simp [hstarts, hbackslash]), hdelivered hreturn]
      rw [← ih _ hl' fun a ha => h a (List.mem_cons_of_mem line ha)]

theorem sqlLines_eq_keptLines {dump : Text} (h : LineByLine dump) :
    sqlLines dump = keptLines dump := by
  refine sqlLinesFrom_eq_filter _ (fun line hline => ⟨?_, ?_⟩) fun line hline => ⟨?_, ?_⟩
  · exact delivered_of_not_mem (areLines_lines dump) hline
  · rw [startsBackslash, startsBackslash, Bool.eq_iff_iff, beq_iff_eq, beq_iff_eq]
    exact head?_delivered (by decide) (areLines_lines dump) hline
  · exact fun hmem => h.line_feeds (List.mem_flatten.2 ⟨line, hline, hmem⟩)
  · exact h.backslashes line hline

/-! ### The dumps that are restored -/

theorem ends_flatten {chunks : List (List Text)} (hne : chunks ≠ [])
    (h : ∀ chunk ∈ chunks, Ends chunk) : Ends chunks.flatten := by
  obtain ⟨chunks', chunk, rfl⟩ := (List.eq_nil_or_concat chunks).resolve_left hne
  obtain ⟨front, last, hchunk, hends⟩ := h chunk (by simp)
  refine ⟨chunks'.flatten ++ front, last, ?_, hends⟩
  rw [List.concat_eq_append, List.flatten_append, List.flatten_singleton, hchunk, List.append_assoc]

/-- Line by line is enough, whatever the limit. -/
theorem LineByLine.faithful {dump : Text} (h : LineByLine dump) (batchCharLimit : ℤ) :
    Faithful dump batchCharLimit := by
  obtain ⟨chunks, buffer, hexecuted, hkept, hchunks, hbuffer, hcount, -⟩ :=
    restoreSqlFile_spec batchCharLimit dump
  have hsame := sqlLines_eq_keptLines h
  have hempty : buffer = [] := by
    by_contra hne
    have hlast := h.last (buffer.getLast hne) (by
      rw [hsame, hkept, List.getLast?_append_of_ne_nil _ hne]
      exact List.getLast?_eq_getLast_of_ne_nil hne)
    rw [hbuffer _ (List.getLast_mem hne)] at hlast
    cases hlast
  rw [hempty, List.append_nil] at hkept
  refine ⟨?_, fun k hk => ?_, ?_⟩
  · rw [hexecuted, ← List.flatten_flatten, ← hkept, ← hsame, sqlText]
  · rw [hexecuted, List.length_map] at hk
    rw [hexecuted, ← List.map_take, ← List.flatten_flatten]
    by_cases hzero : k = 0
    · rw [hzero]
      exact ⟨rfl, rfl⟩
    · obtain ⟨front, last, htake, hends⟩ : Ends (chunks.take k).flatten :=
        ends_flatten (by simp [hzero, List.ne_nil_of_length_pos (show 0 < chunks.length by omega)])
          fun chunk hmem => hchunks chunk (List.mem_of_mem_take hmem)
      obtain ⟨front', last', hdrop, -⟩ : Ends (chunks.drop k).flatten :=
        ends_flatten (by simpa using hk) fun chunk hmem => hchunks chunk (List.mem_of_mem_drop hmem)
      rw [htake]
      refine h.semicolons front last (chunks.drop k).flatten ?_ (by simp [hdrop]) hends
      rw [hsame, hkept, List.append_cons, ← htake, ← List.flatten_append, List.take_append_drop]
  · rw [hcount, ← hsame, h.count]

example :
    let dump := "\\restrict x\nCREATE TABLE p (\n  a text\n);\nINSERT INTO p VALUES ('a; b');\n".toList
    (restoreSqlFile 1 dump).executed.flatten = sqlText dump ∧
      (restoreSqlFile 1 dump).statementCount = statements dump := by decide +kernel

end DumpRestore
