import AgentHalo.Base.Scan
import AgentHalo.Sql.Executor

/-!
# What the splitter keeps

The quote scanner of `split_sql_statements` looks one character ahead to tell an escaped quote from the end of a literal;
the reading it is meant to follow (`LitState`) needs no look-ahead. The scanner's flag follows that reading
(`splitLoop_eq`), so the script is cut at the semicolons outside literals and nowhere else, and a piece is its own only
piece.
-/

namespace AgentHalo.Sql

open Text (trimChars isWhitespace)

/-! ### Literals -/

/-- Where a text stands with respect to single-quoted literals. -/
inductive LitState where
  | code
  | literal
  /-- A quote inside a literal: its end, or the first half of an escaped quote. -/
  | quote
deriving DecidableEq, Repr

def LitState.step : LitState → Char → LitState
  | .code, ch => if ch = '\'' then .literal else .code
  | .literal, ch => if ch = '\'' then .quote else .literal
  | .quote, ch => if ch = '\'' then .literal else .code

/-- What follows the text is inside a literal. -/
def InLiteral (text : List Char) : Prop := text.foldl LitState.step .code = .literal

/-- Every semicolon of the text is inside a literal, for a text that begins in the given state. -/
def WholeFrom (st : LitState) (text : List Char) : Prop :=
  ∀ front back, text = front ++ ';' :: back → front.foldl LitState.step st = .literal

/-- Every semicolon of the text is inside a literal. -/
abbrev Whole (text : List Char) : Prop := WholeFrom .code text

/-- The text after `read` is cut into these segments, at semicolons outside literals and at all of them. -/
inductive Segments : List Char → List Char → List (List Char) → Prop where
  | last (read seg) (whole : Whole seg) : Segments read seg [seg]
  | cut (read seg) {rest : List Char} {segs : List (List Char)} (whole : Whole seg) (outside : ¬ InLiteral (read ++ seg))
      (more : Segments (read ++ seg ++ [';']) rest segs) : Segments read (seg ++ ';' :: rest) (seg :: segs)

/-- The text after `read` is the statements in order, with white space and semicolons outside literals around them. -/
inductive Woven : List Char → List Char → List String → Prop where
  | nil (read) : Woven read [] []
  | blank {read rest : List Char} {stmts : List String} (ch : Char) (white : isWhitespace ch = true)
      (more : Woven (read ++ [ch]) rest stmts) : Woven read (ch :: rest) stmts
  | semicolon {read rest : List Char} {stmts : List String} (outside : ¬ InLiteral read)
      (more : Woven (read ++ [';']) rest stmts) : Woven read (';' :: rest) stmts
  | statement {read rest : List Char} {stmts : List String} (stmt : String)
      (more : Woven (read ++ stmt.toList) rest stmts) : Woven read (stmt.toList ++ rest) (stmt :: stmts)

/-! ### The scanner -/

def segmentsFrom : List Char → List Char → LitState → List (List Char)
  | [], cur, _ => [cur]
  | ch :: rest, cur, st =>
    if ch = ';' ∧ st ≠ .literal then cur :: segmentsFrom rest [] .code
    else segmentsFrom rest (cur ++ [ch]) (st.step ch)

/-- The flag of the scanner says whether the text is inside a literal; it takes an escaped quote in one step. -/
inductive Follows : Bool → LitState → List Char → Prop where
  | inside (rest) : Follows true .literal rest
  | outside (rest) : Follows false .code rest
  | ended {rest : List Char} (next : rest.head? ≠ some '\'') : Follows false .quote rest

variable {st : LitState} {rest cs cur text read seg : List Char}

theorem Follows.ne_literal (h : Follows false st rest) : st ≠ .literal := by
  cases h <;> exact LitState.noConfusion

variable {q : Bool} {ch : Char} {front : List Char} {segs : List (List Char)} {stmts : List String}

theorem Follows.step (h : Follows q st (ch :: rest)) (hch : ch ≠ '\'') : Follows q (st.step ch) rest := by
  cases h with
  | inside =>
    rw [LitState.step, if_neg hch]
    exact .inside rest
  | outside =>
    rw [LitState.step, if_neg hch]
    exact .outside rest
  | ended _ =>
    rw [LitState.step, if_neg hch]
    exact .outside rest

theorem splitLoop_eq (h : Follows q st cs) :
    splitLoop cs cur q = (segmentsFrom cs cur st).flatMap finishStatement := by
  fun_induction splitLoop cs cur q generalizing st with
  | case1 cur q => simp [segmentsFrom]
  | case2 cur rest ih =>
    -- an escaped quote: two characters of the literal
    cases h
    have hquotes : segmentsFrom ('\'' :: '\'' :: rest) cur .literal = segmentsFrom rest (cur ++ ['\'', '\'']) .literal := by
      simp [segmentsFrom, LitState.step]
    rw [hquotes, ih (.inside rest)]
  | case3 cur q rest hother ih =>
    have hstep : segmentsFrom ('\'' :: rest) cur st = segmentsFrom rest (cur ++ ['\'']) (st.step '\'') := by
      rw [segmentsFrom, if_neg (by rintro ⟨hsemi, -⟩; exact absurd hsemi (by decide))]
    rw [hstep]
    refine ih ?_
    cases h with
    | inside =>
      refine .ended fun hnext => ?_
      obtain ⟨tail, rfl⟩ := List.head?_eq_some_iff.mp hnext
      exact hother tail rfl rfl
    | outside => exact .inside rest
    | ended hnext => exact absurd rfl hnext
  | case4 ch rest cur q hquote hsemi ih =>
    obtain ⟨rfl, hq⟩ := hsemi
    obtain rfl : q = false := by simpa using hq
    rw [segmentsFrom, if_pos ⟨rfl, h.ne_literal⟩, List.flatMap_cons, ih (.outside rest)]
  | case5 ch rest cur q hquote hsemi ih =>
    have hstep : segmentsFrom (ch :: rest) cur st = segmentsFrom rest (cur ++ [ch]) (st.step ch) := by
      refine if_neg fun hcut => ?_
      cases h with
      | inside => exact hcut.2 rfl
      | outside => exact hsemi ⟨hcut.1, rfl⟩
      | ended _ => exact hsemi ⟨hcut.1, rfl⟩
    rw [hstep, ih (h.step hquote)]

theorem splitSqlStatements_eq (sql : String) :
    splitSqlStatements sql = (segmentsFrom sql.toList [] .code).flatMap finishStatement :=
  splitLoop_eq (.outside _)

/-! ### The segments -/

theorem whole_nil : Whole [] := fun front _ h => absurd h.symm (by simp)

theorem Whole.concat (h : Whole text) (hch : ch = ';' → InLiteral text) : Whole (text ++ [ch]) := by
  intro front back heq
  rcases List.eq_nil_or_concat back with rfl | ⟨back', last, rfl⟩
  · obtain ⟨rfl, hlast⟩ := List.append_inj' heq rfl
    exact hch (List.cons.inj hlast).1
  · have hsplit : text ++ [ch] = (front ++ ';' :: back') ++ [last] := by simpa using heq
    exact h front back' (List.append_inj' hsplit rfl).1

theorem Whole.infix {back : List Char} (h : Whole (front ++ text ++ back))
    (hfront : front.foldl LitState.step .code = .code) : Whole text := by
  intro pre post heq
  have hin := h (front ++ pre) (post ++ back) (by rw [heq]; simp)
  rwa [List.foldl_append, hfront] at hin

theorem segmentsFrom_of_whole (h : WholeFrom st cs) : segmentsFrom cs cur st = [cur ++ cs] := by
  induction cs generalizing cur st with
  | nil => rw [segmentsFrom, List.append_nil]
  | cons ch rest ih =>
    rw [segmentsFrom, if_neg, ih, List.append_assoc, List.singleton_append]
    · intro front back heq
      exact h (ch :: front) back (by rw [heq, List.cons_append])
    · rintro ⟨rfl, hst⟩
      exact hst (h [] rest rfl)

theorem segments_segmentsFrom (hread : read.foldl LitState.step .code = .code)
    (hcur : cur.foldl LitState.step .code = st) (hwhole : Whole cur) :
    Segments read (cur ++ cs) (segmentsFrom cs cur st) := by
  induction cs generalizing read cur st with
  | nil =>
    rw [List.append_nil, segmentsFrom]
    exact .last read cur hwhole
  | cons ch rest ih =>
    have hat : (read ++ cur).foldl LitState.step .code = st := by rw [List.foldl_append, hread, hcur]
    rw [segmentsFrom]
    split_ifs with hcut
    · obtain ⟨rfl, hst⟩ := hcut
      refine .cut read cur hwhole (fun hin => hst (hat ▸ hin)) ?_
      refine ih ?_ rfl whole_nil
      rw [List.foldl_append, hat]
      cases st with
      | code => rfl
      | literal => exact absurd rfl hst
      | quote => rfl
    · rw [show cur ++ ch :: rest = cur ++ [ch] ++ rest by simp]
      refine ih hread (by rw [List.foldl_append, hcur]; rfl) (hwhole.concat fun hsemi => ?_)
      by_contra hout
      exact hcut ⟨hsemi, fun hst => hout (hcur.trans hst)⟩

theorem Segments.whole (h : Segments read text segs) (hseg : seg ∈ segs) : Whole seg := by
  induction h with
  | last read seg' whole =>
    obtain rfl := List.mem_singleton.mp hseg
    exact whole
  | cut read seg' whole _ _ ih =>
    obtain rfl | hrest := List.mem_cons.mp hseg
    · exact whole
    · exact ih hrest

/-! ### The pieces -/

theorem exists_trimChars (cs : List Char) : ∃ front back, cs = front ++ trimChars cs ++ back ∧
    (∀ c ∈ front, isWhitespace c = true) ∧ ∀ c ∈ back, isWhitespace c = true := by
  refine ⟨cs.takeWhile isWhitespace, (cs.dropWhile isWhitespace).rtakeWhile isWhitespace, ?_, ?_, ?_⟩
  · calc
      cs = cs.takeWhile isWhitespace ++ cs.dropWhile isWhitespace := (List.takeWhile_append_dropWhile).symm
      _ = cs.takeWhile isWhitespace ++ ((cs.dropWhile isWhitespace).rdropWhile isWhitespace ++
          (cs.dropWhile isWhitespace).rtakeWhile isWhitespace) := by rw [List.rdropWhile_append_rtakeWhile]
      _ = _ := by rw [← List.append_assoc]; rfl
  · exact fun c hc => List.mem_takeWhile_imp hc
  · exact fun c hc => List.mem_rtakeWhile_imp hc

theorem foldl_white (h : ∀ c ∈ front, isWhitespace c = true) :
    front.foldl LitState.step .code = .code := by
  induction front with
  | nil => rfl
  | cons c rest ih =>
    have hc : c ≠ '\'' := by
      rintro rfl
      exact absurd (h '\'' List.mem_cons_self) (by decide)
    rw [List.foldl_cons, LitState.step, if_neg hc]
    exact ih fun d hd => h d (List.mem_cons_of_mem _ hd)

theorem Whole.trimChars (h : Whole seg) : Whole (trimChars seg) := by
  obtain ⟨front, back, hseg, hfront, -⟩ := exists_trimChars seg
  rw [hseg] at h
  exact h.infix (foldl_white hfront)

variable {stmt sql : String}

theorem mem_finishStatement (h : stmt ∈ finishStatement seg) : stmt.toList = trimChars seg ∧ stmt ≠ "" := by
  unfold finishStatement at h
  split_ifs at h with hblank
  · cases h
  · obtain rfl := List.mem_singleton.mp h
    refine ⟨String.toList_ofList, fun hempty => hblank ?_⟩
    rw [List.isEmpty_iff, ← String.toList_ofList (l := trimChars seg), hempty]
    rfl

theorem exists_segment_of_mem (h : stmt ∈ splitSqlStatements sql) :
    ∃ seg, Whole seg ∧ stmt.toList = trimChars seg ∧ stmt ≠ "" := by
  rw [splitSqlStatements_eq] at h
  obtain ⟨seg, hseg, hstmt⟩ := List.mem_flatMap.mp h
  have hsegments : Segments [] sql.toList (segmentsFrom sql.toList [] .code) := segments_segmentsFrom rfl rfl whole_nil
  exact ⟨seg, hsegments.whole hseg, mem_finishStatement hstmt⟩

theorem splitSqlStatements_of_whole (hwhole : Whole sql.toList) (htrim : trimChars sql.toList = sql.toList)
    (hne : sql ≠ "") : splitSqlStatements sql = [sql] := by
  have hchars : sql.toList ≠ [] := fun hnil => hne (String.toList_inj.mp hnil)
  rw [splitSqlStatements_eq, segmentsFrom_of_whole hwhole, List.nil_append, List.flatMap_singleton, finishStatement,
    htrim, if_neg (by rwa [List.isEmpty_iff]), String.ofList_toList]

theorem splitSqlStatements_of_mem (h : stmt ∈ splitSqlStatements sql) : splitSqlStatements stmt = [stmt] := by
  obtain ⟨seg, hwhole, hstmt, hne⟩ := exists_segment_of_mem h
  exact splitSqlStatements_of_whole (hstmt ▸ hwhole.trimChars) (by rw [hstmt, Text.trimChars_trimChars]) hne

theorem trim_of_mem (h : stmt ∈ splitSqlStatements sql) : Text.trim stmt = stmt := by
  obtain ⟨seg, -, hstmt, -⟩ := exists_segment_of_mem h
  rw [Text.trim, hstmt, Text.trimChars_trimChars, ← hstmt, String.ofList_toList]

theorem ne_empty_of_mem (h : stmt ∈ splitSqlStatements sql) : stmt ≠ "" := by
  obtain ⟨-, -, -, hne⟩ := exists_segment_of_mem h
  exact hne

theorem SqlExecutor.execute_of_mem {P : Platform} (env : SqlEnv) (h : stmt ∈ splitSqlStatements sql)
    (ex : SqlExecutor P) : SqlExecutor.execute env stmt ex = SqlExecutor.executeSingle env stmt ex := by
  rw [SqlExecutor.execute, trim_of_mem h, if_neg (by simpa using ne_empty_of_mem h),
    dif_neg (by rw [splitSqlStatements_of_mem h]; simp)]

/-! ### The script is the pieces -/

theorem Woven.blanks {white : List Char} (hwhite : ∀ c ∈ white, isWhitespace c = true)
    (h : Woven (read ++ white) rest stmts) : Woven read (white ++ rest) stmts := by
  induction white generalizing read with
  | nil => simpa using h
  | cons c tail ih =>
    refine .blank c (hwhite c List.mem_cons_self) (ih (fun d hd => hwhite d (List.mem_cons_of_mem _ hd)) ?_)
    simpa using h

theorem Woven.segment (seg : List Char) (h : Woven (read ++ seg) rest stmts) :
    Woven read (seg ++ rest) (finishStatement seg ++ stmts) := by
  unfold finishStatement
  split_ifs with hblank
  · exact .blanks ((Text.trimChars_eq_nil_iff seg).mp (List.isEmpty_iff.mp hblank)) h
  · obtain ⟨front, back, hseg, hfront, hback⟩ := exists_trimChars seg
    have hrest : Woven (read ++ front ++ trimChars seg ++ back) rest stmts := by
      rw [hseg] at h
      simpa using h
    have hblanks : Woven (read ++ front ++ (String.ofList (trimChars seg)).toList) (back ++ rest) stmts := by
      rw [String.toList_ofList]
      exact .blanks hback hrest
    have hstmt := Woven.statement (String.ofList (trimChars seg)) hblanks
    rw [String.toList_ofList] at hstmt
    rw [show seg ++ rest = front ++ (trimChars seg ++ (back ++ rest)) by
      conv_lhs => rw [hseg]
      simp]
    exact .blanks hfront hstmt

theorem Segments.woven (h : Segments read text segs) :
    Woven read text (segs.flatMap finishStatement) := by
  induction h with
  | last read seg _ =>
    have hlast := Woven.segment seg (.nil (read ++ seg))
    simpa using hlast
  | cut read seg _ outside _ ih =>
    rw [List.flatMap_cons]
    exact .segment seg (.semicolon outside ih)

/-- **The splitter is faithful and stable.** The pieces are nonempty and trimmed, each is its own only piece and is run
without splitting again, the cuts are the semicolons outside literals, and with white space around the statements that
is all the script loses. -/
theorem splitSqlStatements_faithful (sql : String) :
    (∀ stmt ∈ splitSqlStatements sql, stmt ≠ "" ∧ Text.trim stmt = stmt ∧ splitSqlStatements stmt = [stmt] ∧
      ∀ (P : Platform) (env : SqlEnv) (ex : SqlExecutor P),
        SqlExecutor.execute env stmt ex = SqlExecutor.executeSingle env stmt ex) ∧
    (∃ segs, Segments [] sql.toList segs ∧ splitSqlStatements sql = segs.flatMap finishStatement) ∧
    Woven [] sql.toList (splitSqlStatements sql) := by
  have hsegments : Segments [] sql.toList (segmentsFrom sql.toList [] .code) := segments_segmentsFrom rfl rfl whole_nil
  refine ⟨fun stmt hstmt => ?_, ⟨_, hsegments, splitSqlStatements_eq sql⟩, ?_⟩
  · exact ⟨ne_empty_of_mem hstmt, trim_of_mem hstmt, splitSqlStatements_of_mem hstmt,
      fun P env ex => SqlExecutor.execute_of_mem env hstmt ex⟩
  · rw [splitSqlStatements_eq]
    exact hsegments.woven

end AgentHalo.Sql
