import AgentHalo.Sql.Pieces
import AgentHalo.Sql.ReadYourWrites

/-!
# Key literals in statements and in commands

A key is written as a string literal in two places that are read by two readers. `INSERT` and `SELECT … WHERE key = …`
go to the SQL parser, which takes a doubled quote inside the literal for one. `SHOW HISTORY` and `VERIFY` are read by
`extract_single_quoted_argument`, which takes what stands between the first two quotes. So the commands read a key up to
its first quote (`extract_literal`), and they mean the key of the statements exactly when it has none.
-/

namespace AgentHalo.Sql

open Engine Engine.NucleusDb
open Text (trimChars isWhitespace toAsciiUppercase startsWith)

variable {P : Platform}

/-! ### The texts -/

/-- The content of a string literal, quotes doubled. -/
def escapeQuotes (cs : List Char) : List Char := cs.flatMap fun c => if c = '\'' then ['\'', '\''] else [c]

def keyLiteral (key : String) : String := "'" ++ String.ofList (escapeQuotes key.toList) ++ "'"

def insertSql (key value : String) : String :=
  "INSERT INTO data (key, value) VALUES (" ++ keyLiteral key ++ (", " ++ value ++ ")")

def selectSql (key : String) : String := "SELECT key, value, type FROM data WHERE key = " ++ keyLiteral key

def historySql (key : String) : String := "SHOW HISTORY " ++ keyLiteral key

def verifySql (key : String) : String := "VERIFY " ++ keyLiteral key

def insertOf (key : String) (expr : Expr) : Insert where
  table := .tableName [.identifier ⟨tableName⟩]
  columns := [⟨colKey⟩, ⟨colValue⟩]
  source := some ⟨.values [[.value (.string key), expr]]⟩
  assignments := []

/-- The parser delivers the key with its quotes single again. -/
structure Unescapes (env : SqlEnv) (key value : String) (expr : Expr) : Prop where
  insert : env.parseSql (insertSql key value) = .ok [.insert (insertOf key expr)]
  select : env.parseSql (selectSql key) = .ok [.query (selectKey key)]

/-! ### What the commands answer for a key -/

namespace SqlExecutor

def historyOf (ex : SqlExecutor P) (key : String) : SqlResult :=
  let columns := ["key", "index", "value", "note"]
  match ex.db.keymap.get key with
  | none => .rows columns []
  | some idx =>
    .rows columns [[key, toString idx, toString (ex.visibleCell idx),
      "per-commit key history is not available in CommitEntry v1"]]

def verificationOf (ex : SqlExecutor P) (key : String) : Option SqlResult :=
  if !ex.pendingWrites.isEmpty then some (.error "VERIFY requires COMMIT first when pending writes exist")
  else
    match ex.db.keymap.get key with
    | none => some (.error ("Unknown key '" ++ key ++ "'"))
    | some idx =>
      match ex.db.query idx with
      | .absent => some (.error ("No value for key '" ++ key ++ "'"))
      | .panicked => none
      | .found value proof root =>
        (ex.db.verifyQuery idx value proof root).map fun ok =>
          .rows ["key", "index", "value", "verified", "root"]
            [[key, toString idx, toString value, toString ok, Text.hexEncode root.toList]]

theorem showKeyHistory_of_extract (ex : SqlExecutor P) {sql key : String}
    (h : extractSingleQuotedArgument sql = some key) : ex.showKeyHistory sql = ex.historyOf key := by
  unfold showKeyHistory
  rw [h]
  rfl

theorem verifyKey_of_extract (ex : SqlExecutor P) {sql key : String} (h : extractSingleQuotedArgument sql = some key) :
    ex.verifyKey sql = ex.verificationOf key := by
  unfold verifyKey
  rw [h]
  rfl

theorem historyOf_ne {ex : SqlExecutor P} {key other : String} (hkey : (ex.db.keymap.get key).isSome) (hne : other ≠ key) :
    ex.historyOf other ≠ ex.historyOf key := by
  obtain ⟨idx, hidx⟩ := Option.isSome_iff_exists.mp hkey
  unfold historyOf
  rw [hidx]
  intro h
  cases hother : ex.db.keymap.get other with
  | none =>
    rw [hother] at h
    cases h
  | some idx' =>
    rw [hother] at h
    have hrows := (SqlResult.rows.inj h).2
    exact hne (List.cons.inj (List.cons.inj hrows).1).1

end SqlExecutor

/-! ### Reading a literal -/

theorem takeWhile_escapeQuotes (cs back : List Char) :
    (escapeQuotes cs ++ '\'' :: back).takeWhile (· ≠ '\'') = cs.takeWhile (· ≠ '\'') := by
  induction cs with
  | nil => simp [escapeQuotes]
  | cons c rest ih =>
    by_cases hc : c = '\''
    · simp [escapeQuotes, hc]
    · have hcons : escapeQuotes (c :: rest) = c :: escapeQuotes rest := by simp [escapeQuotes, hc]
      rw [hcons, List.cons_append, List.takeWhile_cons_of_pos (by simpa using hc),
        List.takeWhile_cons_of_pos (by simpa using hc), ih]

theorem extract_literal {front : String} (hfront : '\'' ∉ front.toList) (key : String) :
    extractSingleQuotedArgument (front ++ keyLiteral key) =
      some (String.ofList (key.toList.takeWhile (· ≠ '\''))) := by
  have htext : (front ++ keyLiteral key).toList = front.toList ++ '\'' :: (escapeQuotes key.toList ++ ['\'']) := by
    simp [keyLiteral]
  have hdrop : (front ++ keyLiteral key).toList.dropWhile (· ≠ '\'') = '\'' :: (escapeQuotes key.toList ++ ['\'']) := by
    rw [htext, List.dropWhile_append_of_pos fun c hc => by simpa using fun heq : c = '\'' => hfront (heq ▸ hc)]
    simp
  unfold extractSingleQuotedArgument
  rw [hdrop]
  dsimp only
  rw [if_pos (by simp), takeWhile_escapeQuotes]

theorem takeWhile_ne_iff (key : String) :
    String.ofList (key.toList.takeWhile (· ≠ '\'')) = key ↔ '\'' ∉ key.toList := by
  rw [← String.toList_inj, String.toList_ofList, List.takeWhile_eq_self_iff]
  constructor
  · intro h hmem
    have hquote := h _ hmem
    simp at hquote
  · intro h c hc
    simpa using fun heq : c = '\'' => h (heq ▸ hc)

/-! ### Each text is one statement -/

theorem WholeFrom.append {st : LitState} {a b : List Char} (ha : WholeFrom st a)
    (hb : WholeFrom (a.foldl LitState.step st) b) : WholeFrom st (a ++ b) := by
  intro front back heq
  obtain ⟨mid, hfront, hmid⟩ | ⟨mid, ha', hmid⟩ := List.append_eq_append_iff.mp heq
  · rw [hfront, List.foldl_append]
    exact hb mid back hmid
  · cases mid with
    | nil =>
      rw [List.append_nil] at ha'
      rw [← ha']
      exact hb [] back (by simpa using hmid.symm)
    | cons c mid =>
      obtain ⟨rfl, -⟩ := List.cons.inj hmid
      exact ha front mid ha'

theorem wholeFrom_of_notMem {text : List Char} (h : ';' ∉ text) (st : LitState) : WholeFrom st text := by
  rintro front back rfl
  exact absurd (List.mem_append_right _ List.mem_cons_self) h

theorem foldl_code {text : List Char} (h : '\'' ∉ text) : text.foldl LitState.step .code = .code := by
  induction text with
  | nil => rfl
  | cons c rest ih =>
    obtain ⟨hc, hrest⟩ := List.ne_and_not_mem_of_not_mem_cons h
    rw [List.foldl_cons, LitState.step, if_neg hc.symm]
    exact ih hrest

theorem foldl_escapeQuotes (cs : List Char) : (escapeQuotes cs).foldl LitState.step .literal = .literal := by
  induction cs with
  | nil => rfl
  | cons c rest ih =>
    by_cases hc : c = '\''
    · rw [hc]
      exact ih
    · have hcons : escapeQuotes (c :: rest) = c :: escapeQuotes rest := by simp [escapeQuotes, hc]
      rw [hcons, List.foldl_cons, LitState.step, if_neg hc]
      exact ih

theorem wholeFrom_escapeQuotes (cs : List Char) : WholeFrom .literal (escapeQuotes cs) := by
  induction cs with
  | nil => exact wholeFrom_of_notMem (by simp [escapeQuotes]) _
  | cons c rest ih =>
    have hcons : escapeQuotes (c :: rest) = escapeQuotes [c] ++ escapeQuotes rest := by simp [escapeQuotes]
    rw [hcons]
    refine WholeFrom.append ?_ (by rwa [foldl_escapeQuotes])
    intro front back heq
    -- one character, or two quotes
    by_cases hc : c = '\''
    · have hmem : ';' ∈ escapeQuotes [c] := heq ▸ List.mem_append_right _ List.mem_cons_self
      simp [escapeQuotes, hc] at hmem
    · have hsingle : [c] = front ++ ';' :: back := by simpa [escapeQuotes, hc] using heq
      obtain rfl : front = [] := by
        cases front with
        | nil => rfl
        | cons _ _ => simp at hsingle
      rfl

theorem keyLiteral_toList (key : String) : (keyLiteral key).toList = '\'' :: (escapeQuotes key.toList ++ ['\'']) := by
  simp [keyLiteral]

theorem compact {sql : String} {first last : Char} {rest front : List Char} (hfirst : sql.toList = first :: rest)
    (hlast : sql.toList = front ++ [last]) (hne : rest ≠ []) (hwhite : isWhitespace first = false)
    (hwhite' : isWhitespace last = false) (hsemi : last ≠ ';') :
    Text.trim sql = sql ∧ normalizeCommand sql = toAsciiUppercase sql := by
  have hsplit : sql.toList = first :: front.tail ++ [last] := by
    cases front with
    | nil =>
      rw [hlast] at hfirst
      exact absurd (List.cons.inj hfirst).2.symm hne
    | cons c front =>
      rw [hlast, List.cons_append] at hfirst
      rw [hlast, (List.cons.inj hfirst).1]
      rfl
  have hone : trimChars [last] = [last] := by simp [trimChars, hwhite']
  have htrim : Text.trim sql = sql := by
    unfold Text.trim
    rw [hsplit, Text.trimChars_cons_append hwhite _ hone (by simp), ← hsplit, String.ofList_toList]
  have hkeep : Text.trimEndMatches ';' sql = sql := by
    unfold Text.trimEndMatches
    rw [hlast, List.reverse_append, List.reverse_singleton, List.singleton_append,
      List.dropWhile_cons_of_neg (by simpa using hsemi), List.reverse_cons, List.reverse_reverse, ← hlast,
      String.ofList_toList]
  refine ⟨htrim, ?_⟩
  unfold normalizeCommand
  rw [htrim, hkeep, htrim]

theorem toAsciiUppercase_append (s t : String) :
    toAsciiUppercase (s ++ t) = toAsciiUppercase s ++ toAsciiUppercase t := by
  simp [toAsciiUppercase]

namespace SqlExecutor

theorem executeCustom_of_quote (env : SqlEnv) (ex : SqlExecutor P) {sql : String}
    (h : '\'' ∈ (normalizeCommand sql).toList) : ex.executeCustom env sql =
      if startsWith (normalizeCommand sql) "SHOW HISTORY " then some (some (ex.showKeyHistory sql), ex)
      else if startsWith (normalizeCommand sql) "VERIFY " then some (ex.verifyKey sql, ex)
      else none := by
  unfold executeCustom
  split
  case h_11 => rfl
  all_goals
    rename_i hword
    rw [hword] at h
    simp at h

end SqlExecutor

/-- A text of words, a key literal and a rest, with nothing to trim at its ends. -/
structure KeyText (front key back sql : String) : Prop where
  text : sql = front ++ keyLiteral key ++ back
  first : ∃ c rest, front.toList = c :: rest ∧ isWhitespace c = false
  last : ∃ init c, '\'' :: back.toList = init ++ [c] ∧ isWhitespace c = false ∧ c ≠ ';'
  quote : '\'' ∉ front.toList
  semicolon : ';' ∉ front.toList
  back : WholeFrom .quote back.toList

variable {env : SqlEnv}

namespace KeyText

variable {front key back sql : String}

theorem toList_eq (h : KeyText front key back sql) :
    sql.toList = front.toList ++ '\'' :: (escapeQuotes key.toList ++ '\'' :: back.toList) := by
  rw [h.text, String.toList_append, String.toList_append, keyLiteral_toList]
  simp

theorem ne_empty (h : KeyText front key back sql) : sql ≠ "" := by
  intro hempty
  have htext := h.toList_eq
  rw [hempty] at htext
  simp at htext

theorem whole (h : KeyText front key back sql) : Whole sql.toList := by
  have hopen : (front.toList ++ ['\'']).foldl LitState.step .code = .literal := by
    rw [List.foldl_append, foldl_code h.quote]
    rfl
  have hsplit : sql.toList = (front.toList ++ ['\'']) ++ (escapeQuotes key.toList ++ (['\''] ++ back.toList)) := by
    rw [h.toList_eq]
    simp
  rw [hsplit]
  refine WholeFrom.append (wholeFrom_of_notMem (by simp [h.semicolon]) _) ?_
  rw [hopen]
  refine WholeFrom.append (wholeFrom_escapeQuotes _) ?_
  rw [foldl_escapeQuotes]
  exact WholeFrom.append (wholeFrom_of_notMem (by simp) _) h.back

theorem compact (h : KeyText front key back sql) :
    Text.trim sql = sql ∧ normalizeCommand sql = toAsciiUppercase sql := by
  obtain ⟨first, rest, hfirst, hwhite⟩ := h.first
  obtain ⟨init, last, hlast, hwhite', hsemi⟩ := h.last
  have hback : sql.toList = (front.toList ++ '\'' :: (escapeQuotes key.toList ++ init)) ++ [last] := by
    rw [h.toList_eq, hlast]
    simp
  have hfront : sql.toList = first :: (rest ++ '\'' :: (escapeQuotes key.toList ++ '\'' :: back.toList)) := by
    rw [h.toList_eq, hfirst, List.cons_append]
  exact Sql.compact hfront hback (by simp) hwhite hwhite' hsemi

theorem normalizeCommand_eq (h : KeyText front key back sql) :
    normalizeCommand sql = toAsciiUppercase front ++ toAsciiUppercase (keyLiteral key ++ back) := by
  rw [h.compact.2, h.text, String.append_assoc, toAsciiUppercase_append]

theorem quote_mem (h : KeyText front key back sql) : '\'' ∈ (normalizeCommand sql).toList := by
  rw [h.compact.2, toAsciiUppercase, String.toList_ofList, h.toList_eq]
  exact List.mem_map.mpr ⟨'\'', by simp, by decide⟩

theorem execute_eq (h : KeyText front key back sql) (env : SqlEnv) (ex : SqlExecutor P) :
    SqlExecutor.execute env sql ex = SqlExecutor.executeSingle env sql ex := by
  have htrim := h.compact.1
  have hchars : trimChars sql.toList = sql.toList := by
    rw [← String.toList_ofList (l := trimChars sql.toList)]
    exact congrArg String.toList htrim
  have hone := splitSqlStatements_of_whole h.whole hchars h.ne_empty
  exact (SqlExecutor.execute_of_single env ex htrim (by simpa using h.ne_empty) (by rw [hone]; simp)).1

theorem execute_parsed (h : KeyText front key back sql) {stmt : Statement} (hparse : env.parseSql sql = .ok [stmt])
    (hhistory : startsWith (normalizeCommand sql) "SHOW HISTORY " = false)
    (hverify : startsWith (normalizeCommand sql) "VERIFY " = false) (ex : SqlExecutor P) :
    SqlExecutor.execute env sql ex = SqlExecutor.executeStatement env stmt ex := by
  have hcustom : ex.executeCustom env sql = none := by
    rw [SqlExecutor.executeCustom_of_quote env ex h.quote_mem, if_neg (by simp [hhistory]), if_neg (by simp [hverify])]
  rw [h.execute_eq]
  unfold SqlExecutor.executeSingle
  rw [hcustom, hparse]
  dsimp only
  rw [Run.loop_singleton]

end KeyText

theorem keyText_of_words {front : String} (key : String)
    (hfirst : ∃ c rest, front.toList = c :: rest ∧ isWhitespace c = false) (hquote : '\'' ∉ front.toList)
    (hsemi : ';' ∉ front.toList) : KeyText front key "" (front ++ keyLiteral key) where
  text := by simp
  first := hfirst
  last := ⟨[], '\'', rfl, by decide, by decide⟩
  quote := hquote
  semicolon := hsemi
  back := wholeFrom_of_notMem (by simp) _

theorem keyText_history (key : String) : KeyText "SHOW HISTORY " key "" (historySql key) :=
  keyText_of_words key ⟨'S', "HOW HISTORY ".toList, by simp, by decide⟩ (by simp) (by simp)

theorem keyText_verify (key : String) : KeyText "VERIFY " key "" (verifySql key) :=
  keyText_of_words key ⟨'V', "ERIFY ".toList, by simp, by decide⟩ (by simp) (by simp)

theorem keyText_select (key : String) :
    KeyText "SELECT key, value, type FROM data WHERE key = " key "" (selectSql key) :=
  keyText_of_words key ⟨'S', "ELECT key, value, type FROM data WHERE key = ".toList, by simp, by decide⟩ (by simp)
    (by simp)

variable {value : String}

theorem keyText_insert (key : String) (hvalue : Whole value.toList) :
    KeyText "INSERT INTO data (key, value) VALUES (" key (", " ++ value ++ ")") (insertSql key value) where
  text := rfl
  first := ⟨'I', "NSERT INTO data (key, value) VALUES (".toList, by simp, by decide⟩
  last := ⟨'\'' :: (", " ++ value).toList, ')', by simp, by decide, by decide⟩
  quote := by simp
  semicolon := by simp
  back := by
    rw [String.toList_append, String.toList_append]
    exact WholeFrom.append (WholeFrom.append (wholeFrom_of_notMem (by simp) _) (by simpa [LitState.step] using hvalue))
      (wholeFrom_of_notMem (by simp) _)

/-! ### One key -/

/-- The key the commands read from the literal. -/
def commandKey (key : String) : String := String.ofList (key.toList.takeWhile (· ≠ '\''))

theorem extract_history (key : String) : extractSingleQuotedArgument (historySql key) = some (commandKey key) :=
  extract_literal (keyText_history key).quote key

theorem extract_verify (key : String) : extractSingleQuotedArgument (verifySql key) = some (commandKey key) :=
  extract_literal (keyText_verify key).quote key

variable {expr : Expr}

namespace SqlExecutor

theorem execute_history (env : SqlEnv) (ex : SqlExecutor P) (key : String) :
    execute env (historySql key) ex = (some (ex.historyOf (commandKey key)), ex) := by
  have hstart : startsWith (normalizeCommand (historySql key)) "SHOW HISTORY " = true := by
    rw [(keyText_history key).normalizeCommand_eq,
      show toAsciiUppercase "SHOW HISTORY " = "SHOW HISTORY " by decide, Text.startsWith_append]
  have hcustom : ex.executeCustom env (historySql key) = some (some (ex.historyOf (commandKey key)), ex) := by
    rw [executeCustom_of_quote env ex (keyText_history key).quote_mem, if_pos hstart,
      showKeyHistory_of_extract ex (extract_history key)]
  rw [(keyText_history key).execute_eq]
  unfold executeSingle
  rw [hcustom]

theorem execute_verify (env : SqlEnv) (ex : SqlExecutor P) (key : String) :
    execute env (verifySql key) ex = (ex.verificationOf (commandKey key), ex) := by
  have hupper := (keyText_verify key).normalizeCommand_eq
  rw [show toAsciiUppercase "VERIFY " = "VERIFY " by decide] at hupper
  have hstart : startsWith (normalizeCommand (verifySql key)) "VERIFY " = true := by
    rw [hupper, Text.startsWith_append]
  have hother : startsWith (normalizeCommand (verifySql key)) "SHOW HISTORY " = false := by
    rw [hupper]
    simp [startsWith, List.isPrefixOf]
  have hcustom : ex.executeCustom env (verifySql key) = some (ex.verificationOf (commandKey key), ex) := by
    rw [executeCustom_of_quote env ex (keyText_verify key).quote_mem, if_neg (by simp [hother]), if_pos hstart,
      verifyKey_of_extract ex (extract_verify key)]
  rw [(keyText_verify key).execute_eq]
  unfold executeSingle
  rw [hcustom]

theorem execute_select {key : String} (h : Unescapes env key value expr)
    (ex : SqlExecutor P) : execute env (selectSql key) ex = (some (ex.shownRow key), ex) := by
  have hupper := (keyText_select key).normalizeCommand_eq
  rw [show toAsciiUppercase "SELECT key, value, type FROM data WHERE key = " =
    "SELECT KEY, VALUE, TYPE FROM DATA WHERE KEY = " by decide] at hupper
  rw [(keyText_select key).execute_parsed h.select (by rw [hupper]; simp [startsWith, List.isPrefixOf])
    (by rw [hupper]; simp [startsWith, List.isPrefixOf])]
  unfold executeStatement
  dsimp only
  rw [executeSelect_selectKey]

theorem execute_insert {key : String} (h : Unescapes env key value expr)
    (hvalue : Whole value.toList) (ex : SqlExecutor P) :
    execute env (insertSql key value) ex = answered (ex.executeInsert env (insertOf key expr)) := by
  have hupper := (keyText_insert key hvalue).normalizeCommand_eq
  rw [show toAsciiUppercase "INSERT INTO data (key, value) VALUES (" = "INSERT INTO DATA (KEY, VALUE) VALUES (" by
    decide] at hupper
  rw [(keyText_insert key hvalue).execute_parsed h.insert (by rw [hupper]; simp [startsWith, List.isPrefixOf])
    (by rw [hupper]; simp [startsWith, List.isPrefixOf])]
  rfl

end SqlExecutor
variable {request : TypedInsert P} {ex ex' : SqlExecutor P} {message : String}

theorem insertValue_key (h : insertValue P key expr = .ok request) : request.key = key := by
  have hstring (r : TypedInsert P) (hr : insertString P key expr = .ok r) : r.key = key := by
    unfold insertString at hr
    split at hr
    · obtain rfl := Except.ok.inj hr
      rfl
    · cases hr
  unfold insertValue at h
  split at h
  · obtain rfl := Except.ok.inj h
    rfl
  · split at h
    · obtain rfl := Except.ok.inj h
      rfl
    · obtain rfl := Except.ok.inj h
      rfl
    · split at h
      · obtain rfl := Except.ok.inj h
        rfl
      · obtain rfl := Except.ok.inj h
        rfl
      · obtain rfl := Except.ok.inj h
        rfl
      · exact hstring request h
    · exact hstring request h

theorem insertRequest_key (h : SqlExecutor.insertRequest P (insertOf key expr) = some request) : request.key = key := by
  have hextract := extractInsertTyped_pair P key expr
  have hcolumns : extractInsertTyped P ⟨.values [[.value (.string key), expr]]⟩ [⟨colKey⟩, ⟨colValue⟩] =
      insertValue P key expr := hextract
  unfold SqlExecutor.insertRequest at h
  split_ifs at h with htarget
  dsimp only [insertOf, Option.bind_some] at h
  rw [hcolumns] at h
  cases hvalue : insertValue P key expr with
  | error e =>
    rw [hvalue] at h
    cases h
  | ok r =>
    rw [hvalue] at h
    obtain rfl := Option.some.inj h
    exact insertValue_key hvalue

variable (P) in
/-- The statements and the commands mean one key by its literal: an `INSERT` that is accepted registers it, `SELECT`
shows its row, and the two commands answer for it, in every state of the executor. -/
structure SameKey (env : SqlEnv) (key value : String) : Prop where
  inserted : ∀ (ex ex' : SqlExecutor P) message,
    SqlExecutor.execute env (insertSql key value) ex = (some (.ok message), ex') →
      ex'.db.keymap = (ex.db.keymap.getOrCreate key).2
  selected : ∀ ex : SqlExecutor P, SqlExecutor.execute env (selectSql key) ex = (some (ex.shownRow key), ex)
  history : ∀ ex : SqlExecutor P, SqlExecutor.execute env (historySql key) ex = (some (ex.historyOf key), ex)
  verified : ∀ ex : SqlExecutor P, SqlExecutor.execute env (verifySql key) ex = (ex.verificationOf key, ex)

theorem keymap_of_execute_insert (h : Unescapes env key value expr) (hvalue : Whole value.toList)
    (hinsert : SqlExecutor.execute env (insertSql key value) ex = (some (.ok message), ex')) :
    ex'.db.keymap = (ex.db.keymap.getOrCreate key).2 := by
  rw [SqlExecutor.execute_insert h hvalue] at hinsert
  obtain ⟨hok, hafter⟩ := Prod.mk.inj hinsert
  rw [Option.some.injEq] at hok
  cases hrequest : SqlExecutor.insertRequest P (insertOf key expr) with
  | none =>
    obtain ⟨message', hrun⟩ := SqlExecutor.executeInsert_of_none env ex hrequest
    rw [hrun] at hok
    cases hok
  | some request =>
    have hkeymap := (SqlExecutor.inserted_of_ok hrequest hok).keymap
    rw [insertRequest_key hrequest] at hkeymap
    rw [← hafter]
    exact hkeymap

theorem quote_notMem_of_sameKey (h : SameKey P env key value) (hregistered : (ex.db.keymap.get key).isSome) :
    '\'' ∉ key.toList := by
  rw [← takeWhile_ne_iff]
  by_contra hne
  have hanswer := h.history ex
  rw [SqlExecutor.execute_history] at hanswer
  exact SqlExecutor.historyOf_ne hregistered hne (Option.some.inj (Prod.mk.inj hanswer).1)

theorem isSome_of_execute_insert (h : Unescapes env key value expr) (hvalue : Whole value.toList)
    (hinsert : SqlExecutor.execute env (insertSql key value) ex = (some (.ok message), ex')) :
    (ex'.db.keymap.get key).isSome := by
  rw [keymap_of_execute_insert h hvalue hinsert, Store.KeyMap.get_getOrCreate_self]
  rfl

/-- **A key literal means one key in every command exactly when the key has no quote.** -/
theorem sameKey_iff {env : SqlEnv} {key value : String} {expr : Expr} (hparse : Unescapes env key value expr)
    (hvalue : Whole value.toList) {ex ex' : SqlExecutor P} {message : String}
    (hinsert : SqlExecutor.execute env (insertSql key value) ex = (some (.ok message), ex')) :
    SameKey P env key value ↔ '\'' ∉ key.toList := by
  constructor
  · exact fun h => quote_notMem_of_sameKey h (isSome_of_execute_insert hparse hvalue hinsert)
  · intro hquote
    have hcommand : commandKey key = key := (takeWhile_ne_iff key).mpr hquote
    constructor
    · exact fun ex ex' message h => keymap_of_execute_insert hparse hvalue h
    · exact fun ex => SqlExecutor.execute_select hparse ex
    · intro ex
      rw [SqlExecutor.execute_history, hcommand]
    · intro ex
      rw [SqlExecutor.execute_verify, hcommand]

section Five

/-- A parser for the two statements on a key, with the value 5. -/
def fiveEnv (key : String) : SqlEnv where
  parseSql sql :=
    if startsWith sql "INSERT " then .ok [.insert (insertOf key (.value (.number "5")))]
    else if startsWith sql "SELECT " then .ok [.query (selectKey key)]
    else .error "sql parser error"
  rfc3339 _ := some "1970-01-01T00:00:00+00:00"
  debugCommitError _ := "EmptyWitnessSet"
  clock _ := 0

theorem whole_five : Whole "5".toList := wholeFrom_of_notMem (by simp) _

theorem unescapes_five (key : String) : Unescapes (fiveEnv key) key "5" (.value (.number "5")) where
  insert := by
    have hinsert : startsWith (insertSql key "5") "INSERT " = true := by
      rw [startsWith, (keyText_insert key whole_five).toList_eq]
      simp [List.isPrefixOf]
    unfold fiveEnv
    dsimp only
    rw [hinsert, if_pos rfl]
  select := by
    have hinsert : startsWith (selectSql key) "INSERT " = false := by
      rw [startsWith, (keyText_select key).toList_eq]
      simp [List.isPrefixOf]
    have hselect : startsWith (selectSql key) "SELECT " = true := by
      rw [startsWith, (keyText_select key).toList_eq]
      simp [List.isPrefixOf]
    unfold fiveEnv
    dsimp only
    rw [hinsert, hselect, if_neg Bool.false_ne_true, if_pos rfl]

theorem insertRequest_five (key : String) : SqlExecutor.insertRequest .reference
    (insertOf key (.value (.number "5"))) = some (.legacyU64 key 5) := by
  have htarget : insertTargetsData (insertOf key (.value (.number "5"))) = true := Text.eqIgnoreAsciiCase_self tableName
  have hparse : Text.parseU64 "5" = some 5 := by
    unfold Text.parseU64
    simp only [String.reduceToList]
    decide
  have hextract := extractInsertTyped_pair .reference key (.value (.number "5"))
  dsimp only [insertValue, tryExtractVector] at hextract
  rw [hparse] at hextract
  have hcolumns : extractInsertTyped .reference ⟨.values [[.value (.string key), .value (.number "5")]]⟩
      [⟨colKey⟩, ⟨colValue⟩] = .ok (.legacyU64 key 5) := hextract
  unfold SqlExecutor.insertRequest
  rw [htarget, if_pos (by rfl)]
  exact congrArg Except.toOption hcolumns

theorem exists_insert_five (key : String) : ∃ message ex',
    SqlExecutor.execute (fiveEnv key) (insertSql key "5") SqlExecutor.freshExecutor = (some (.ok message), ex') := by
  obtain ⟨message, hrun⟩ :=
    SqlExecutor.executeInsert_of_legacy (fiveEnv key) SqlExecutor.freshExecutor (insertRequest_five key)
  refine ⟨message, (SqlExecutor.freshExecutor.executeInsert (fiveEnv key) (insertOf key (.value (.number "5")))).2, ?_⟩
  rw [SqlExecutor.execute_insert (unescapes_five key) whole_five]
  unfold SqlExecutor.answered
  rw [hrun]

theorem sameKey_iff_semicolon :
    SameKey .reference (fiveEnv "a;b") "a;b" "5" ↔ '\'' ∉ "a;b".toList := by
  obtain ⟨message, ex', hinsert⟩ := exists_insert_five "a;b"
  exact sameKey_iff (unescapes_five "a;b") whole_five hinsert

/-- The key `it's` is inserted and shown, and the command for its history looks up the key `it`. -/
theorem not_sameKey_quote : Unescapes (fiveEnv "it's") "it's" "5" (.value (.number "5")) ∧
    extractSingleQuotedArgument (historySql "it's") = some "it" ∧
      extractSingleQuotedArgument (verifySql "it's") = some "it" ∧
        ¬ SameKey .reference (fiveEnv "it's") "it's" "5" := by
  have hcommand : commandKey "it's" = "it" := by decide
  refine ⟨unescapes_five "it's", ?_, ?_, ?_⟩
  · rw [extract_history, hcommand]
  · rw [extract_verify, hcommand]
  · intro h
    obtain ⟨message, ex', hinsert⟩ := exists_insert_five "it's"
    have hregistered := isSome_of_execute_insert (unescapes_five "it's") whole_five hinsert
    exact quote_notMem_of_sameKey h hregistered (by simp)

end Five

end AgentHalo.Sql
