import AgentHalo.Base.Text

/-!
# Splitting a script into statements

`splitSqlStatements` cuts at the semicolons outside single quotes, where a doubled quote inside a literal is text. The
executor runs the pieces one after the other by calling itself, so what matters here is that a script of several
statements has only shorter ones: the pieces and the semicolons between them fit into the script.
-/

namespace AgentHalo.Sql

open Text (trimChars isWhitespace)

def normalizeCommand (sql : String) : String :=
  Text.toAsciiUppercase (Text.trim (Text.trimEndMatches ';' (Text.trim sql)))

/-- A finished piece, dropped when it is blank. -/
def finishStatement (cur : List Char) : List String :=
  if (trimChars cur).isEmpty then [] else [String.ofList (trimChars cur)]

/-- The scan, with the piece read so far. -/
def splitLoop : List Char → List Char → Bool → List String
  | [], cur, _ => finishStatement cur
  | ch :: rest, cur, inSingleQuote =>
    if ch = '\'' then
      match inSingleQuote, rest with
      -- an escaped quote inside a literal
      | true, '\'' :: rest => splitLoop rest (cur ++ ['\'', '\'']) true
      | inSingleQuote, rest => splitLoop rest (cur ++ ['\'']) (!inSingleQuote)
    else if ch = ';' ∧ !inSingleQuote then finishStatement cur ++ splitLoop rest [] inSingleQuote
    else splitLoop rest (cur ++ [ch]) inSingleQuote

def splitSqlStatements (sql : String) : List String := splitLoop sql.toList [] false

/-- The text between the first two single quotes. -/
def extractSingleQuotedArgument (sql : String) : Option String :=
  match sql.toList.dropWhile (· ≠ '\'') with
  | [] => none
  | _ :: rem =>
    if '\'' ∈ rem then some (String.ofList (rem.takeWhile (· ≠ '\''))) else none

/-! ### Pieces are shorter -/

theorem trimChars_length_le (cs : List Char) : (trimChars cs).length ≤ cs.length := by
  unfold trimChars
  rw [List.length_reverse]
  calc ((cs.dropWhile isWhitespace).reverse.dropWhile isWhitespace).length
      ≤ (cs.dropWhile isWhitespace).reverse.length := (List.dropWhile_suffix _).length_le
    _ = (cs.dropWhile isWhitespace).length := List.length_reverse
    _ ≤ cs.length := (List.dropWhile_suffix _).length_le

/-- The characters of some pieces and one separator for each. -/
def weight (pieces : List String) : Nat := (pieces.map fun piece => piece.toList.length + 1).sum

theorem weight_append (as bs : List String) : weight (as ++ bs) = weight as + weight bs := by
  unfold weight
  rw [List.map_append, List.sum_append]

theorem weight_finishStatement (cur : List Char) : weight (finishStatement cur) ≤ cur.length + 1 := by
  unfold finishStatement
  split_ifs with hblank
  · exact Nat.zero_le _
  · have hlen := trimChars_length_le cur
    simpa [weight] using hlen

theorem weight_splitLoop (cs cur : List Char) (inSingleQuote : Bool) :
    weight (splitLoop cs cur inSingleQuote) ≤ cs.length + cur.length + 1 := by
  fun_induction splitLoop cs cur inSingleQuote with
  | case1 cur q =>
    have hfinish := weight_finishStatement cur
    simpa using hfinish
  | case2 cur rest ih =>
    simp only [List.length_append, List.length_cons, List.length_nil] at ih ⊢
    omega
  | case3 cur q rest hother ih =>
    simp only [List.length_append, List.length_cons, List.length_nil] at ih ⊢
    omega
  | case4 ch rest cur q hquote hsemi ih =>
    have hfinish := weight_finishStatement cur
    rw [weight_append]
    simp only [List.length_cons, List.length_nil] at ih ⊢
    omega
  | case5 ch rest cur q hquote hsemi ih =>
    simp only [List.length_append, List.length_cons, List.length_nil] at ih ⊢
    omega

theorem le_weight {piece : String} {pieces : List String} (hmem : piece ∈ pieces) :
    piece.toList.length + pieces.length ≤ weight pieces := by
  induction pieces with
  | nil => cases hmem
  | cons p rest ih =>
    have hlen : rest.length ≤ weight rest := by
      unfold weight
      calc rest.length = (rest.map fun _ => 1).sum := by simp
        _ ≤ (rest.map fun piece => piece.toList.length + 1).sum := List.sum_le_sum fun _ _ => by omega
    have hcons : weight (p :: rest) = p.toList.length + 1 + weight rest := by
      unfold weight
      rw [List.map_cons, List.sum_cons]
    rw [hcons, List.length_cons]
    rcases List.mem_cons.mp hmem with rfl | hrest
    · omega
    · have hle := ih hrest
      omega

theorem length_lt_of_mem_split {sql stmt : String} (hmany : 1 < (splitSqlStatements sql).length)
    (hmem : stmt ∈ splitSqlStatements sql) : stmt.toList.length < sql.toList.length := by
  have hpiece := le_weight hmem
  have hall := weight_splitLoop sql.toList [] false
  unfold splitSqlStatements at hmany hpiece
  simp only [List.length_nil] at hall
  omega

theorem trim_length_le (s : String) : (Text.trim s).toList.length ≤ s.toList.length := by
  unfold Text.trim
  rw [String.toList_ofList]
  exact trimChars_length_le s.toList

end AgentHalo.Sql
