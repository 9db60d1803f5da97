import AgentHalo.Store.Blobs
import AgentHalo.Store.Typed

/-!
# SQL syntax and what the executor reads from it

The parser is `sqlparser`; its trees appear here down to the parts the executor looks at. A constructor `other` stands
for every variant that the executor treats alike. The second half holds the readers: literals, the key predicate of a
`WHERE` clause, projections, the row of an `INSERT`, the value of an `UPDATE` and the arguments of a vector search.
-/

namespace AgentHalo.Sql

open Store (TypeTag TypedValue DistanceMetric inferFromString)

/-! ### Syntax trees -/

structure Ident where
  value : String
deriving DecidableEq, Repr

inductive ObjectNamePart where
  | identifier (id : Ident)
  | function
deriving DecidableEq, Repr

def ObjectNamePart.asIdent : ObjectNamePart → Option Ident
  | .identifier id => some id
  | .function => none

abbrev ObjectName := List ObjectNamePart

inductive Value where
  | number (n : String)
  | boolean (b : Bool)
  | null
  /-- Any of the string literal forms, with its content. -/
  | string (s : String)
  | other
deriving DecidableEq, Repr

def Value.intoString : Value → Option String
  | .string s => some s
  | _ => none

inductive BinaryOperator where
  | eq
  | and
  | or
  | other
deriving DecidableEq, Repr

inductive UnaryOperator where
  | minus
  | other
deriving DecidableEq, Repr

mutual

inductive Expr where
  | value (v : Value)
  | identifier (id : Ident)
  | compoundIdentifier (parts : List Ident)
  /-- A call, with the name as it is displayed. -/
  | function (name : String) (args : FunctionArguments)
  | unaryOp (op : UnaryOperator) (expr : Expr)
  | nested (inner : Expr)
  | binaryOp (left : Expr) (op : BinaryOperator) (right : Expr)
  | like (negated any : Bool) (expr pattern : Expr)
  | ilike (negated any : Bool) (expr pattern : Expr)
  | other

inductive FunctionArg where
  | unnamed (expr : Expr)
  | other

inductive FunctionArguments where
  | list (args : List FunctionArg)
  | other

end

inductive SelectItem where
  | wildcard
  | qualifiedWildcard
  | unnamedExpr (expr : Expr)
  | exprWithAlias (expr : Expr)
  | other

inductive TableFactor where
  | table (name : ObjectName)
  | other

structure TableWithJoins where
  relation : TableFactor
  hasJoins : Bool

structure Select where
  from_ : List TableWithJoins
  projection : List SelectItem
  selection : Option Expr

inductive SetExpr where
  | select (s : Select)
  | values (rows : List (List Expr))
  | other

structure Query where
  body : SetExpr

inductive AssignmentTarget where
  | columnName (name : ObjectName)
  | tuple

structure Assignment where
  target : AssignmentTarget
  value : Expr

inductive TableObject where
  | tableName (name : ObjectName)
  | tableFunction

structure Insert where
  table : TableObject
  columns : List Ident
  source : Option Query
  assignments : List Assignment

structure Delete where
  from_ : List TableWithJoins
  selection : Option Expr

inductive Statement where
  | query (q : Query)
  | insert (ins : Insert)
  | commit
  | update (table : TableWithJoins) (assignments : List Assignment) (selection : Option Expr)
  | delete (del : Delete)
  | createTable (name : ObjectName)
  | other

/-! ### Names -/

def tableName : String := "data"
def colKey : String := "key"
def colValue : String := "value"
def colType : String := "type"

/-- The last part of a name is an identifier with this text, up to case. -/
def lastIdentIs (name : ObjectName) (expected : String) : Bool :=
  match name.getLast?.bind ObjectNamePart.asIdent with
  | some id => Text.eqIgnoreAsciiCase id.value expected
  | none => false

def objectNameIsData (name : ObjectName) : Bool := lastIdentIs name tableName

def tableFactorIsData : TableFactor → Bool
  | .table name => objectNameIsData name
  | .other => false

def tableWithJoinsIsData (t : TableWithJoins) : Bool := !t.hasJoins && tableFactorIsData t.relation

def insertTargetsData (ins : Insert) : Bool :=
  match ins.table with
  | .tableName name => objectNameIsData name
  | .tableFunction => false

def deleteTargetsData (del : Delete) : Bool :=
  match del.from_ with
  | [table] => tableWithJoinsIsData table
  | _ => false

def identIs (ident : Ident) (expected : String) : Bool := Text.eqIgnoreAsciiCase ident.value expected

/-! ### Literals -/

def exprAsString : Expr → Except String String
  | .value v =>
    match v.intoString with
    | some s => .ok s
    | none => .error "Expected string literal"
  | .identifier id => .ok id.value
  | _ => .error "Expected string literal"

def exprAsU64 : Expr → Except String UInt64
  | .value (.number n) =>
    match Text.parseU64 n with
    | some u => .ok u
    | none => .error ("Invalid INTEGER literal '" ++ n ++ "'")
  | .value v =>
    match v.intoString.bind Text.parseU64 with
    | some u => .ok u
    | none => .error "Expected INTEGER literal"
  | _ => .error "Expected INTEGER literal"

def exprAsF64 (P : Platform) : Expr → Except String P.f64.F
  | .value (.number n) =>
    match P.f64.parse n with
    | some f => .ok f
    | none => .error ("Invalid float literal '" ++ n ++ "'")
  | .unaryOp .minus inner => (exprAsF64 P inner).map P.f64.neg
  | _ => .error "Expected numeric literal"

/-- The components of a vector call; one that is not numeric spoils the whole. -/
def vectorDims (P : Platform) : List FunctionArg → Option (List P.f64.F)
  | [] => some []
  | .unnamed e :: rest =>
    match exprAsF64 P e, vectorDims P rest with
    | .ok f, some dims => some (f :: dims)
    | _, _ => none
  | .other :: _ => none

def tryExtractVector (P : Platform) : Expr → Option (List P.f64.F)
  | .function name args =>
    let name := Text.toAsciiUppercase name
    if name = "VECTOR" ∨ name = "VEC" ∨ name = "EMBEDDING" then
      match args with
      | .list args =>
        match vectorDims P args with
        | some [] => none
        | dims => dims
      | .other => none
    else none
  | _ => none

/-! ### Predicates on the key -/

def isKeyExpr : Expr → Bool
  | .identifier id => identIs id colKey
  | .compoundIdentifier parts =>
    match parts.getLast? with
    | some p => identIs p colKey
    | none => false
  | _ => false

def likeMatch (value pattern : String) : Bool :=
  if pattern = "%" then true
  else
    match Text.stripSuffix '%' pattern with
    | some stem => Text.startsWith value stem
    | none => value == pattern

/-- `LIKE` and `ILIKE` differ in their name and in the case folding of both sides. -/
def evalLike (name : String) (fold : String → String) (negated any : Bool) (expr pattern : Expr) (key : String) :
    Except String Bool :=
  if any then .error (name ++ " ANY is not supported")
  else if !isKeyExpr expr then .error (name ++ " is only supported on 'key'")
  else
    match exprAsString pattern with
    | .error e => .error e
    | .ok pat =>
      let isMatch := likeMatch (fold key) (fold pat)
      .ok (if negated then !isMatch else isMatch)

def evalKeyPredicate (key : String) : Expr → Except String Bool
  | .nested inner => evalKeyPredicate key inner
  | .binaryOp left .eq right =>
    if isKeyExpr left then (exprAsString right).map (key == ·)
    else if isKeyExpr right then (exprAsString left).map (key == ·)
    else .error "Only predicates on 'key' are supported"
  -- `&&` and `||` do not evaluate the right side once the left decides
  | .binaryOp left .and right =>
    match evalKeyPredicate key left with
    | .ok true => evalKeyPredicate key right
    | r => r
  | .binaryOp left .or right =>
    match evalKeyPredicate key left with
    | .ok false => evalKeyPredicate key right
    | r => r
  | .binaryOp _ .other _ => .error "Unsupported WHERE binary operator"
  | .like negated any expr pattern => evalLike "LIKE" id negated any expr pattern key
  | .ilike negated any expr pattern => evalLike "ILIKE" Text.toAsciiLowercase negated any expr pattern key
  | _ => .error "Unsupported WHERE predicate"

def selectionMatchesKey (selection : Option Expr) (key : String) : Except String Bool :=
  match selection with
  | none => .ok true
  | some expr => evalKeyPredicate key expr

/-! ### Projections -/

inductive ProjectionField where
  | key
  | value
  | type
deriving DecidableEq, Repr

def ProjectionField.display : ProjectionField → String
  | .key => colKey
  | .value => colValue
  | .type => colType

/-- A projected column must be one of the three, under an alias or not. -/
def projectionField : SelectItem → Option ProjectionField
  | .unnamedExpr (.identifier id) | .exprWithAlias (.identifier id) =>
    if identIs id colKey then some .key
    else if identIs id colValue then some .value
    else if identIs id colType then some .type
    else none
  | _ => none

def resolveProjection : List SelectItem → Except String (List ProjectionField)
  | [] => .error "SELECT projection cannot be empty"
  | [.wildcard] | [.qualifiedWildcard] => .ok [.key, .value, .type]
  | items =>
    match items.mapM projectionField with
    | some fields => .ok fields
    | none => .error "Only SELECT key, value, type (or SELECT *) projections are supported"

def renderProjectionRow {P : Platform} (fields : List ProjectionField) (key : String) (typed : TypedValue P)
    (tag : TypeTag) : List String :=
  fields.map fun
    | .key => key
    | .value => typed.displayString
    | .type => tag.asStr

/-! ### INSERT -/

inductive TypedInsert (P : Platform) where
  | typed (key : String) (value : TypedValue P)
  | legacyU64 (key : String) (value : UInt64)

/-- The key text and the value expression of a row, later columns overriding earlier ones. -/
def readColumns : List (String × Expr) → Option String → Option Expr → Except String (Option String × Option Expr)
  | [], key, valueExpr => .ok (key, valueExpr)
  | (col, expr) :: rest, key, valueExpr =>
    if Text.eqIgnoreAsciiCase col colKey then
      match exprAsString expr with
      | .error e => .error e
      | .ok k => readColumns rest (some k) valueExpr
    else if Text.eqIgnoreAsciiCase col colValue then readColumns rest key (some expr)
    else
      .error ("Unknown INSERT column '" ++ col ++ "'. Supported columns: " ++ colKey ++ ", " ++ colValue)

/-- A string literal, or an identifier standing for one, is typed by its content. -/
def insertString (P : Platform) (key : String) (expr : Expr) : Except String (TypedInsert P) :=
  match exprAsString expr with
  | .ok s => .ok (.typed key (inferFromString P s))
  | .error _ => .error "Cannot parse value expression"

/-- The value of an `INSERT`, by the form of its literal. -/
def insertValue (P : Platform) (key : String) (expr : Expr) : Except String (TypedInsert P) :=
  match tryExtractVector P expr with
  | some dims => .ok (.typed key (.vector dims))
  | none =>
    match expr with
    | .value .null => .ok (.typed key .null)
    | .value (.boolean b) => .ok (.typed key (.bool b))
    | .value (.number n) =>
      match Text.parseU64 n, Text.parseI64 n, P.f64.parse n with
      | some u, _, _ => .ok (.legacyU64 key u)
      | none, some i, _ => .ok (.typed key (.integer i))
      | none, none, some f => .ok (.typed key (.float f))
      | none, none, none => insertString P key expr
    | _ => insertString P key expr

def extractInsertTyped (P : Platform) (source : Query) (columns : List Ident) : Except String (TypedInsert P) :=
  match source.body with
  | .values [row] =>
    let columnNames := if columns.isEmpty then [colKey, colValue] else columns.map (·.value)
    if row.length ≠ columnNames.length then .error "INSERT VALUES arity does not match column list"
    else
      match readColumns (columnNames.zip row) none none with
      | .error e => .error e
      | .ok (none, _) => .error ("Missing '" ++ colKey ++ "' column")
      | .ok (some _, none) => .error ("Missing '" ++ colValue ++ "' column")
      | .ok (some key, some expr) => insertValue P key expr
  | .values _ => .error "INSERT requires exactly one VALUES row"
  | _ => .error "INSERT only supports VALUES rows"

theorem extractInsertTyped_pair (P : Platform) (key : String) (expr : Expr) :
    extractInsertTyped P ⟨.values [[.value (.string key), expr]]⟩ [] = insertValue P key expr := by
  have hother : Text.eqIgnoreAsciiCase colValue colKey = false := by
    unfold Text.eqIgnoreAsciiCase colValue colKey
    simp only [String.reduceToList]
    decide
  have hcolumns : readColumns [(colKey, .value (.string key)), (colValue, expr)] none none =
      .ok (some key, some expr) := by
    simp [readColumns, exprAsString, Value.intoString, hother]
  unfold extractInsertTyped
  simp [hcolumns]

def extractUpdateValue : List Assignment → Except String UInt64
  | [assignment] =>
    let targetOk := match assignment.target with
      | .columnName name => lastIdentIs name colValue
      | .tuple => false
    if !targetOk then .error ("Only '" ++ colValue ++ "' can be assigned in UPDATE")
    else exprAsU64 assignment.value
  | _ => .error "UPDATE requires exactly one assignment: value = <u64>"

/-! ### Vector search -/

structure VectorSearchParams (P : Platform) where
  queryVector : List P.f64.F
  k : Nat
  metric : DistanceMetric

/-- The optional `k`; `none` spoils the call. -/
def searchLimit : Option FunctionArg → Option Nat
  | some (.unnamed e) => (exprAsU64 e).toOption.map UInt64.toNat
  | _ => some 10

/-- The optional metric; `none` spoils the call. -/
def searchMetric : Option FunctionArg → Option DistanceMetric
  | some (.unnamed e) => (exprAsString e).toOption.map fun s => (DistanceMetric.fromStrTag s).getD .cosine
  | _ => some .cosine

def extractVectorSearch (P : Platform) : Expr → Option (VectorSearchParams P)
  | .function name (.list args) =>
    let name := Text.toAsciiUppercase name
    if name = "VECTOR_SEARCH" ∨ name = "VSEARCH" ∨ name = "KNN" then
      match (args[1]? : Option FunctionArg) with
      | some (.unnamed e) => do
        let queryVector ← tryExtractVector P e
        let k ← searchLimit args[2]?
        let metric ← searchMetric args[3]?
        return { queryVector, k, metric }
      | _ => none
    else none
  | _ => none

end AgentHalo.Sql
