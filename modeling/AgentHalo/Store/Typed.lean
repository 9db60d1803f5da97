import AgentHalo.Lib.OrdMap
import AgentHalo.Store.Governor

/-!
# Typed cells

The committed state is a vector of words. A key names a word through the key map, and the type map says how to read it:
directly (null, integer, float, bool) or as the content hash of a payload kept in the blob store (text, JSON, bytes,
vector). `decode` never looks at the hash: for the blob types it returns whatever payload it is given.
-/

namespace AgentHalo.Store

open Text (utf8)

inductive TypeTag where
  | null
  | integer
  | float
  | bool
  | text
  | json
  | bytes
  | vector
deriving DecidableEq, Repr

def TypeTag.asStr : TypeTag → String
  | .null => "null"
  | .integer => "integer"
  | .float => "float"
  | .bool => "bool"
  | .text => "text"
  | .json => "json"
  | .bytes => "bytes"
  | .vector => "vector"

/-- The type keeps its data in the blob store. -/
def TypeTag.isBlob : TypeTag → Bool
  | .text | .json | .bytes | .vector => true
  | _ => false

inductive TypedValue (P : Platform) where
  | null
  | integer (v : Int64)
  | float (v : P.f64.F)
  | bool (v : Bool)
  | text (s : String)
  | json (v : P.json.Value)
  | bytes (b : Bytes)
  | vector (dims : List P.f64.F)

def nullSentinel : UInt64 := 0xFFFFFFFFFFFFFFFF

/-! ### Encoding helpers -/

section Encoding

variable (P : Platform)

def contentHashFull (key : String) (data : Bytes) : NodeHash := P.sha256 (utf8 key ++ utf8 "|" ++ data)

def contentHashU64 (key : String) (data : Bytes) : UInt64 := Text.fromLeBytes (contentHashFull P key data).toList

def vectorToBytes (dims : List P.f64.F) : Bytes := dims.flatMap fun d => Text.toLeBytes (P.f64.toBits d)

def bytesToVector (data : Bytes) : Except String (List P.f64.F) :=
  if data.length % 8 ≠ 0 then .error ("vector blob length " ++ toString data.length ++ " not divisible by 8")
  else .ok ((data.toChunks 8).map fun chunk => P.f64.fromBits (Text.fromLeBytes chunk))

end Encoding

/-- Rust's `String::from_utf8`. -/
def fromUtf8 (data : Bytes) : Option String := String.fromUTF8? data.toByteArray

theorem fromUtf8_utf8 (s : String) : fromUtf8 (utf8 s) = some s := by
  have hbytes : (utf8 s).toByteArray = s.toByteArray := by
    rw [← String.utf8Encode_toList]
    rfl
  unfold fromUtf8 String.fromUTF8?
  rw [hbytes, dif_pos s.isValidUTF8]
  rfl

theorem utf8_inj {s t : String} (h : utf8 s = utf8 t) : s = t := by
  have hback := fromUtf8_utf8 s
  rw [h, fromUtf8_utf8] at hback
  exact (Option.some.inj hback).symm

namespace TypedValue

variable {P : Platform}

def tag : TypedValue P → TypeTag
  | .null => .null
  | .integer _ => .integer
  | .float _ => .float
  | .bool _ => .bool
  | .text _ => .text
  | .json _ => .json
  | .bytes _ => .bytes
  | .vector _ => .vector

/-- The cell of a value and, for the blob types, its payload. -/
def encode (key : String) : TypedValue P → UInt64 × Option Bytes
  | .null => (nullSentinel, none)
  | .integer v => (v.toUInt64, none)
  | .float v => (P.f64.toBits v, none)
  | .bool v => (if v then 1 else 0, none)
  | .text s => (contentHashU64 P key (utf8 s), some (utf8 s))
  | .json v => (contentHashU64 P key (P.json.toVec v), some (P.json.toVec v))
  | .bytes b => (contentHashU64 P key b, some b)
  | .vector dims => (contentHashU64 P key (vectorToBytes P dims), some (vectorToBytes P dims))

/-- The message for a bad text leaves out where its bytes stop being UTF-8. -/
def decode (tag : TypeTag) (cell : UInt64) (blob : Option Bytes) : Except String (TypedValue P) :=
  match tag with
  | .null => .ok .null
  | .integer => .ok (.integer cell.toInt64)
  | .float => .ok (.float (P.f64.fromBits cell))
  | .bool => .ok (.bool (cell != 0))
  | .text =>
    match blob with
    | none => .error "missing blob for Text value"
    | some data =>
      match fromUtf8 data with
      | some s => .ok (.text s)
      | none => .error "invalid UTF-8 in Text blob"
  | .json =>
    match blob with
    | none => .error "missing blob for Json value"
    | some data =>
      match P.json.fromSlice data with
      | .ok v => .ok (.json v)
      | .error e => .error ("invalid JSON in blob: " ++ e)
  | .bytes =>
    match blob with
    | none => .error "missing blob for Bytes value"
    | some data => .ok (.bytes data)
  | .vector =>
    match blob with
    | none => .error "missing blob for Vector value"
    | some data => (bytesToVector P data).map .vector

def displayString : TypedValue P → String
  | .null => "NULL"
  | .integer v => toString v
  | .float v => P.f64.display v
  | .bool v => toString v
  | .text s => s
  | .json v => P.json.toString v
  | .bytes b => "0x" ++ Text.hexEncode b
  | .vector dims => "[" ++ String.intercalate ", " (dims.map P.f64.display) ++ "]"

def toJsonValue : TypedValue P → P.json.Value
  | .null => P.json.null
  | .integer v => P.json.ofI64 v
  | .float v => P.json.ofF64 v
  | .bool v => P.json.ofBool v
  | .text s => P.json.ofString s
  | .json v => v
  | .bytes b => P.json.ofString ("0x" ++ Text.hexEncode b)
  | .vector dims => P.json.ofVector dims

end TypedValue

/-- The type a string literal is read as. -/
def inferFromString (P : Platform) (s : String) : TypedValue P :=
  let trimmed := Text.trim s
  let first := trimmed.toList.head?
  let last := trimmed.toList.getLast?
  let bracketed := (first == some '\x7b' && last == some '\x7d') || (first == some '[' && last == some ']')
  match (if bracketed then P.json.fromStr trimmed else none) with
  | some v => .json v
  | none =>
    if Text.eqIgnoreAsciiCase trimmed "true" then .bool true
    else if Text.eqIgnoreAsciiCase trimmed "false" then .bool false
    else
      match Text.parseI64 trimmed with
      | some v => .integer v
      | none =>
        match P.f64.parse trimmed with
        | some v => .float v
        | none => .text s

/-! ### Type map -/

structure TypeMap where
  types : OrdMap String TypeTag

namespace TypeMap

def new : TypeMap := ⟨∅⟩

def set (m : TypeMap) (key : String) (tag : TypeTag) : TypeMap := ⟨m.types.insert key tag⟩

def get (m : TypeMap) (key : String) : TypeTag := m.types[key]?.getD .integer

theorem get_set (m : TypeMap) (key other : String) (tag : TypeTag) :
    (m.set key tag).get other = if key = other then tag else m.get other := by
  unfold get set
  rw [OrdMap.get?_insert]
  split_ifs <;> rfl

end TypeMap

/-! ### Key map -/

structure KeyMap where
  forward : OrdMap String Nat
  reverse : List (Option String)
  nextIndex : Nat
deriving DecidableEq

namespace KeyMap

def new : KeyMap := ⟨∅, [], 0⟩

def get (m : KeyMap) (key : String) : Option Nat := m.forward[key]?

def getOrCreate (m : KeyMap) (key : String) : Nat × KeyMap :=
  match m.forward[key]? with
  | some idx => (idx, m)
  | none =>
    let idx := m.nextIndex
    let padded := m.reverse ++ List.replicate (idx + 1 - m.reverse.length) none
    (idx, { forward := m.forward.insert key idx, reverse := padded.set idx (some key), nextIndex := idx + 1 })

def allKeys (m : KeyMap) : List (String × Nat) := m.forward.toList

theorem get_getOrCreate (m : KeyMap) (key : String) {other : String} {idx : Nat} (h : m.get other = some idx) :
    (m.getOrCreate key).2.get other = some idx := by
  unfold getOrCreate
  cases hkey : m.forward[key]? with
  | some i => exact h
  | none =>
    have hne : key ≠ other := by
      rintro rfl
      unfold get at h
      simp [hkey] at h
    unfold get
    dsimp only
    rw [OrdMap.get?_insert_ne _ _ hne]
    exact h

theorem get_getOrCreate_self (m : KeyMap) (key : String) :
    (m.getOrCreate key).2.get key = some (m.getOrCreate key).1 := by
  unfold getOrCreate
  cases hkey : m.forward[key]? with
  | some i => exact hkey
  | none =>
    unfold get
    dsimp only
    rw [OrdMap.get?_insert, if_pos rfl]

theorem get_getOrCreate_other (m : KeyMap) {key other : String} (hne : other ≠ key) :
    (m.getOrCreate key).2.get other = m.get other := by
  unfold getOrCreate
  cases hkey : m.forward[key]? with
  | some i => rfl
  | none =>
    unfold get
    dsimp only
    rw [OrdMap.get?_insert_ne _ _ hne.symm]

end KeyMap

end AgentHalo.Store
