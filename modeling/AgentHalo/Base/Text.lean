import Mathlib.Tactic

/-!
# Text and bytes

The string and byte operations that the engine takes from the standard library: UTF-8 bytes of a string, trimming by
the Unicode `White_Space` property, ASCII case folding, decimal parsing with overflow, little-endian words, and the
lower-case hexadecimal rendering of digests with its two decoders. The one fact proved about them is the round trip
that auditing relies on: what `hexEncode` writes, `decodeHexExact` and `hexDecodeDynamic` read back.
-/

namespace AgentHalo

abbrev Bytes := List UInt8

/-- A SHA-256 digest, the `NodeHash` of the transparency log. -/
abbrev NodeHash := Vector UInt8 32

namespace Text

/-- Rust's `str::as_bytes`. -/
def utf8 (s : String) : Bytes := s.toList.flatMap String.utf8EncodeChar

theorem utf8_append (s t : String) : utf8 (s ++ t) = utf8 s ++ utf8 t := by
  simp [utf8]

/-- The characters with the Unicode `White_Space` property, which `str::trim` removes. -/
def isWhitespace (c : Char) : Bool :=
  let n := c.toNat
  (0x9 ≤ n && n ≤ 0xd) || n == 0x20 || n == 0x85 || n == 0xa0 || n == 0x1680 || (0x2000 ≤ n && n ≤ 0x200a)
    || n == 0x2028 || n == 0x2029 || n == 0x202f || n == 0x205f || n == 0x3000

/-- Trimming on characters: drop the white space at both ends. -/
def trimChars (cs : List Char) : List Char :=
  ((cs.dropWhile isWhitespace).reverse.dropWhile isWhitespace).reverse

/-- Rust's `str::trim`. -/
def trim (s : String) : String := String.ofList (trimChars s.toList)

/-- Rust's `str::trim_end_matches` with one character. -/
def trimEndMatches (c : Char) (s : String) : String :=
  String.ofList (s.toList.reverse.dropWhile (· == c)).reverse

/-- Rust's `char::to_ascii_uppercase`. -/
def asciiUpper (c : Char) : Char := if 'a' ≤ c ∧ c ≤ 'z' then Char.ofNat (c.toNat - 32) else c

/-- Rust's `char::to_ascii_lowercase`. -/
def asciiLower (c : Char) : Char := if 'A' ≤ c ∧ c ≤ 'Z' then Char.ofNat (c.toNat + 32) else c

/-- Rust's `str::to_ascii_uppercase`. -/
def toAsciiUppercase (s : String) : String := String.ofList (s.toList.map asciiUpper)

/-- Rust's `str::to_ascii_lowercase`. -/
def toAsciiLowercase (s : String) : String := String.ofList (s.toList.map asciiLower)

/-- Rust's `str::eq_ignore_ascii_case`. -/
def eqIgnoreAsciiCase (s t : String) : Bool := s.toList.map asciiLower == t.toList.map asciiLower

@[simp] theorem eqIgnoreAsciiCase_self (s : String) : eqIgnoreAsciiCase s s = true := beq_self_eq_true _

/-- Rust's `str::starts_with` with a string. -/
def startsWith (s pre : String) : Bool := pre.toList.isPrefixOf s.toList

/-- Rust's `str::strip_suffix` with one character. -/
def stripSuffix (c : Char) (s : String) : Option String :=
  if s.toList.getLast? = some c then some (String.ofList s.toList.dropLast) else none

/-! ### Decimal numbers -/

/-- The value of a nonempty string of ASCII digits. -/
def digitsValue (cs : List Char) : Option Nat :=
  if cs.isEmpty || !cs.all (fun c => decide ('0' ≤ c ∧ c ≤ '9')) then none
  else some (cs.foldl (fun acc c => acc * 10 + (c.toNat - '0'.toNat)) 0)

/-- Rust's `str::parse::<u64>`: an optional `+`, then digits, in range. -/
def parseU64 (s : String) : Option UInt64 :=
  let digits := match s.toList with
    | '+' :: rest => rest
    | cs => cs
  (digitsValue digits).bind fun n => if n < 2 ^ 64 then some (UInt64.ofNat n) else none

/-- Rust's `str::parse::<i64>`: an optional sign, then digits, in range. -/
def parseI64 (s : String) : Option Int64 :=
  match s.toList with
  | '-' :: rest => (digitsValue rest).bind fun n => if n ≤ 2 ^ 63 then some (Int64.ofInt (-n)) else none
  | '+' :: rest => (digitsValue rest).bind fun n => if n < 2 ^ 63 then some (Int64.ofInt n) else none
  | cs => (digitsValue cs).bind fun n => if n < 2 ^ 63 then some (Int64.ofInt n) else none

theorem toString_nat_inj {m n : Nat} (h : toString m = toString n) : m = n := by
  have hdigits : Nat.toDigits 10 m = Nat.toDigits 10 n := by
    have hrepr : m.repr = n.repr := h
    rw [← Nat.toList_repr, ← Nat.toList_repr, hrepr]
  rw [← Nat.ofDigitChars_ten_toDigits (n := m), hdigits, Nat.ofDigitChars_ten_toDigits]

theorem toString_u64_inj {a b : UInt64} (h : toString a = toString b) : a = b :=
  UInt64.toNat_inj.mp (toString_nat_inj (m := a.toNat) (n := b.toNat) h)

theorem not_mem_toString {c : Char} (hc : c.isDigit = false) (n : Nat) : c ∉ (toString n).toList := by
  intro h
  have hdigits : (toString n).toList = Nat.toDigits 10 n := Nat.toList_repr
  rw [hdigits] at h
  have hdigit := Nat.isDigit_of_mem_toDigits (by decide) (by decide) h
  rw [hc] at hdigit
  cases hdigit

theorem colon_not_mem_toString (n : Nat) : ':' ∉ (toString n).toList := not_mem_toString (by decide) n

theorem toString_toInt64_eq_iff (u : UInt64) : toString u.toInt64 = toString u ↔ u.toNat < 2 ^ 63 := by
  have hsigned : toString u.toInt64 = u.toInt64.toInt.repr := rfl
  have hunsigned : toString u = u.toNat.repr := rfl
  have hvalue : u.toInt64.toInt = if u.toNat < 2 ^ 63 then (u.toNat : Int) else (u.toNat : Int) - 2 ^ 64 := by
    have hbits : u.toInt64.toInt = u.toBitVec.toInt := rfl
    have hnat : u.toBitVec.toNat = u.toNat := rfl
    rw [hbits, BitVec.toInt_eq_toNat_cond, hnat]
    split_ifs <;> omega
  rw [hsigned, hunsigned, hvalue, Int.repr_eq_if]
  by_cases hlow : u.toNat < 2 ^ 63
  · rw [if_pos hlow, if_pos (Int.natCast_nonneg _), Int.toNat_natCast]
    exact iff_of_true rfl hlow
  · have hneg : ¬ (0 : Int) ≤ (u.toNat : Int) - 2 ^ 64 := by
      have hbound := u.toNat_lt
      omega
    rw [if_neg hlow, if_neg hneg]
    refine iff_of_false ?_ hlow
    intro heq
    apply not_mem_toString (show '-'.isDigit = false by decide) u.toNat
    have hrepr : toString u.toNat = u.toNat.repr := rfl
    rw [hrepr, ← heq, String.toList_append]
    simp

/-! ### Little-endian words -/

/-- Rust's `u64::to_le_bytes`. -/
def toLeBytes (w : UInt64) : Bytes :=
  (List.range 8).map fun i => (w >>> (UInt64.ofNat (8 * i))).toUInt8

/-- Rust's `u64::from_le_bytes` of the first eight bytes. -/
def fromLeBytes (bs : Bytes) : UInt64 :=
  (bs.take 8).foldr (fun b acc => (acc <<< 8) ||| b.toUInt64) 0

/-- The first 32 bytes of a SHA-512 digest. -/
def firstHalf (d : Vector UInt8 64) : Vector UInt8 32 := (d.take 32).cast (by decide)

/-! ### Hexadecimal -/

def hexDigit (d : Nat) : Char := if d < 10 then Char.ofNat ('0'.toNat + d) else Char.ofNat ('a'.toNat + (d - 10))

/-- A byte under the format `{b:02x}`. -/
def hexByte (b : UInt8) : List Char := [hexDigit (b.toNat / 16), hexDigit (b.toNat % 16)]

def hexEncode (bytes : Bytes) : String := String.ofList (bytes.flatMap hexByte)

def hexNibble (b : UInt8) : Option UInt8 :=
  if 48 ≤ b ∧ b ≤ 57 then some (b - 48)
  else if 97 ≤ b ∧ b ≤ 102 then some (10 + (b - 97))
  else if 65 ≤ b ∧ b ≤ 70 then some (10 + (b - 65))
  else none

/-- The decoding loop: two digits at a time, high half first. -/
def decodeHexPairs : Bytes → Option Bytes
  | hi :: lo :: rest => do
    let h ← hexNibble hi
    let l ← hexNibble lo
    let tail ← decodeHexPairs rest
    return ((h <<< 4) ||| l) :: tail
  | [] => some []
  | [_] => none

/-- A byte string as an array of the length the type asks for. -/
def toArray (n : Nat) (bs : Bytes) : Option (Vector UInt8 n) :=
  if h : bs.length = n then some ⟨bs.toArray, by simpa using h⟩ else none

def decodeHexExact (n : Nat) (hex : String) : Option (Vector UInt8 n) :=
  let bytes := utf8 hex
  if bytes.length ≠ n * 2 then none else (decodeHexPairs bytes).bind (toArray n)

def hexDecodeDynamic (hex : String) : Option Bytes := decodeHexPairs (utf8 hex)

theorem hexNibble_hexDigit (d : Fin 16) :
    ∃ b, String.utf8EncodeChar (hexDigit d.val) = [b] ∧ hexNibble b = some (UInt8.ofNat d.val) := by
  have hall : ∀ d : Fin 16, (String.utf8EncodeChar (hexDigit d.val)).length = 1 ∧
      (String.utf8EncodeChar (hexDigit d.val)).head?.bind hexNibble = some (UInt8.ofNat d.val) := by
    decide
  obtain ⟨hlen, hval⟩ := hall d
  obtain ⟨b, hb⟩ := List.length_eq_one_iff.mp hlen
  refine ⟨b, hb, ?_⟩
  simpa [hb] using hval

theorem byte_halves (b : UInt8) : (UInt8.ofNat (b.toNat / 16) <<< 4) ||| UInt8.ofNat (b.toNat % 16) = b := by
  have hall : ∀ n : Fin 256, (UInt8.ofNat (n.val / 16) <<< 4) ||| UInt8.ofNat (n.val % 16) = UInt8.ofNat n.val := by
    decide +kernel
  have hb := hall ⟨b.toNat, b.toNat_lt⟩
  simpa using hb

theorem utf8_hexEncode_length (bytes : Bytes) : (utf8 (hexEncode bytes)).length = bytes.length * 2 := by
  unfold utf8 hexEncode
  rw [String.toList_ofList]
  induction bytes with
  | nil => rfl
  | cons b rest ih =>
    have hb := b.toNat_lt
    obtain ⟨x, hx, -⟩ := hexNibble_hexDigit ⟨b.toNat / 16, by omega⟩
    obtain ⟨y, hy, -⟩ := hexNibble_hexDigit ⟨b.toNat % 16, by omega⟩
    simp only at hx hy
    simp only [List.flatMap_cons, hexByte, List.cons_append, List.nil_append, hx, hy, List.length_cons, ih]
    omega

theorem not_mem_hexEncode {c : Char} (hc : ∀ d : Fin 16, hexDigit d.val ≠ c) (bytes : Bytes) :
    c ∉ (hexEncode bytes).toList := by
  intro h
  unfold hexEncode at h
  rw [String.toList_ofList, List.mem_flatMap] at h
  obtain ⟨b, -, hb⟩ := h
  have hbound := b.toNat_lt
  rcases List.mem_pair.mp hb with hhigh | hlow
  · exact hc ⟨b.toNat / 16, by omega⟩ hhigh.symm
  · exact hc ⟨b.toNat % 16, by omega⟩ hlow.symm

theorem colon_not_mem_hexEncode (bytes : Bytes) : ':' ∉ (hexEncode bytes).toList := not_mem_hexEncode (by decide) bytes

theorem decodeHexPairs_hexEncode (bytes : Bytes) : decodeHexPairs (utf8 (hexEncode bytes)) = some bytes := by
  unfold utf8 hexEncode
  rw [String.toList_ofList]
  induction bytes with
  | nil => rfl
  | cons b rest ih =>
    have hb := b.toNat_lt
    obtain ⟨x, hx, hxv⟩ := hexNibble_hexDigit ⟨b.toNat / 16, by omega⟩
    obtain ⟨y, hy, hyv⟩ := hexNibble_hexDigit ⟨b.toNat % 16, by omega⟩
    simp only at hx hy hxv hyv
    simp only [List.flatMap_cons, hexByte, List.cons_append, List.nil_append, hx, hy, decodeHexPairs, hxv, hyv, ih]
    simp [byte_halves]

theorem hexEncode_inj {a b : Bytes} (h : hexEncode a = hexEncode b) : a = b := by
  have hdecoded := decodeHexPairs_hexEncode a
  rw [h, decodeHexPairs_hexEncode] at hdecoded
  exact (Option.some.inj hdecoded).symm

theorem toArray_toList {n : Nat} (v : Vector UInt8 n) : toArray n v.toList = some v := by
  obtain ⟨a, rfl⟩ := v
  simp [toArray, Vector.toList]

theorem decodeHexExact_hexEncode {n : Nat} (v : Vector UInt8 n) :
    decodeHexExact n (hexEncode v.toList) = some v := by
  unfold decodeHexExact
  simp only [utf8_hexEncode_length, Vector.length_toList, ne_eq, not_true_eq_false, if_false,
    decodeHexPairs_hexEncode, Option.bind_some, toArray_toList]

theorem hexDecodeDynamic_hexEncode (bytes : Bytes) : hexDecodeDynamic (hexEncode bytes) = some bytes :=
  decodeHexPairs_hexEncode bytes

end Text

end AgentHalo
