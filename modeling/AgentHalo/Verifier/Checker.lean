import AgentHalo.Base.Lines
import AgentHalo.Lib.Outcome
import AgentHalo.Pod.Did

/-!
# The certificate checker

A certificate is a text of declarations and metadata, one a line. The checker trims every line, skips empty lines and
comments, collects theorems, axioms and metadata, and remembers the lines that a signature is over: those it kept, in
order, without the signature's own. `scanLine` is one round of its loop.
-/

namespace AgentHalo.Verifier

open Outcome
open Pod (DidCodec multicodecEd25519Pub)
open Text (utf8 isWhitespace trimChars parseU64 toArray)

/-- The `base64` crate with the standard alphabet. -/
structure Base64 where
  encode : Bytes → String
  decode : String → Except String Bytes

inductive TrustTier where
  | untrusted
  | legacy
  | standard
  | cryptoExtended
deriving DecidableEq, Repr

structure ExportMetadata where
  commitHash : Option String
  theoremStatementSha256 : Option String
  generatedAt : Option UInt64
  signatureEd25519 : Option String
  signingDid : Option String
  signingKeyMultibase : Option String
  signatureValid : Option Bool
deriving DecidableEq, Repr

namespace ExportMetadata

def default : ExportMetadata := ⟨none, none, none, none, none, none, none⟩

def isLegacy (m : ExportMetadata) : Bool :=
  m.commitHash.isNone && m.theoremStatementSha256.isNone && m.generatedAt.isNone && m.signatureEd25519.isNone &&
    m.signingDid.isNone && m.signingKeyMultibase.isNone

end ExportMetadata

structure VerificationResult where
  allChecked : Bool
  declarationsChecked : Nat
  declarationsFailed : Nat
  axiomsUsed : List String
  axiomsTrusted : Bool
  theoremNames : List String
  trustTier : TrustTier
  metadata : ExportMetadata
  errors : List String
deriving DecidableEq, Repr

def standardAxioms : List String := ["propext", "Classical.choice", "Quot.sound"]
def hkdfAxiom : String := "HeytingLean.NucleusDB.Comms.Identity.hkdf_is_prf"
def trustedAxioms : List String := ["propext", "Classical.choice", "Quot.sound", hkdfAxiom]

/-! ### Lines -/

def splitWhitespace (line : List Char) : List (List Char) := (line.splitOnP isWhitespace).filter (· ≠ [])

/-- What `u64::from_str` says of a text that it does not parse. -/
def parseIntError (value : String) : String :=
  let rec digits : Nat → List Char → String
    | _, [] => ""
    | acc, c :: rest =>
      if !c.isDigit then "invalid digit found in string"
      else if 2 ^ 64 ≤ acc * 10 + (c.toNat - '0'.toNat) then "number too large to fit in target type"
      else digits (acc * 10 + (c.toNat - '0'.toNat)) rest
  match value.toList with
  | [] => "cannot parse integer from empty string"
  | ['+'] => "invalid digit found in string"
  | '+' :: rest => digits 0 rest
  | cs => digits 0 cs

/-- The metadata after a line, and the error of the line if it has one. -/
def parseMeta (m : ExportMetadata) (key value : String) : ExportMetadata × List String :=
  match key with
  | "commit_hash" => ({ m with commitHash := some value }, [])
  | "theorem_statement_sha256" => ({ m with theoremStatementSha256 := some value }, [])
  | "generated_at" =>
    match parseU64 value with
    | some v => ({ m with generatedAt := some v }, [])
    | none => (m, ["invalid #META generated_at `" ++ value ++ "`: " ++ parseIntError value])
  | "signature_ed25519" => ({ m with signatureEd25519 := some value }, [])
  | "signing_did" => ({ m with signingDid := some value }, [])
  | "signing_key_multibase" => ({ m with signingKeyMultibase := some value }, [])
  | _ => (m, ["unknown #META key `" ++ key ++ "`"])

structure Scan where
  declCount : Nat
  axioms : List String
  theorems : List String
  metadata : ExportMetadata
  errors : List String
  signableLines : List (List Char)

def Scan.empty : Scan := ⟨0, [], [], .default, [], []⟩

def isComment (line : List Char) : Bool := "--".toList.isPrefixOf line
def isMeta (line : List Char) : Bool := "#META".toList.isPrefixOf line

/-- What follows `#META`, trimmed. -/
def metaRest (line : List Char) : List Char := trimChars (line.drop 5)

/-- The text up to the first white space. -/
def metaKey (line : List Char) : String := String.ofList ((metaRest line).takeWhile fun c => !isWhitespace c)

def metaValue (line : List Char) : String :=
  String.ofList (trimChars (((metaRest line).dropWhile fun c => !isWhitespace c).drop 1))

/-- A line of metadata; one without key or value is an error and is not signed. -/
def scanMeta (scan : Scan) (line : List Char) : Scan :=
  if metaKey line = "" ∨ metaValue line = "" then
    { scan with errors := scan.errors ++ ["invalid #META line `" ++ String.ofList line ++ "`"] }
  else
    { scan with
      metadata := (parseMeta scan.metadata (metaKey line) (metaValue line)).1
      errors := scan.errors ++ (parseMeta scan.metadata (metaKey line) (metaValue line)).2
      signableLines :=
        if metaKey line ≠ "signature_ed25519" then scan.signableLines ++ [line] else scan.signableLines }

def tagOf (line : List Char) : String := String.ofList ((splitWhitespace line)[0]?.getD [])
def nameOf (line : List Char) : String := String.ofList ((splitWhitespace line)[1]?.getD [])

def scanDeclaration (scan : Scan) (line : List Char) : Scan :=
  { scan with
    declCount :=
      if tagOf line = "#DEF" ∨ tagOf line = "#THM" ∨ tagOf line = "#AX" then min (scan.declCount + 1) (2 ^ 64 - 1)
      else scan.declCount
    axioms := if tagOf line = "#AX" ∧ nameOf line ≠ "" then scan.axioms ++ [nameOf line] else scan.axioms
    theorems := if tagOf line = "#THM" ∧ nameOf line ≠ "" then scan.theorems ++ [nameOf line] else scan.theorems
    signableLines := scan.signableLines ++ [line] }

/-- One round of the loop, over a trimmed line. -/
def scanLine (scan : Scan) (line : List Char) : Scan :=
  if line = [] ∨ isComment line = true then scan
  else if isMeta line then scanMeta scan line
  else scanDeclaration scan line

def scanText (raw : String) : Scan := ((Lines.lines raw.toList).map trimChars).foldl scanLine .empty

/-- The text that the signature is checked against. -/
def Scan.payload (scan : Scan) : String := String.ofList (['\n'].intercalate scan.signableLines)

/-! ### The signature and the result -/

section Result

variable {P : Platform} (C : DidCodec P) (B : Base64)

def decodeEd25519VerifyingKey (multibaseKey : String) : Except String P.ed25519.VerifyingKey := do
  let decoded ← (C.multibaseDecode multibaseKey).mapError ("decode metadata signing key multibase: " ++ ·)
  require (multicodecEd25519Pub.isPrefixOf decoded) "metadata signing key has unexpected multicodec prefix"
  let key ← okOr "metadata signing key must be 32-byte Ed25519 key"
    (toArray 32 (decoded.drop multicodecEd25519Pub.length))
  (C.ed25519KeyFromBytes key).mapError ("metadata signing key is invalid Ed25519 key: " ++ ·)

/-- Whether the signature is valid, and the errors. -/
def checkSignature (vk : P.ed25519.VerifyingKey) (sigB64 payload : String) : Bool × List String :=
  match B.decode sigB64 with
  | .error e => (false, ["decode #META signature_ed25519: " ++ e])
  | .ok sigBytes =>
    if sigBytes = [] then (false, [])
    else
      match C.ed25519SignatureFromSlice sigBytes with
      | .error e => (false, ["parse #META signature_ed25519: " ++ e])
      | .ok sig => (P.ed25519.verify vk (utf8 payload) sig, [])

def Scan.axiomsTrusted (scan : Scan) : Bool := scan.axioms.all (trustedAxioms.contains ·)

def Scan.trustTier (scan : Scan) : TrustTier :=
  if !scan.axiomsTrusted then .untrusted
  else if scan.metadata.isLegacy then .legacy
  else if scan.axioms.all (standardAxioms.contains ·) then .standard
  else if scan.axioms.any (· == hkdfAxiom) then .cryptoExtended
  else .standard

/-- The result at the end of the function. -/
def Scan.conclude (scan : Scan) (signatureValid : Option Bool) (errors : List String) : VerificationResult where
  allChecked := errors.isEmpty
  declarationsChecked := scan.declCount
  declarationsFailed := 0
  axiomsUsed := scan.axioms
  axiomsTrusted := scan.axiomsTrusted
  theoremNames := scan.theorems
  trustTier := scan.trustTier
  metadata := { scan.metadata with signatureValid }
  errors

/-- The early return for a key that cannot be decoded. -/
def Scan.abort (scan : Scan) (errors : List String) : VerificationResult where
  allChecked := false
  declarationsChecked := scan.declCount
  declarationsFailed := 0
  axiomsUsed := scan.axioms
  axiomsTrusted := false
  theoremNames := scan.theorems
  trustTier := .untrusted
  metadata := scan.metadata
  errors

/-- The result for what the loop has collected. -/
def Scan.result (scan : Scan) : VerificationResult :=
  match scan.metadata.signatureEd25519, scan.metadata.signingKeyMultibase with
  | none, none => scan.conclude none scan.errors
  | some sigB64, some keyMb =>
    match decodeEd25519VerifyingKey C keyMb with
    | .error e => scan.abort (scan.errors ++ [e])
    | .ok vk =>
      let checked := checkSignature C B vk sigB64 scan.payload
      scan.conclude (some checked.1) (scan.errors ++ checked.2)
  | _, _ =>
    scan.conclude (some false)
      (scan.errors ++ ["metadata signature requires both signing_key_multibase and signature_ed25519"])

/-- `read` is what reading the file gives. -/
def verifyExport (exportPath : String) (read : Except String String) : Except String VerificationResult := do
  let raw ← read.mapError (("read export " ++ exportPath ++ ": ") ++ ·)
  return (scanText raw).result C B

end Result

end AgentHalo.Verifier
