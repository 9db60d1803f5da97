import AgentHalo.Base.Text

/-!
# The platform under the engine

The engine calls hash functions, signature schemes, curve arithmetic, IEEE doubles and a JSON codec that are not part
of the repository. They enter the model as the fields of one record, `Platform`, so that every definition is a function
of them and every theorem holds for all of them. What a result needs to know about a scheme is stated as a law
(`Ed25519.Correct`, `MlDsa65.Correct`) and appears among the hypotheses of that result only.
-/

namespace AgentHalo

/-- The `ed25519_dalek` operations the witnesses use. -/
structure Ed25519 where
  SigningKey : Type
  VerifyingKey : Type
  fromBytes : Vector UInt8 32 → SigningKey
  verifyingKey : SigningKey → VerifyingKey
  sign : SigningKey → Bytes → Vector UInt8 64
  verify : VerifyingKey → Bytes → Vector UInt8 64 → Bool

/-- A signature verifies under the key of its signer. -/
structure Ed25519.Correct (E : Ed25519) : Prop where
  verify_sign : ∀ sk msg, E.verify (E.verifyingKey sk) msg (E.sign sk msg) = true

/-- The `ml_dsa` operations the witnesses use, at the parameter set ML-DSA-65. -/
structure MlDsa65 where
  SigningKey : Type
  VerifyingKey : Type
  Signature : Type
  fromSeed : Vector UInt8 32 → SigningKey
  verifyingKey : SigningKey → VerifyingKey
  /-- Fails only on a context that is too long. -/
  signDeterministic : SigningKey → Bytes → Bytes → Option Signature
  encode : Signature → Vector UInt8 3309
  decode : Vector UInt8 3309 → Option Signature
  verifyWithContext : VerifyingKey → Bytes → Bytes → Signature → Bool

/-- Signing under the empty context succeeds, an encoded signature decodes to itself, and it verifies under the key of
its signer. -/
structure MlDsa65.Correct (M : MlDsa65) : Prop where
  sign_isSome : ∀ sk msg, (M.signDeterministic sk msg []).isSome
  decode_encode : ∀ sig, M.decode (M.encode sig) = some sig
  verify_sign : ∀ sk msg sig, M.signDeterministic sk msg [] = some sig →
    M.verifyWithContext (M.verifyingKey sk) msg [] sig = true

/-- The Ristretto group as the Pedersen commitment uses it. -/
structure Ristretto where
  Point : Type
  identity : Point
  add : Point → Point → Point
  /-- The product with `Scalar::from(u64)`. -/
  mulScalar : Point → UInt64 → Point
  fromHash : Vector UInt8 64 → Point
  compress : Point → Vector UInt8 32

/-- The scalar field, the polynomials and the ceremony of `kzg_mini` over BLS12-381. -/
structure KzgMini where
  Fr : Type
  ofU64 : UInt64 → Fr
  neg : Fr → Fr
  sub : Fr → Fr → Fr
  mul : Fr → Fr → Fr
  inverse : Fr → Option Fr
  Polynomial : Type
  zero : Polynomial
  new : List Fr → Polynomial
  polyMul : Polynomial → Polynomial → Polynomial
  polyAdd : Polynomial → Polynomial → Polynomial
  scale : Polynomial → Fr → Polynomial
  coeffs : Polynomial → List Fr
  Ceremony : Type
  setup : Nat → Fr → Ceremony
  G1 : Type
  commit : Ceremony → Polynomial → G1
  /-- The proof point of `KZGCeremony::open` at a field element. -/
  openAt : Ceremony → Polynomial → Fr → G1
  /-- `KZGCeremony::verify` of a commitment against a point, a value and a proof point. -/
  verify : Ceremony → G1 → Fr → Fr → G1 → Bool
  serializeCompressed : G1 → Bytes
  deserializeCompressed : Bytes → Option G1

/-- IEEE doubles. Nothing is assumed of the arithmetic; `lit m e` is the literal `m · 10⁻ᵉ`. -/
structure F64 where
  F : Type
  lit : Nat → Nat → F
  ofNat : Nat → F
  toUsize : F → Nat
  toBits : F → UInt64
  fromBits : UInt64 → F
  epsilon : F
  neg : F → F
  abs : F → F
  sqrt : F → F
  ceil : F → F
  add : F → F → F
  sub : F → F → F
  mul : F → F → F
  div : F → F → F
  powf : F → F → F
  max : F → F → F
  min : F → F → F
  lt : F → F → Bool
  le : F → F → Bool
  eq : F → F → Bool
  sum : List F → F
  parse : String → Option F
  display : F → String
  /-- The format `{:.6}`. -/
  display6 : F → String

/-- A `serde_json::Value` and the conversions the typed layer uses. -/
structure SerdeJson (F : Type) where
  Value : Type
  null : Value
  ofI64 : Int64 → Value
  ofF64 : F → Value
  ofBool : Bool → Value
  ofString : String → Value
  ofVector : List F → Value
  toVec : Value → Bytes
  toString : Value → String
  fromSlice : Bytes → Except String Value
  fromStr : String → Option Value
  /-- `to_string_pretty` of a map, in key order. -/
  mapToStringPretty : List (String × Value) → Except String String

structure TrustedSetupArtifact where
  setupId : String
  curve : String
  maxDegree : Nat
  tauSeedHex : String
  attestationSha512 : String
deriving DecidableEq, Repr

/-- Everything the engine calls that the repository does not contain. The artifact files are deployment data: a path
reads the same for the life of the process. -/
structure Platform where
  sha256 : Bytes → NodeHash
  sha512 : Bytes → Vector UInt8 64
  ed25519 : Ed25519
  mldsa65 : MlDsa65
  ristretto : Ristretto
  kzg : KzgMini
  f64 : F64
  json : SerdeJson f64.F
  manifestDir : String
  readToString : String → Except String String
  parseSetupArtifact : String → Except String TrustedSetupArtifact

/-- Both witness signature schemes are correct. -/
structure Platform.SignaturesCorrect (P : Platform) : Prop where
  ed25519 : P.ed25519.Correct
  mldsa65 : P.mldsa65.Correct

end AgentHalo
