import AgentHalo.Base.Platform

/-!
# A platform to compute with

Witnesses and counterexamples evaluate the engine on concrete inputs, and for that the platform must be concrete too.
`Platform.reference` is small: a digest is the tail of its input, a signature is the signer's key mixed with a digest
of the message, doubles are rationals, and the default KZG artifact is the one in the repository. Its two signature
schemes obey the laws of the real ones.
-/

namespace AgentHalo

namespace Reference

/-- The last `n` bytes of the input, newest first, padded with zeros. -/
def digest (n : Nat) (bs : Bytes) : Vector UInt8 n := Vector.ofFn fun i => bs.reverse.getD i 0

theorem eq_of_digest {n : Nat} {bs bs' : Bytes} (hlen : bs.length = bs'.length) (hfit : bs.length ≤ n)
    (h : digest n bs = digest n bs') : bs = bs' := by
  refine List.reverse_injective (List.ext_getElem (by simpa using hlen) fun i hi hi' => ?_)
  have hin : i < n := by
    rw [List.length_reverse] at hi
    omega
  have hat := congrArg (fun v : Vector UInt8 n => v[i]) h
  simp only [digest, Vector.getElem_ofFn, List.getD_eq_getElem?_getD, List.getElem?_eq_getElem hi,
    List.getElem?_eq_getElem hi', Option.getD_some] at hat
  exact hat

def ed25519 : Ed25519 where
  SigningKey := Vector UInt8 32
  VerifyingKey := Vector UInt8 32
  fromBytes := id
  verifyingKey := id
  sign sk msg := digest 64 (msg ++ sk.toList)
  verify vk msg sig := sig == digest 64 (msg ++ vk.toList)

theorem ed25519_correct : ed25519.Correct where
  verify_sign sk msg := beq_self_eq_true (digest 64 (msg ++ Vector.toList sk))

def mldsa65 : MlDsa65 where
  SigningKey := Vector UInt8 32
  VerifyingKey := Vector UInt8 32
  Signature := Vector UInt8 3309
  fromSeed := id
  verifyingKey := id
  signDeterministic sk msg ctx := if ctx.length ≤ 255 then some (digest 3309 (ctx ++ msg ++ sk.toList)) else none
  encode := id
  decode := some
  verifyWithContext vk msg ctx sig := sig == digest 3309 (ctx ++ msg ++ vk.toList)

theorem mldsa65_correct : mldsa65.Correct where
  sign_isSome sk msg := by simp [mldsa65]
  decode_encode sig := rfl
  verify_sign sk msg sig h := by
    have hsig : digest 3309 ([] ++ msg ++ Vector.toList sk) = sig := Option.some.inj h
    rw [← hsig]
    exact beq_self_eq_true (digest 3309 ([] ++ msg ++ Vector.toList sk))

def ristretto : Ristretto where
  Point := UInt64
  identity := 0
  add := (· + ·)
  mulScalar := (· * ·)
  fromHash v := Text.fromLeBytes v.toList
  compress p := Vector.ofFn fun i => (Text.toLeBytes p).getD i 0

/-- Polynomials by their coefficients over the integers, committed at the ceremony's point. -/
def kzg : KzgMini where
  Fr := Rat
  ofU64 v := (v.toNat : Rat)
  neg := (- ·)
  sub := (· - ·)
  mul := (· * ·)
  inverse x := if x = 0 then none else some x⁻¹
  Polynomial := List Rat
  zero := []
  new := id
  polyMul p q := p.foldr (fun c acc =>
    (List.range (max q.length (acc.length + 1))).map fun i =>
      c * q.getD i 0 + (if i = 0 then 0 else acc.getD (i - 1) 0)) []
  polyAdd p q := (List.range (max p.length q.length)).map fun i => p.getD i 0 + q.getD i 0
  scale p c := p.map (c * ·)
  coeffs := id
  Ceremony := Rat
  setup _ tau := tau
  G1 := Rat
  commit tau p := p.foldr (fun c acc => c + tau * acc) 0
  openAt tau p x := (p.foldr (fun c acc => c + tau * acc) 0 - p.foldr (fun c acc => c + x * acc) 0) / (tau - x)
  verify tau c x v proof := decide (c - v = proof * (tau - x))
  serializeCompressed x := Text.toLeBytes (UInt64.ofNat x.num.toNat) ++ Text.toLeBytes (UInt64.ofNat x.den)
  deserializeCompressed bs := some (mkRat (Text.fromLeBytes bs).toNat (Text.fromLeBytes (bs.drop 8)).toNat)

/-- Rationals in the place of doubles: exact where the doubles of the engine's defaults are. -/
def f64 : F64 where
  F := Rat
  lit m e := (m : Rat) / (10 : Rat) ^ e
  ofNat n := (n : Rat)
  toUsize x := x.floor.toNat
  toBits x := UInt64.ofNat x.num.toNat
  fromBits w := (w.toNat : Rat)
  epsilon := (1 : Rat) / 2 ^ 52
  neg := (- ·)
  abs x := if x < 0 then -x else x
  sqrt x := mkRat x.num.toNat.sqrt x.den.sqrt
  ceil x := (x.ceil : Rat)
  add := (· + ·)
  sub := (· - ·)
  mul := (· * ·)
  div := (· / ·)
  powf x y := x ^ y.floor.toNat
  max x y := if x < y then y else x
  min x y := if y < x then y else x
  lt x y := decide (x < y)
  le x y := decide (x ≤ y)
  eq x y := decide (x = y)
  sum xs := xs.foldl (· + ·) 0
  parse _ := none
  display x := toString x.floor
  display6 x := toString x.floor

def json : SerdeJson f64.F where
  Value := String
  null := "null"
  ofI64 v := toString v
  ofF64 := f64.display
  ofBool b := toString b
  ofString s := s
  ofVector xs := String.intercalate "," (xs.map f64.display)
  toVec := Text.utf8
  toString := id
  fromSlice bs := .ok (String.ofList (bs.map fun b => Char.ofNat b.toNat))
  fromStr := some
  mapToStringPretty kvs := .ok (String.intercalate "," (kvs.map fun kv => kv.1 ++ ":" ++ kv.2))

/-- The artifact `artifacts/kzg/demo-trusted-setup-v1.json`. -/
def setupArtifact : TrustedSetupArtifact where
  setupId := "demo-trusted-setup-v1"
  curve := "bls12-381"
  maxDegree := 1048576
  tauSeedHex := "8f6a2c9d4e1b7730"
  attestationSha512 := "b1ba68a25d64fb0e29348404c7ef8ece8503ae5bd2eb0d8a172ddbc726d70df6"
    ++ "94cb5f6d323e7435649c35fa365339e93b354262735da11e01c00ad8b17923f1"

end Reference

def Platform.reference : Platform where
  sha256 := Reference.digest 32
  sha512 := Reference.digest 64
  ed25519 := Reference.ed25519
  mldsa65 := Reference.mldsa65
  ristretto := Reference.ristretto
  kzg := Reference.kzg
  f64 := Reference.f64
  json := Reference.json
  manifestDir := "/agenthalo"
  readToString path :=
    if path = "/agenthalo/artifacts/kzg/demo-trusted-setup-v1.json" then .ok "demo-trusted-setup-v1"
    else .error "No such file or directory (os error 2)"
  parseSetupArtifact raw :=
    if raw = "demo-trusted-setup-v1" then .ok Reference.setupArtifact else .error "expected value at line 1 column 1"

theorem Platform.reference_signaturesCorrect : Platform.reference.SignaturesCorrect :=
  ⟨Reference.ed25519_correct, Reference.mldsa65_correct⟩

end AgentHalo
