import AgentHalo.Discovery.Spec
import AgentHalo.Lib.JsonText
import AgentHalo.Pod.Envelope
import Mathlib.Data.Rat.Encodable

/-!
# The payload under the provenance hash

The hashed fields of an envelope as the JSON that `serde_json` writes of them. The text of a payload tells all of its fields,
except that a double that is not finite is written as `null`: envelopes whose values differ in such doubles alone have one
provenance hash (`provenanceHash_binding`). The references enter by their sorted hashes only.
-/

namespace AgentHalo.Pod

open Discovery (isFinite)
open Engine (QueryProof VcBackend)
open JsonText (Json Numeral skipNone)
open Store (TypedValue)
open Text (utf8)

/-- What `serde_json` brings: the structure of its values, and the text of a finite double. -/
structure SerdeText (P : Platform) where
  value : P.json.Value → Json
  formatF64 : P.f64.F → Numeral

variable {P : Platform}

/-- A value has one structure, and a finite double reads back from its text. -/
structure SerdeText.Faithful (S : SerdeText P) : Prop where
  value : Function.Injective S.value
  formatF64 : ∀ x y, isFinite P.f64 x = true → isFinite P.f64 y = true → S.formatF64 x = S.formatF64 y → x = y

/-! ### The JSON of the fields -/

def natJson (n : Nat) : Json := .number (.ofNat n)

def bytesJson (bytes : Bytes) : Json := .array (bytes.map fun b => natJson b.toNat)

def optionJson (value : Option Json) : Json := value.getD .null

variable (S : SerdeText P)

/-- A double that is not finite is written as `null`. -/
def f64Json (x : P.f64.F) : Json := if isFinite P.f64 x then .number (S.formatF64 x) else .null

/-- Tagged next to the content: `tag = "type", content = "data"`. -/
def tagged (tag : String) (data : Json) : Json := .object [("type", .string tag), ("data", data)]

def typedValueJson : TypedValue P → Json
  | .null => .object [("type", .string "null")]
  | .integer v => tagged "integer" (.number (.ofInt v.toInt))
  | .float v => tagged "float" (f64Json S v)
  | .bool v => tagged "bool" (.bool v)
  | .text s => tagged "text" (.string s)
  | .json v => tagged "json" (S.value v)
  | .bytes b => tagged "bytes" (bytesJson b)
  | .vector dims => tagged "vector" (.array (dims.map (f64Json S)))

def backendJson : VcBackend → Json
  | .ipa => .string "Ipa"
  | .kzg => .string "Kzg"
  | .binaryMerkle => .string "BinaryMerkle"

/-- The tag stands among the fields: `tag = "backend"`. -/
def queryProofJson : QueryProof → Json
  | .ipa p => .object [("backend", .string "ipa"), ("index", natJson p.index), ("value", natJson p.value.toNat),
      ("vector", .array (p.vector.map fun v => natJson v.toNat))]
  | .kzg p => .object [("backend", .string "kzg"), ("index", natJson p.index), ("value", natJson p.value.toNat),
      ("degree", natJson p.degree), ("proof_encoded", bytesJson p.proofEncoded)]
  | .binaryMerkle p => .object [("backend", .string "binary_merkle"), ("index", natJson p.index),
      ("leaf_hash", bytesJson p.leafHash.toList), ("path", .array (p.path.map fun hash => bytesJson hash.toList)),
      ("tree_size", natJson p.treeSize)]

def membershipStepJson (step : AnonymousMembershipStep) : Json :=
  .object [("sibling_hash", .string step.siblingHash), ("sibling_is_left", .bool step.siblingIsLeft)]

def membershipProofJson (proof : AnonymousMembershipProof) : Json :=
  .object [("membership_root", .string proof.membershipRoot), ("leaf_hash", .string proof.leafHash),
    ("tree_size", natJson proof.treeSize.toNat), ("leaf_index", natJson proof.leafIndex.toNat),
    ("steps", .array (proof.steps.map membershipStepJson))]

/-- The fields with `skip_serializing_if = "Option::is_none"`. -/
def skippedFields (a : AttestationResult) : List (String × Option Json) :=
  [("groth16_proof", a.groth16Proof.map .string),
    ("groth16_public_inputs", a.groth16PublicInputs.map .string),
    ("tx_hash", a.txHash.map .string),
    ("contract_address", a.contractAddress.map .string),
    ("block_number", a.blockNumber.map fun n => natJson n.toNat),
    ("chain", a.chain.map .string)]

def attestationJson (a : AttestationResult) : Json :=
  .object ([("session_id", optionJson (a.sessionId.map .string)),
    ("blinded_session_ref", optionJson (a.blindedSessionRef.map .string)),
    ("merkle_root", .string a.merkleRoot),
    ("event_count", natJson a.eventCount.toNat),
    ("content_hashes", .array (a.contentHashes.map .string)),
    ("witness_algorithm", .string a.witnessAlgorithm),
    ("attestation_digest", .string a.attestationDigest),
    ("timestamp", natJson a.timestamp.toNat),
    ("anonymous", .bool a.anonymous),
    ("proof_type", .string a.proofType),
    ("anonymous_membership_proof", optionJson (a.anonymousMembershipProof.map membershipProofJson))] ++
    skipNone (skippedFields a))

def EnvelopeHashInput.toJson (input : EnvelopeHashInput P) : Json :=
  .object [("domain", .string input.domain),
    ("version", natJson input.version.toNat),
    ("key", .string input.key),
    ("value", typedValueJson S input.value),
    ("backend", backendJson input.backend),
    ("proof", queryProofJson input.proof),
    ("state_root", .string (hexEncode32 input.stateRoot)),
    ("commit_height", natJson input.commitHeight.toNat),
    ("witness_sigs", .array (input.witnessSigs.map fun sig => .array [.string sig.1, .string sig.2])),
    ("attestation", optionJson (input.attestation.map attestationJson)),
    ("author_puf", optionJson (input.authorPuf.map fun puf => .string (hexEncode32 puf))),
    ("lean_proof_ref", optionJson (input.leanProofRef.map .string)),
    ("upstream_hashes", .array (input.upstreamHashes.map .string))]

/-- `serde_json::to_vec` of the payload, which has no error to give: its maps have strings for keys. -/
def SerdeText.envelopeJson : EnvelopeJson P where
  toVec input := .ok (utf8 (String.ofList (JsonText.text (input.toJson S))))

def ProofEnvelope.hashedText (e : ProofEnvelope P) : Bytes :=
  utf8 provenanceHashDomain ++ [0] ++ utf8 (String.ofList (JsonText.text (e.hashInput.toJson S)))

/-! ### What the JSON tells -/

section Fields

theorem natJson_inj {m n : Nat} (h : natJson m = natJson n) : m = n := Numeral.ofNat_inj (Json.number.inj h)

theorem string_inj : Function.Injective Json.string := fun _ _ => Json.string.inj

theorem array_map_inj {α : Type} {f : α → Json} (hf : Function.Injective f) {l l' : List α}
    (h : Json.array (l.map f) = Json.array (l'.map f)) : l = l' :=
  List.map_injective_iff.mpr hf (Json.array.inj h)

theorem bytesJson_inj : Function.Injective bytesJson := by
  refine fun _ _ => array_map_inj fun a b h => ?_
  exact UInt8.toNat_inj.mp (natJson_inj h)

theorem hashJson_inj : Function.Injective fun hash : NodeHash => bytesJson hash.toList :=
  fun _ _ h => Vector.toList_inj.mp (bytesJson_inj h)

theorem hexEncode32_inj {hash hash' : NodeHash} (h : hexEncode32 hash = hexEncode32 hash') : hash = hash' :=
  Vector.toList_inj.mp (Text.hexEncode_inj h)

theorem object_ne_null (fields : List (String × Json)) : Json.object fields ≠ .null := Json.noConfusion

theorem string_ne_null (s : String) : Json.string s ≠ .null := Json.noConfusion

theorem optionJson_inj {α : Type} {f : α → Json} (hf : Function.Injective f) (hnull : ∀ a, f a ≠ .null) {o o' : Option α}
    (h : optionJson (o.map f) = optionJson (o'.map f)) : o = o' := by
  cases o with
  | none =>
    cases o' with
    | none => rfl
    | some b => exact absurd h.symm (hnull b)
  | some a =>
    cases o' with
    | none => exact absurd h (hnull a)
    | some b => exact congrArg some (hf h)

theorem backendJson_inj {b b' : VcBackend} (h : backendJson b = backendJson b') : b = b' := by
  cases b <;> cases b' <;> first | rfl | exact absurd (Json.string.inj h) (by decide)

theorem queryProofJson_inj {p p' : QueryProof} (h : queryProofJson p = queryProofJson p') : p = p' := by
  have hwords : Function.Injective fun v : UInt64 => natJson v.toNat := fun _ _ h => UInt64.toNat_inj.mp (natJson_inj h)
  cases p with
  | ipa p =>
    cases p' with
    | ipa p' =>
      simp only [queryProofJson, Json.object.injEq, List.cons.injEq, Prod.mk.injEq, true_and, and_true] at h
      obtain ⟨hindex, hvalue, hvector⟩ := h
      cases p
      cases p'
      cases natJson_inj hindex
      cases hwords hvalue
      cases array_map_inj hwords hvector
      rfl
    | _ => simp [queryProofJson] at h
  | kzg p =>
    cases p' with
    | kzg p' =>
      simp only [queryProofJson, Json.object.injEq, List.cons.injEq, Prod.mk.injEq, true_and, and_true] at h
      obtain ⟨hindex, hvalue, hdegree, hproof⟩ := h
      cases p
      cases p'
      cases natJson_inj hindex
      cases hwords hvalue
      cases natJson_inj hdegree
      cases bytesJson_inj hproof
      rfl
    | _ => simp [queryProofJson] at h
  | binaryMerkle p =>
    cases p' with
    | binaryMerkle p' =>
      simp only [queryProofJson, Json.object.injEq, List.cons.injEq, Prod.mk.injEq, true_and, and_true] at h
      obtain ⟨hindex, hleaf, hpath, hsize⟩ := h
      cases p
      cases p'
      cases natJson_inj hindex
      cases hashJson_inj hleaf
      cases array_map_inj hashJson_inj hpath
      cases natJson_inj hsize
      rfl
    | _ => simp [queryProofJson] at h

theorem membershipStepJson_inj : Function.Injective membershipStepJson := by
  intro step step' h
  simp only [membershipStepJson, Json.object.injEq, List.cons.injEq, Prod.mk.injEq, true_and, and_true, Json.string.injEq,
    Json.bool.injEq] at h
  cases step
  cases step'
  rw [AnonymousMembershipStep.mk.injEq]
  exact h

theorem membershipProofJson_inj : Function.Injective membershipProofJson := by
  intro proof proof' h
  simp only [membershipProofJson, Json.object.injEq, List.cons.injEq, Prod.mk.injEq, true_and, and_true, Json.string.injEq] at h
  obtain ⟨hroot, hleaf, hsize, hindex, hsteps⟩ := h
  cases proof
  cases proof'
  rw [AnonymousMembershipProof.mk.injEq]
  exact ⟨hroot, hleaf, UInt64.toNat_inj.mp (natJson_inj hsize), UInt64.toNat_inj.mp (natJson_inj hindex),
    array_map_inj membershipStepJson_inj hsteps⟩

theorem attestationJson_inj : Function.Injective attestationJson := by
  intro a a' h
  have hstrings {o o' : Option String} (h : o.map Json.string = o'.map Json.string) : o = o' :=
    Option.map_injective string_inj h
  have hnumbers {o o' : Option UInt64} (h : (o.map fun n => natJson n.toNat) = o'.map fun n => natJson n.toNat) : o = o' :=
    Option.map_injective (fun _ _ heq => UInt64.toNat_inj.mp (natJson_inj heq)) h
  simp only [attestationJson, Json.object.injEq, List.cons_append, List.nil_append, List.cons.injEq, Prod.mk.injEq, true_and,
    Json.string.injEq, Json.bool.injEq] at h
  obtain ⟨hsession, hblinded, hroot, hcount, hcontents, halgorithm, hdigest, htimestamp, hanonymous, htype, hmembership,
    hskipped⟩ := h
  have hfields : skippedFields a = skippedFields a' := JsonText.skipNone_inj rfl (by simp [skippedFields]) hskipped
  simp only [skippedFields, List.cons.injEq, Prod.mk.injEq, true_and, and_true] at hfields
  obtain ⟨hproof, hinputs, htx, hcontract, hblock, hchain⟩ := hfields
  cases a
  cases a'
  rw [AttestationResult.mk.injEq]
  exact ⟨optionJson_inj string_inj string_ne_null hsession, optionJson_inj string_inj string_ne_null hblinded, hroot,
    UInt64.toNat_inj.mp (natJson_inj hcount), array_map_inj string_inj hcontents, halgorithm, hdigest,
    UInt64.toNat_inj.mp (natJson_inj htimestamp), hanonymous, htype,
    optionJson_inj membershipProofJson_inj (fun _ => object_ne_null _) hmembership, hstrings hproof, hstrings hinputs,
    hstrings htx, hstrings hcontract, hnumbers hblock, hstrings hchain⟩

end Fields

/-! ### Values -/

/-- Two doubles that JSON does not tell apart. -/
def Blurred (x y : P.f64.F) : Prop := x = y ∨ isFinite P.f64 x = false ∧ isFinite P.f64 y = false

/-- Two values that differ, but in doubles that are not finite only. -/
def OnlyNonFinite : TypedValue P → TypedValue P → Prop
  | .float x, .float y => x ≠ y ∧ Blurred x y
  | .vector xs, .vector ys => xs ≠ ys ∧ List.Forall₂ Blurred xs ys
  | _, _ => False

theorem not_onlyNonFinite_self (v : TypedValue P) : ¬ OnlyNonFinite v v := by
  cases v with
  | float x => exact fun h => h.1 rfl
  | vector xs => exact fun h => h.1 rfl
  | _ => exact id

variable {S}

theorem f64Json_eq_iff (hS : S.Faithful) {x y : P.f64.F} : f64Json S x = f64Json S y ↔ Blurred x y := by
  unfold f64Json Blurred
  cases hx : isFinite P.f64 x with
  | true =>
    cases hy : isFinite P.f64 y with
    | true =>
      simp only [if_true, Json.number.injEq]
      refine ⟨fun h => .inl (hS.formatF64 x y hx hy h), ?_⟩
      rintro (rfl | ⟨h, -⟩)
      · rfl
      · cases h
    | false =>
      refine iff_of_false (by simp) ?_
      rintro (rfl | ⟨h, -⟩)
      · rw [hx] at hy
        cases hy
      · cases h
  | false =>
    cases hy : isFinite P.f64 y with
    | true =>
      refine iff_of_false (by simp) ?_
      rintro (rfl | ⟨-, h⟩)
      · rw [hx] at hy
        cases hy
      · cases h
    | false => exact iff_of_true rfl (.inr ⟨rfl, rfl⟩)

theorem map_f64Json_eq_iff (hS : S.Faithful) {xs ys : List P.f64.F} :
    xs.map (f64Json S) = ys.map (f64Json S) ↔ List.Forall₂ Blurred xs ys := by
  induction xs generalizing ys with
  | nil => cases ys <;> simp
  | cons x xs ih =>
    cases ys with
    | nil => simp
    | cons y ys => rw [List.map_cons, List.map_cons, List.cons.injEq, f64Json_eq_iff hS, ih, List.forall₂_cons]

/-- **What the JSON of a value tells**: the value, but for doubles that are not finite. -/
theorem typedValueJson_eq_iff (hS : S.Faithful) {v w : TypedValue P} :
    typedValueJson S v = typedValueJson S w ↔ v = w ∨ OnlyNonFinite v w := by
  cases v with
  | float x =>
    cases w with
    | float y =>
      simp only [typedValueJson, tagged, Json.object.injEq, List.cons.injEq, Prod.mk.injEq, true_and, and_true, f64Json_eq_iff hS,
        OnlyNonFinite, TypedValue.float.injEq]
      refine ⟨fun h => (em (x = y)).imp id fun hne => ⟨hne, h⟩, ?_⟩
      rintro (rfl | ⟨-, h⟩)
      · exact .inl rfl
      · exact h
    | _ => simp [typedValueJson, tagged, OnlyNonFinite]
  | vector xs =>
    cases w with
    | vector ys =>
      simp only [typedValueJson, tagged, Json.object.injEq, List.cons.injEq, Prod.mk.injEq, true_and, and_true,
        Json.array.injEq, map_f64Json_eq_iff hS, OnlyNonFinite, TypedValue.vector.injEq]
      refine ⟨fun h => (em (xs = ys)).imp id fun hne => ⟨hne, h⟩, ?_⟩
      rintro (rfl | ⟨-, h⟩)
      · exact List.forall₂_same.mpr fun x _ => .inl rfl
      · exact h
    | _ => simp [typedValueJson, tagged, OnlyNonFinite]
  | integer x =>
    cases w with
    | integer y =>
      simp only [typedValueJson, tagged, Json.object.injEq, List.cons.injEq, Prod.mk.injEq, true_and, and_true,
        Json.number.injEq, OnlyNonFinite, or_false, TypedValue.integer.injEq]
      exact ⟨fun h => Int64.toInt_inj.mp (Numeral.ofInt_inj h), fun h => by rw [h]⟩
    | _ => simp [typedValueJson, tagged, OnlyNonFinite]
  | json x =>
    cases w with
    | json y => simp [typedValueJson, tagged, OnlyNonFinite, hS.value.eq_iff]
    | _ => simp [typedValueJson, tagged, OnlyNonFinite]
  | bytes b =>
    cases w with
    | bytes b' => simp [typedValueJson, tagged, OnlyNonFinite, bytesJson_inj.eq_iff]
    | _ => simp [typedValueJson, tagged, OnlyNonFinite]
  | _ => cases w <;> simp [typedValueJson, tagged, OnlyNonFinite]

/-! ### Hashes -/

namespace ProofEnvelope

/-- The envelopes agree in all content but the value; of the references, the hashes count, however they are listed. -/
structure SameFrame (e₁ e₂ : ProofEnvelope P) : Prop where
  version : e₁.version = e₂.version
  key : e₁.key = e₂.key
  backend : e₁.backend = e₂.backend
  proof : e₁.proof = e₂.proof
  stateRoot : e₁.stateRoot = e₂.stateRoot
  commitHeight : e₁.commitHeight = e₂.commitHeight
  witnessSigs : e₁.witnessSigs = e₂.witnessSigs
  attestation : e₁.attestation = e₂.attestation
  authorPuf : e₁.authorPuf = e₂.authorPuf
  leanProofRef : e₁.leanProofRef = e₂.leanProofRef
  upstream : (e₁.upstreamEnvelopes.map (·.envelopeHash)).Perm (e₂.upstreamEnvelopes.map (·.envelopeHash))

def SameContent (e₁ e₂ : ProofEnvelope P) : Prop := SameFrame e₁ e₂ ∧ e₁.value = e₂.value

/-- **What the payload tells** of an envelope. -/
theorem toJson_eq_iff {e₁ e₂ : ProofEnvelope P} :
    e₁.hashInput.toJson S = e₂.hashInput.toJson S ↔
      SameFrame e₁ e₂ ∧ typedValueJson S e₁.value = typedValueJson S e₂.value := by
  constructor
  · intro h
    have hsigs : Function.Injective fun sig : String × String => Json.array [.string sig.1, .string sig.2] := by
      intro sig sig' hsig
      simp only [Json.array.injEq, List.cons.injEq, Json.string.injEq, and_true] at hsig
      exact Prod.ext hsig.1 hsig.2
    have hpuf : Function.Injective fun puf : NodeHash => Json.string (hexEncode32 puf) :=
      fun _ _ heq => hexEncode32_inj (Json.string.inj heq)
    simp only [hashInput, EnvelopeHashInput.toJson, Json.object.injEq, List.cons.injEq, Prod.mk.injEq, true_and, and_true,
      Json.string.injEq] at h
    obtain ⟨hversion, hkey, hvalue, hbackend, hproof, hroot, hheight, hwitness, hattestation, hauthor, hlean, hupstream⟩ := h
    refine ⟨⟨UInt32.toNat_inj.mp (natJson_inj hversion), hkey, backendJson_inj hbackend, queryProofJson_inj hproof,
      hexEncode32_inj hroot, UInt64.toNat_inj.mp (natJson_inj hheight), array_map_inj hsigs hwitness,
      optionJson_inj attestationJson_inj (fun _ => object_ne_null _) hattestation,
      optionJson_inj hpuf (fun _ => string_ne_null _) hauthor, optionJson_inj string_inj string_ne_null hlean, ?_⟩, hvalue⟩
    exact canonicalUpstreamHashes_eq_iff.mp (array_map_inj string_inj hupstream)
  · rintro ⟨h, hvalue⟩
    simp only [hashInput, EnvelopeHashInput.toJson, h.version, h.key, hvalue, h.backend, h.proof, h.stateRoot, h.commitHeight,
      h.witnessSigs, h.attestation, h.authorPuf, h.leanProofRef, canonicalUpstreamHashes_eq_iff.mpr h.upstream]

theorem hashedText_eq_iff {e₁ e₂ : ProofEnvelope P} :
    e₁.hashedText S = e₂.hashedText S ↔ e₁.hashInput.toJson S = e₂.hashInput.toJson S := by
  constructor
  · intro h
    have htext := Store.utf8_inj (List.append_cancel_left h)
    have hchars := congrArg String.toList htext
    rw [String.toList_ofList, String.toList_ofList] at hchars
    exact JsonText.text_inj hchars
  · intro h
    rw [hashedText, h]
    rfl

theorem provenanceHash_eq (e : ProofEnvelope P) :
    e.provenanceHash S.envelopeJson = .ok (P.sha256 (e.hashedText S)) := rfl

/-- **The provenance hash is canonical and binding**, unless the envelopes differ in doubles that are not finite only. -/
theorem provenanceHash_binding (hS : S.Faithful) {e₁ e₂ : ProofEnvelope P}
    (hhash : P.sha256 (e₁.hashedText S) = P.sha256 (e₂.hashedText S) → e₁.hashedText S = e₂.hashedText S) :
    (e₁.provenanceHash S.envelopeJson = e₂.provenanceHash S.envelopeJson ↔ SameContent e₁ e₂) ↔
      ¬ (SameFrame e₁ e₂ ∧ OnlyNonFinite e₁.value e₂.value) := by
  have hequal : e₁.provenanceHash S.envelopeJson = e₂.provenanceHash S.envelopeJson ↔
      SameFrame e₁ e₂ ∧ (e₁.value = e₂.value ∨ OnlyNonFinite e₁.value e₂.value) := by
    rw [provenanceHash_eq, provenanceHash_eq, Except.ok.injEq, ← typedValueJson_eq_iff hS, ← toJson_eq_iff,
      ← hashedText_eq_iff]
    exact ⟨hhash, congrArg _⟩
  rw [hequal, SameContent]
  constructor
  · rintro h ⟨hframe, honly⟩
    rw [(h.mp ⟨hframe, .inr honly⟩).2] at honly
    exact not_onlyNonFinite_self _ honly
  · intro h
    refine ⟨fun ⟨hframe, hvalue⟩ => ⟨hframe, hvalue.resolve_right fun honly => h ⟨hframe, honly⟩⟩, fun ⟨hframe, hvalue⟩ => ?_⟩
    exact ⟨hframe, .inl hvalue⟩

end ProofEnvelope

/-! ### Envelopes to compute with -/

instance : Encodable Platform.reference.f64.F := (inferInstance : Encodable Rat)

/-- The values are strings, and finite doubles are written by their place in an enumeration. -/
def SerdeText.reference : SerdeText .reference where
  value s := .string s
  formatF64 x := .ofNat (Encodable.encode x)

theorem SerdeText.reference_faithful : SerdeText.reference.Faithful where
  value _ _ h := Json.string.inj h
  formatF64 _ _ _ _ h := Encodable.encode_injective (Numeral.ofNat_inj h)

namespace ProofEnvelope

def ofBits (bits : UInt64) : TypedValue .reference := .float (Platform.reference.f64.fromBits bits)

/-- The two infinities have one provenance hash. -/
theorem provenanceHash_infinities : SerdeText.reference.Faithful ∧
    ¬ ((ofFive (ofBits 0x7ff0000000000000)).provenanceHash SerdeText.reference.envelopeJson =
        (ofFive (ofBits 0xfff0000000000000)).provenanceHash SerdeText.reference.envelopeJson ↔
      SameContent (ofFive (ofBits 0x7ff0000000000000)) (ofFive (ofBits 0xfff0000000000000))) := by
  have hplus : isFinite Platform.reference.f64 (Platform.reference.f64.fromBits 0x7ff0000000000000) = false := by
    decide
  have hminus : isFinite Platform.reference.f64 (Platform.reference.f64.fromBits 0xfff0000000000000) = false := by
    decide
  have hjson : typedValueJson SerdeText.reference (ofBits 0x7ff0000000000000) =
      typedValueJson SerdeText.reference (ofBits 0xfff0000000000000) := by
    simp only [ofBits, typedValueJson, f64Json, hplus, hminus, Bool.false_eq_true, if_false]
  have hframe : SameFrame (ofFive (ofBits 0x7ff0000000000000)) (ofFive (ofBits 0xfff0000000000000)) :=
    ⟨rfl, rfl, rfl, rfl, rfl, rfl, rfl, rfl, rfl, rfl, .refl _⟩
  refine ⟨SerdeText.reference_faithful, fun h => ?_⟩
  have hvalue := (h.mp (congrArg (Except.ok <| Platform.reference.sha256 ·)
    (hashedText_eq_iff.mpr (toJson_eq_iff.mpr ⟨hframe, hjson⟩)))).2
  have hbits := congrArg Platform.reference.f64.toBits (TypedValue.float.inj hvalue)
  exact absurd hbits (by decide)

def ofReferences (references : List EnvelopeRef) : ProofEnvelope .reference :=
  { ofFive (.integer 5) with upstreamEnvelopes := references }

theorem provenanceHash_binding_references :
    (ofReferences [⟨Vector.replicate 32 1, some "a", some 1⟩, ⟨Vector.replicate 32 2, none, none⟩]).provenanceHash
        SerdeText.reference.envelopeJson =
      ({ ofReferences [⟨Vector.replicate 32 2, some "b", some 2⟩, ⟨Vector.replicate 32 1, none, none⟩] with
          grantToken := some "grant", createdAt := 7 } : ProofEnvelope .reference).provenanceHash
        SerdeText.reference.envelopeJson := by
  have hframe : SameFrame (ofReferences [⟨Vector.replicate 32 1, some "a", some 1⟩, ⟨Vector.replicate 32 2, none, none⟩])
      { ofReferences [⟨Vector.replicate 32 2, some "b", some 2⟩, ⟨Vector.replicate 32 1, none, none⟩] with
        grantToken := some "grant", createdAt := 7 } :=
    ⟨rfl, rfl, rfl, rfl, rfl, rfl, rfl, rfl, rfl, rfl, .swap _ _ _⟩
  have htexts := hashedText_eq_iff (S := SerdeText.reference) |>.mpr (toJson_eq_iff.mpr ⟨hframe, rfl⟩)
  have hbinding := (provenanceHash_binding SerdeText.reference_faithful fun _ => htexts).mpr
    fun h => not_onlyNonFinite_self _ h.2
  exact hbinding.mpr ⟨hframe, rfl⟩

end ProofEnvelope

end AgentHalo.Pod
