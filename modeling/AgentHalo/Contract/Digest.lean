import AgentHalo.Base.Slices
import AgentHalo.Contract.TrustCircuit
import AgentHalo.Credential.Proof
import AgentHalo.Store.Codec

/-!
# The limbs of a digest

A digest crosses three programs as four limbs of 64 bits. All three take the bytes of a limb from low to high. The circuit
also takes the bits of a byte from low to high, though its hasher has the highest first; the client takes the bits of a
byte as they are; the contract puts the last limb in front, where the digest has its first bytes. So the limbs agree for
the digests that read the same from both ends, byte by byte and bit by bit within each byte (`oneConvention_iff`).
-/

namespace AgentHalo.Contract

open Circom Text
open Credential (leNat leNat_lt leNat_inj)
open Slices (pieces sliceChunks)

/-! ### Three ways to the limbs -/

/-- The limbs that the circuit outputs when the hasher outputs the digest. -/
def circuitLimbs (digest : Bytes) : List Nat := (List.range 4).map fun k => (bits2Num (limbBits (digestBits digest) k)).val

theorem pufDigestLimbs_eq {w : TrustWitness} {sha256 : List Fr → List Fr → Prop} (h : TrustAttestation sha256 w)
    {digest : Bytes} (hout : w.hasherOut = digestBits digest) :
    [w.publicSignals.pufDigestLimb0, w.publicSignals.pufDigestLimb1, w.publicSignals.pufDigestLimb2,
      w.publicSignals.pufDigestLimb3].map ZMod.val = circuitLimbs digest := by
  rw [h.pufDigestLimb0, h.pufDigestLimb1, h.pufDigestLimb2, h.pufDigestLimb3, hout]
  rfl

def encodePublicSignals (pufDigest : Vector UInt8 32) (tier : UInt8) (replaySeq : UInt64) : List String :=
  ((sliceChunks 8 pufDigest.toList).take 4).map (fun chunk => toString (fromLeBytes chunk)) ++
    [toString tier, toString replaySeq]

/-- The digest as a word, as its hexadecimal digits are read. -/
def bytes32 (digest : Vector UInt8 32) : Bytes32 :=
  BitVec.ofNat 256 (digest.toList.foldl (fun acc b => acc * 256 + b.toNat) 0)

/-- Client and circuit have the same limbs, and the contract reads the digest from them. -/
def OneConvention (digest : Vector UInt8 32) : Prop :=
  (∀ tier replaySeq, (encodePublicSignals digest tier replaySeq).take 4 = (circuitLimbs digest.toList).map toString) ∧
    decodeDigest ((circuitLimbs digest.toList).map (BitVec.ofNat 256)) = bytes32 digest

/-! ### The limbs as values of bytes -/

theorem leNat_append (front back : Bytes) : leNat (front ++ back) = leNat front + 256 ^ front.length * leNat back := by
  induction front with
  | nil => simp [leNat]
  | cons b front ih =>
    show b.toNat + 256 * leNat (front ++ back) = b.toNat + 256 * leNat front + 256 ^ (front.length + 1) * leNat back
    rw [ih]
    ring

theorem toNat_fromLeBytes {bytes : Bytes} (h : bytes.length ≤ 8) : (fromLeBytes bytes).toNat = leNat bytes := by
  rw [fromLeBytes, List.take_of_length_le h, foldr_shift_or_toNat bytes h]
  clear h
  induction bytes with
  | nil => rfl
  | cons b rest ih =>
    rw [List.map_cons, Nat.ofDigits_cons, ih]
    rfl

def limbs (bytes : Bytes) : List Nat := (pieces 8 4 bytes).map leNat

def reverseBits (b : UInt8) : UInt8 := UInt8.ofNat (Nat.ofDigits 2 (msbBits b))

theorem length_msbBits (b : UInt8) : (msbBits b).length = 8 := by simp [msbBits]

theorem lt_two_of_mem_msbBits {b : UInt8} {d : Nat} (h : d ∈ msbBits b) : d < 2 :=
  lt_two_of_mem_natBits (List.mem_reverse.mp h)

theorem toNat_reverseBits (b : UInt8) : (reverseBits b).toNat = Nat.ofDigits 2 (msbBits b) := by
  have hlt := Nat.ofDigits_lt_base_pow_length (b := 2) (by decide) fun d => lt_two_of_mem_msbBits (b := b)
  rw [length_msbBits] at hlt
  exact UInt8.toNat_ofNat_of_lt' hlt

theorem ofDigits_msbBits (bytes : Bytes) : Nat.ofDigits 2 (bytes.flatMap msbBits) = leNat (bytes.map reverseBits) := by
  induction bytes with
  | nil => rfl
  | cons b rest ih =>
    rw [List.flatMap_cons, Nat.ofDigits_append, ih, length_msbBits, ← toNat_reverseBits]
    rfl

theorem drop_flatMap_msbBits (bytes : Bytes) (k : Nat) :
    (bytes.flatMap msbBits).drop (8 * k) = (bytes.drop k).flatMap msbBits := by
  induction k generalizing bytes with
  | zero => rfl
  | succ k ih =>
    cases bytes with
    | nil => simp
    | cons b rest =>
      rw [List.flatMap_cons, Nat.mul_succ, Nat.add_comm, ← List.drop_drop, List.drop_left' (length_msbBits b), ih]
      rfl

theorem take_flatMap_msbBits (bytes : Bytes) (k : Nat) :
    (bytes.flatMap msbBits).take (8 * k) = (bytes.take k).flatMap msbBits := by
  induction k generalizing bytes with
  | zero => rfl
  | succ k ih =>
    cases bytes with
    | nil => simp
    | cons b rest =>
      rw [List.flatMap_cons, List.take_succ_cons, List.flatMap_cons, ← ih, List.take_append, length_msbBits,
        List.take_of_length_le (by rw [length_msbBits]; omega), show 8 * (k + 1) - 8 = 8 * k by omega]

theorem bits2Num_limbBits (digest : Bytes) (k : Nat) :
    (bits2Num (limbBits (digestBits digest) k)).val = leNat (((digest.drop (8 * k)).take 8).map reverseBits) := by
  have hlt := leNat_lt (((digest.drop (8 * k)).take 8).map reverseBits)
  have hpow : 256 ^ (((digest.drop (8 * k)).take 8).map reverseBits).length ≤ 256 ^ 8 :=
    Nat.pow_le_pow_right (by decide) (by simp)
  rw [limbBits, digestBits, ← List.map_drop, ← List.map_take, show 64 * k = 8 * (8 * k) by omega, drop_flatMap_msbBits,
    show 64 = 8 * 8 by rfl, take_flatMap_msbBits, bits2Num_map_cast, ofDigits_msbBits,
    ZMod.val_natCast_of_lt ((hlt.trans_le hpow).trans (by decide))]

theorem circuitLimbs_eq (digest : Bytes) : circuitLimbs digest = limbs (digest.map reverseBits) := by
  simp [circuitLimbs, limbs, pieces, bits2Num_limbBits, List.range_succ, List.drop_drop, List.map_take, List.map_drop]

theorem take_encodePublicSignals (digest : Vector UInt8 32) (tier : UInt8) (replaySeq : UInt64) :
    (encodePublicSignals digest tier replaySeq).take 4 = (limbs digest.toList).map toString := by
  have hchunks : sliceChunks 8 digest.toList = pieces 8 4 digest.toList := by
    rw [sliceChunks, Vector.length_toList]
    rfl
  rw [encodePublicSignals, hchunks, List.take_of_length_le (Slices.length_pieces 8 4 _).le,
    List.take_left' (by rw [List.length_map, Slices.length_pieces]), limbs, List.map_map]
  refine List.map_congr_left fun chunk hchunk => ?_
  rw [Function.comp_apply, ← toNat_fromLeBytes (Slices.length_le_of_mem_pieces hchunk)]
  rfl

theorem decodeDigest_ofNat {a b c d : Nat} (ha : a < 2 ^ 64) (hb : b < 2 ^ 64) (hc : c < 2 ^ 64) (hd : d < 2 ^ 64) :
    decodeDigest ([a, b, c, d].map (BitVec.ofNat 256)) = BitVec.ofNat 256 (a + 2 ^ 64 * (b + 2 ^ 64 * (c + 2 ^ 64 * d))) := by
  have hlimb {x : Nat} (hx : x < 2 ^ 64) : (uint256 (uint64 (BitVec.ofNat 256 x)) : Uint256) = BitVec.ofNat 256 x := by
    apply BitVec.eq_of_toNat_eq
    simp only [uint256, uint64, BitVec.toNat_setWidth, BitVec.toNat_ofNat]
    omega
  have hword : decodeDigest ([a, b, c, d].map (BitVec.ofNat 256)) = uint256 (uint64 (BitVec.ofNat 256 d)) <<< 192 |||
      uint256 (uint64 (BitVec.ofNat 256 c)) <<< 128 ||| uint256 (uint64 (BitVec.ofNat 256 b)) <<< 64 |||
      uint256 (uint64 (BitVec.ofNat 256 a)) := rfl
  rw [hword, hlimb ha, hlimb hb, hlimb hc, hlimb hd]
  have hor (i high low : Nat) (hlow : low < 2 ^ i) : 2 ^ i * high ||| low = 2 ^ i * high + low :=
    (Nat.two_pow_add_eq_or_of_lt hlow high).symm
  have hshift (x i : Nat) (hx : x * 2 ^ i < 2 ^ 256) : (BitVec.ofNat 256 x <<< i).toNat = 2 ^ i * x := by
    have hpow : x ≤ x * 2 ^ i := Nat.le_mul_of_pos_right x (by positivity)
    rw [BitVec.toNat_shiftLeft, BitVec.toNat_ofNat, Nat.shiftLeft_eq, Nat.mod_eq_of_lt (hpow.trans_lt hx),
      Nat.mod_eq_of_lt hx, mul_comm]
  apply BitVec.eq_of_toNat_eq
  rw [BitVec.toNat_or, BitVec.toNat_or, BitVec.toNat_or, hshift d 192 (by omega), hshift c 128 (by omega),
    hshift b 64 (by omega), BitVec.toNat_ofNat, BitVec.toNat_ofNat, Nat.mod_eq_of_lt (by omega : a < 2 ^ 256),
    Nat.mod_eq_of_lt (by omega), hor 192 d _ (by omega),
    show 2 ^ 192 * d + 2 ^ 128 * c = 2 ^ 128 * (2 ^ 64 * d + c) by ring, hor 128 _ _ (by omega),
    show 2 ^ 128 * (2 ^ 64 * d + c) + 2 ^ 64 * b = 2 ^ 64 * (2 ^ 64 * (2 ^ 64 * d + c) + b) by ring, hor 64 _ _ ha]
  ring

theorem decodeDigest_limbs {bytes : Bytes} (h : bytes.length = 32) :
    decodeDigest ((limbs bytes).map (BitVec.ofNat 256)) = BitVec.ofNat 256 (leNat bytes) := by
  have hlt : ∀ piece ∈ pieces 8 4 bytes, leNat piece < 2 ^ 64 := fun piece hpiece =>
    (leNat_lt piece).trans_le (Nat.pow_le_pow_right (by decide) (Slices.length_le_of_mem_pieces hpiece))
  have hvalue : leNat bytes = leNat (bytes.take 8) + 2 ^ 64 * (leNat ((bytes.drop 8).take 8) +
      2 ^ 64 * (leNat (((bytes.drop 8).drop 8).take 8) + 2 ^ 64 * leNat ((((bytes.drop 8).drop 8).drop 8).take 8))) := by
    have hsplit (rest : Bytes) (hlen : 8 ≤ rest.length) :
        leNat rest = leNat (rest.take 8) + 2 ^ 64 * leNat (rest.drop 8) := by
      conv_lhs => rw [← List.take_append_drop 8 rest, leNat_append, List.length_take_of_le hlen]
      rfl
    rw [hsplit bytes (by omega), hsplit (bytes.drop 8) (by simp [h]), hsplit ((bytes.drop 8).drop 8) (by simp [h]),
      List.take_of_length_le (l := ((bytes.drop 8).drop 8).drop 8) (by simp [h])]
  rw [hvalue]
  exact decodeDigest_ofNat (hlt _ (by simp [pieces])) (hlt _ (by simp [pieces])) (hlt _ (by simp [pieces]))
    (hlt _ (by simp [pieces]))

theorem bytes32_eq (digest : Vector UInt8 32) : bytes32 digest = BitVec.ofNat 256 (leNat digest.toList.reverse) := by
  rw [bytes32, leNat, List.foldr_reverse]
  simp only [mul_comm, add_comm]

theorem ofNat_leNat_inj {a b : Bytes} (ha : a.length = 32) (hb : b.length = 32)
    (h : BitVec.ofNat 256 (leNat a) = BitVec.ofNat 256 (leNat b)) : a = b := by
  have hbound {bytes : Bytes} (hlen : bytes.length = 32) : leNat bytes < 2 ^ 256 := by
    have hlt := leNat_lt bytes
    rw [hlen] at hlt
    exact hlt
  have hmod := congrArg BitVec.toNat h
  rw [BitVec.toNat_ofNat, BitVec.toNat_ofNat, Nat.mod_eq_of_lt (hbound ha), Nat.mod_eq_of_lt (hbound hb)] at hmod
  exact leNat_inj (ha.trans hb.symm) hmod

theorem limbs_inj {a b : Bytes} (ha : a.length = 32) (hb : b.length = 32) (h : limbs a = limbs b) : a = b :=
  ofNat_leNat_inj ha hb (by rw [← decodeDigest_limbs ha, ← decodeDigest_limbs hb, h])

/-- **One digest convention**: the three programs have the same limbs exactly for the digests whose bytes read the same in
both directions and whose bytes each have bits that do. -/
theorem oneConvention_iff (digest : Vector UInt8 32) :
    OneConvention digest ↔ digest.toList.reverse = digest.toList ∧ ∀ b ∈ digest.toList, reverseBits b = b := by
  have hlen : digest.toList.length = 32 := Vector.length_toList
  have hmapLen : (digest.toList.map reverseBits).length = 32 := by rw [List.length_map, hlen]
  have hbits : digest.toList.map reverseBits = digest.toList ↔ ∀ b ∈ digest.toList, reverseBits b = b := by
    simpa using List.map_inj_left (f := reverseBits) (g := id) (l := digest.toList)
  rw [OneConvention, circuitLimbs_eq, decodeDigest_limbs hmapLen, bytes32_eq, ← hbits]
  simp only [take_encodePublicSignals, forall_const]
  constructor
  · rintro ⟨hclient, hcontract⟩
    have hlimbs := List.map_injective_iff.mpr (fun _ _ => toString_nat_inj) hclient
    have hsame := limbs_inj hmapLen hlen hlimbs.symm
    refine ⟨?_, hsame⟩
    rw [hsame] at hcontract
    exact (ofNat_leNat_inj hlen (by rw [List.length_reverse, hlen]) hcontract).symm
  · rintro ⟨hreverse, hsame⟩
    rw [hsame, hreverse]
    exact ⟨rfl, rfl⟩

/-- The client sends other limbs of the hash of the zero response than the circuit outputs. -/
theorem zeroResponseDigest_not_oneConvention : ∃ h : zeroResponseDigest.length = 32,
    ¬ OneConvention ⟨zeroResponseDigest.toArray, h⟩ := by
  refine ⟨rfl, fun hone => ?_⟩
  have hclient := hone.1 0 0
  revert hclient
  decide +kernel

end AgentHalo.Contract
