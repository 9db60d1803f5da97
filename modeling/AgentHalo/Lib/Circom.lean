import Mathlib.Tactic
import Mathlib.Data.ZMod.Basic
import Mathlib.Data.Nat.Digits.Lemmas

/-!
# Bits and comparisons in a prime field

Gadgets of the circom library, as what their constraints say. `Num2Bits` is satisfiable for the elements below `2 ^ n` and
for no others. The comparators shift a difference by `2 ^ n` and decompose it, so each accepts one interval of the field,
whatever its inputs are (`LessThan.out_eq_one_iff`): the interval has `2 ^ n` elements, the shift itself among them.
-/

/-!
## Rank-one constraint systems

A constraint says that the product of two linear combinations of the variables is a third. A system is what a prover has
to satisfy, and the values of all its variables are the prover's to choose: what a system enforces is what follows from
its constraints alone.

An order between numbers is often encoded by a witness for their difference. In a prime field every difference exists, so
the encoding says nothing until the witness is bounded (`val_le_iff_of_add_eq`).
-/

namespace R1cs

inductive Variable (V : Type*) where
  | one
  | var (v : V)

instance {V : Type*} : Coe V (Variable V) := ⟨.var⟩

/-- The value of a variable under an assignment; `one` is always 1. -/
def Variable.value {F V : Type*} [One F] (z : V → F) : Variable V → F
  | one => 1
  | var v => z v

/-- Variables with their coefficients. -/
structure LinearCombination (F V : Type*) where
  terms : List (F × Variable V)

section

variable {F V : Type*}

namespace LinearCombination

def empty : LinearCombination F V := ⟨[]⟩

def add [One F] (l : LinearCombination F V) (x : Variable V) : LinearCombination F V := ⟨l.terms ++ [(1, x)]⟩

def sub [Ring F] (l : LinearCombination F V) (x : Variable V) : LinearCombination F V := ⟨l.terms ++ [(-1, x)]⟩

def eval [Ring F] (z : V → F) (l : LinearCombination F V) : F := (l.terms.map fun term => term.1 * term.2.value z).sum

variable [Ring F] (z : V → F) (l : LinearCombination F V) (x : Variable V)

@[simp] theorem eval_empty : (empty : LinearCombination F V).eval z = 0 := rfl

@[simp] theorem eval_add : (l.add x).eval z = l.eval z + x.value z := by simp [eval, add]

@[simp] theorem eval_sub : (l.sub x).eval z = l.eval z - x.value z := by simp [eval, sub, sub_eq_add_neg]

end LinearCombination

@[simp] theorem Variable.value_one [One F] (z : V → F) : (one : Variable V).value z = 1 := rfl

@[simp] theorem Variable.value_var [One F] (z : V → F) (v : V) : (var v).value z = z v := rfl

/-- `a * b = c`. -/
structure Constraint (F V : Type*) where
  a : LinearCombination F V
  b : LinearCombination F V
  c : LinearCombination F V

variable [Ring F]

def Constraint.Holds (constraint : Constraint F V) (z : V → F) : Prop :=
  constraint.a.eval z * constraint.b.eval z = constraint.c.eval z

/-- The assignment meets every constraint of the system. -/
def Satisfies (system : List (Constraint F V)) (z : V → F) : Prop := ∀ constraint ∈ system, constraint.Holds z

theorem satisfies_cons {constraint : Constraint F V} {system : List (Constraint F V)} :
    Satisfies (constraint :: system) z ↔ constraint.Holds z ∧ Satisfies system z := List.forall_mem_cons

theorem satisfies_append {front back : List (Constraint F V)} :
    Satisfies (front ++ back) z ↔ Satisfies front z ∧ Satisfies back z := List.forall_mem_append

@[simp] theorem satisfies_nil (z : V → F) : Satisfies ([] : List (Constraint F V)) z := by simp [Satisfies]

theorem satisfies_map {I : Type*} {f : I → Constraint F V} {indices : List I} :
    Satisfies (indices.map f) z ↔ ∀ i ∈ indices, (f i).Holds z := List.forall_mem_map

instance [DecidableEq F] (system : List (Constraint F V)) (z : V → F) : Decidable (Satisfies system z) :=
  inferInstanceAs (Decidable (∀ constraint ∈ system, constraint.a.eval z * constraint.b.eval z = constraint.c.eval z))

end

theorem val_le_iff_of_add_eq {p n : Nat} [NeZero p] {a b d : ZMod p} (h : a + d = b) (ha : a.val ≤ n) (hb : b.val < n)
    (hp : n + n ≤ p) : a.val ≤ b.val ↔ d.val < n := by
  constructor
  · intro hle
    have hd : d = b - a := by rw [← h, add_sub_cancel_left]
    rw [hd, ZMod.val_sub hle]
    omega
  · intro hd
    rw [← h, ZMod.val_add_of_lt (by omega)]
    omega

end R1cs

namespace Circom

/-! ### Binary digits of fixed length -/

/-- The `n` lowest binary digits, lowest first. -/
def natBits : Nat → Nat → List Nat
  | 0, _ => []
  | n + 1, k => k % 2 :: natBits n (k / 2)

@[simp] theorem length_natBits (n k : Nat) : (natBits n k).length = n := by
  induction n generalizing k with
  | zero => rfl
  | succ n ih => simp [natBits, ih]

theorem lt_two_of_mem_natBits {n k d : Nat} (h : d ∈ natBits n k) : d < 2 := by
  induction n generalizing k with
  | zero => cases h
  | succ n ih =>
    obtain rfl | hrest := List.mem_cons.mp h
    · exact Nat.mod_lt k Nat.two_pos
    · exact ih hrest

theorem ofDigits_natBits {n k : Nat} (h : k < 2 ^ n) : Nat.ofDigits 2 (natBits n k) = k := by
  induction n generalizing k with
  | zero =>
    obtain rfl : k = 0 := by simpa using h
    rfl
  | succ n ih =>
    have hhalf : k / 2 < 2 ^ n := by
      rw [Nat.pow_succ] at h
      omega
    rw [natBits, Nat.ofDigits_cons, ih hhalf]
    exact Nat.mod_add_div k 2

/-! ### The gadgets -/

section Gadgets

variable {F : Type*} [Ring F]

/-- `Bits2Num`: the number of the bits, lowest first. -/
def bits2Num (bits : List F) : F := bits.foldr (fun b rest => b + 2 * rest) 0

/-- `Num2Bits(n)`. -/
structure Num2Bits (n : Nat) (value : F) (bits : List F) : Prop where
  length : bits.length = n
  boolean : ∀ b ∈ bits, b * (b - 1) = 0
  sum : bits2Num bits = value

/-- `LessThan(n)`; the bits are those of its `Num2Bits(n + 1)`. -/
structure LessThan (n : Nat) (a b out : F) (bits : List F) : Prop where
  n2b : Num2Bits (n + 1) (a + 2 ^ n - b) bits
  out : out = 1 - bits.getD n 0

/-- `LessEqThan(n)`. -/
def LessEqThan (n : Nat) (a b out : F) (bits : List F) : Prop := LessThan n a (b + 1) out bits

/-- `GreaterThan(n)`. -/
def GreaterThan (n : Nat) (a b out : F) (bits : List F) : Prop := LessThan n b a out bits

/-- `GreaterEqThan(n)`. -/
def GreaterEqThan (n : Nat) (a b out : F) (bits : List F) : Prop := LessThan n b (a + 1) out bits

theorem bits2Num_map_cast (digits : List Nat) : bits2Num (digits.map (Nat.cast : Nat → F)) = (Nat.ofDigits 2 digits : Nat) := by
  induction digits with
  | nil => simp [bits2Num]
  | cons d rest ih =>
    rw [List.map_cons, bits2Num, List.foldr_cons, ← bits2Num, ih, Nat.ofDigits_cons]
    push_cast
    rfl

theorem num2Bits_natBits {n k : Nat} (h : k < 2 ^ n) : Num2Bits n (k : F) ((natBits n k).map (Nat.cast : Nat → F)) where
  length := by simp
  boolean b hb := by
    obtain ⟨d, hd, rfl⟩ := List.mem_map.mp hb
    have hlt := lt_two_of_mem_natBits hd
    interval_cases d <;> simp
  sum := by rw [bits2Num_map_cast, ofDigits_natBits h]

end Gadgets

/-! ### Over a prime field -/

section Prime

variable {p : Nat} [Fact p.Prime] {n : Nat} {v a b out : ZMod p} {bits : List (ZMod p)}

/-- The number of the bits, not reduced. -/
def bitsNat (bits : List (ZMod p)) : Nat := Nat.ofDigits 2 (bits.map ZMod.val)

theorem cast_bitsNat (bits : List (ZMod p)) : (bitsNat bits : ZMod p) = bits2Num bits := by
  rw [bitsNat, ← bits2Num_map_cast, List.map_map]
  congr 1
  exact (List.map_congr_left fun b _ => ZMod.natCast_zmod_val b).trans (List.map_id bits)

theorem val_lt_two {b : ZMod p} (h : b * (b - 1) = 0) : b.val < 2 := by
  have hp : Fact (1 < p) := ⟨(Fact.out : p.Prime).one_lt⟩
  rcases mul_eq_zero.mp h with hb | hb
  · rw [hb, ZMod.val_zero]
    omega
  · rw [sub_eq_zero.mp hb, ZMod.val_one]
    omega

theorem bitsNat_lt {bits : List (ZMod p)} (h : ∀ b ∈ bits, b * (b - 1) = 0) : bitsNat bits < 2 ^ bits.length := by
  have hdigits : ∀ d ∈ bits.map ZMod.val, d < 2 := by
    intro d hd
    obtain ⟨b, hb, rfl⟩ := List.mem_map.mp hd
    exact val_lt_two (h b hb)
  have hlt := Nat.ofDigits_lt_base_pow_length (b := 2) (by decide) hdigits
  rwa [List.length_map] at hlt

theorem Num2Bits.val (h : Num2Bits n v bits) (hp : 2 ^ n ≤ p) : v.val = bitsNat bits := by
  have hlt := bitsNat_lt h.boolean
  rw [h.length] at hlt
  rw [← h.sum, ← cast_bitsNat, ZMod.val_natCast_of_lt (hlt.trans_le hp)]

theorem LessThan.out_eq_one_iff (h : LessThan n a b out bits) (hp : 2 ^ (n + 1) ≤ p) :
    out = 1 ↔ (a + 2 ^ n - b).val < 2 ^ n := by
  obtain ⟨front, top, rfl⟩ : ∃ front top, bits = front ++ [top] := by
    have hne : bits ≠ [] := List.ne_nil_of_length_eq_add_one h.n2b.length
    exact ⟨bits.dropLast, bits.getLast hne, (List.dropLast_append_getLast hne).symm⟩
  have hlen : front.length = n := by simpa using h.n2b.length
  have htop : (front ++ [top]).getD n 0 = top := by rw [← hlen]; simp
  have hbool := List.forall_mem_append.mp h.n2b.boolean
  have hlow := bitsNat_lt hbool.1
  have hhigh := val_lt_two (hbool.2 top (by simp))
  have hval : (a + 2 ^ n - b).val = bitsNat front + 2 ^ n * top.val := by
    rw [h.n2b.val hp]
    simp [bitsNat, Nat.ofDigits_append, hlen]
  rw [hlen] at hlow
  rw [h.out, htop, hval, sub_eq_self, ← ZMod.val_eq_zero]
  constructor
  · intro hzero
    rw [hzero]
    omega
  · intro hlt
    by_contra hne
    have hone : top.val = 1 := by omega
    rw [hone] at hlt
    omega

theorem val_natCast_sub_lt_iff {k : Nat} (hk : k < p) : ((k : ZMod p) - v).val < k ↔ 1 ≤ v.val ∧ v.val ≤ k := by
  have hlt := ZMod.val_lt v
  rcases Nat.lt_or_ge k v.val with hbig | hsmall
  · have hcast : (k : ZMod p) - v = ((p + k - v.val : Nat) : ZMod p) := by
      rw [Nat.cast_sub (by omega), Nat.cast_add, ZMod.natCast_self, zero_add, ZMod.natCast_zmod_val]
    rw [hcast, ZMod.val_natCast_of_lt (by omega)]
    omega
  · have hcast : (k : ZMod p) - v = ((k - v.val : Nat) : ZMod p) := by
      rw [Nat.cast_sub hsmall, ZMod.natCast_zmod_val]
    rw [hcast, ZMod.val_natCast_of_lt (by omega)]
    omega

/-- The bits that the generator of witnesses computes for a comparator. -/
def lessThanBits (n : Nat) (a b : ZMod p) : List (ZMod p) := (natBits (n + 1) (a + 2 ^ n - b).val).map Nat.cast

theorem lessThan_lessThanBits (hp : 2 ^ (n + 1) ≤ p) (hlt : (a + 2 ^ n - b).val < 2 ^ n) :
    LessThan n a b 1 (lessThanBits n a b) := by
  have hbits := num2Bits_natBits (F := ZMod p) (hlt.trans (Nat.pow_lt_pow_right Nat.one_lt_two n.lt_succ_self))
  rw [ZMod.natCast_zmod_val] at hbits
  have hless : LessThan n a b _ (lessThanBits n a b) := ⟨hbits, rfl⟩
  rwa [(hless.out_eq_one_iff hp).mpr hlt] at hless

end Prime

end Circom
