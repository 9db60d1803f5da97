import Mathlib.NumberTheory.LucasPrimality
import Mathlib.Tactic

/-!
# The scalar field of BN254

The order of the curve is prime. The proof goes up from small primes: each of the numbers below is certified by the
factors of the number before it, which are small or were certified already.
-/

/-!
## Primes that are too large to divide

A number is prime if some element has it less one as its order, which needs the prime factors of that number
(`lucas_primality`). `certifies` is this test as a computation on numbers, fast enough for the kernel: powers are taken
digit by digit of the exponent.
-/

namespace Pratt

/-- `a ^ n % m` for an exponent below `2 ^ bits`. -/
def powMod (m a : Nat) : Nat → Nat → Nat
  | 0, _ => 1 % m
  | bits + 1, n =>
    let half := powMod m a bits (n / 2)
    half * half * (if n % 2 = 1 then a else 1) % m

theorem powMod_eq (m a : Nat) {bits n : Nat} (h : n < 2 ^ bits) : powMod m a bits n = a ^ n % m := by
  induction bits generalizing n with
  | zero =>
    obtain rfl : n = 0 := by simpa using h
    rfl
  | succ bits ih =>
    have hhalf : n / 2 < 2 ^ bits := by
      rw [Nat.pow_succ] at h
      omega
    have hpow : a ^ n = a ^ (n / 2) * a ^ (n / 2) * (if n % 2 = 1 then a else 1) := by
      conv_lhs => rw [← Nat.div_add_mod n 2, pow_add, two_mul, pow_add]
      rcases Nat.mod_two_eq_zero_or_one n with hn | hn <;> simp [hn]
    show powMod m a bits (n / 2) * powMod m a bits (n / 2) * (if n % 2 = 1 then a else 1) % m = a ^ n % m
    rw [ih hhalf, hpow, Nat.mul_mod, ← Nat.mul_mod (a ^ (n / 2)), ← Nat.mul_mod]

/-- The powers of `a` say that its order is `p - 1`, which has the given factors with their exponents. -/
def certifies (p a : Nat) (factors : List (Nat × Nat)) : Bool :=
  (factors.map fun f => f.1 ^ f.2).prod == p - 1 && powMod p a (p.log2 + 1) (p - 1) == 1 &&
    factors.all fun f => powMod p a (p.log2 + 1) ((p - 1) / f.1) != 1

theorem natCast_pow_eq_one_iff {p a n : Nat} (hp : 1 < p) (hn : n < p) :
    (a : ZMod p) ^ n = 1 ↔ powMod p a (p.log2 + 1) n = 1 := by
  rw [powMod_eq p a (hn.trans Nat.lt_log2_self), ← Nat.cast_pow, ← Nat.cast_one, ZMod.natCast_eq_natCast_iff',
    Nat.mod_eq_of_lt hp]

theorem exists_factor {q : Nat} (hq : q.Prime) {factors : List (Nat × Nat)} (hprime : ∀ f ∈ factors, f.1.Prime)
    (h : q ∣ (factors.map fun f => f.1 ^ f.2).prod) : ∃ f ∈ factors, f.1 = q := by
  obtain ⟨_, hmem, hdvd⟩ := (Nat.Prime.prime hq).dvd_prod_iff.mp h
  obtain ⟨f, hf, rfl⟩ := List.mem_map.mp hmem
  exact ⟨f, hf, ((Nat.prime_dvd_prime_iff_eq hq (hprime f hf)).mp (hq.dvd_of_dvd_pow hdvd)).symm⟩

theorem prime_of_certifies {p : Nat} (a : Nat) (factors : List (Nat × Nat)) (hp : 1 < p)
    (hprime : ∀ f ∈ factors, f.1.Prime) (h : certifies p a factors = true) : p.Prime := by
  simp only [certifies, Bool.and_eq_true, beq_iff_eq, List.all_eq_true, bne_iff_ne, ne_eq] at h
  obtain ⟨⟨hprod, hone⟩, hne⟩ := h
  refine lucas_primality p a ((natCast_pow_eq_one_iff hp (by omega)).mpr hone) fun q hq hdvd => ?_
  obtain ⟨f, hf, rfl⟩ := exists_factor hq hprime (hprod ▸ hdvd)
  have hlt : (p - 1) / f.1 < p := (Nat.div_le_self _ _).trans_lt (by omega)
  exact fun hpow => hne f hf ((natCast_pow_eq_one_iff hp hlt).mp hpow)

end Pratt

namespace Bn254

def scalarModulus : Nat := 21888242871839275222246405745257275088548364400416034343698204186575808495617

def smallPrimes : List Nat :=
  [2, 3, 5, 7, 11, 13, 19, 29, 83, 107, 229, 379, 661, 823, 853, 983, 1637, 3691, 4999, 11003, 41927, 93001, 237073]

theorem prime_of_mem_smallPrimes : ∀ q ∈ smallPrimes, q.Prime := by
  intro q hq
  simp only [smallPrimes, List.mem_cons, List.not_mem_nil, or_false] at hq
  rcases hq with rfl | rfl | rfl | rfl | rfl | rfl | rfl | rfl | rfl | rfl | rfl | rfl | rfl | rfl | rfl | rfl | rfl | rfl |
    rfl | rfl | rfl | rfl | rfl <;> norm_num

theorem prime_of_factors {certified : List Nat} (hcertified : ∀ q ∈ certified, q.Prime) {factors : List (Nat × Nat)}
    (h : (factors.all fun f => smallPrimes.contains f.1 || certified.contains f.1) = true) :
    ∀ f ∈ factors, f.1.Prime := by
  intro f hf
  have hor := List.all_eq_true.mp h f hf
  rw [Bool.or_eq_true, List.contains_iff_mem, List.contains_iff_mem] at hor
  exact hor.elim (prime_of_mem_smallPrimes f.1) (hcertified f.1)

/-- The primes that are certified, each with an element and with factors that are small or stand before it. -/
def certificates : List (Nat × Nat × List (Nat × Nat)) :=
  [(405928799, 22, [(2, 1), (11, 1), (3691, 1), (4999, 1)]),
    (639533339, 2, [(2, 1), (229, 1), (853, 1), (1637, 1)]),
    (1593227, 2, [(2, 1), (19, 1), (41927, 1)]),
    (12048837557, 2, [(2, 2), (7, 2), (661, 1), (93001, 1)]),
    (5156902474397, 2, [(2, 2), (107, 1), (12048837557, 1)]),
    (1670836401704629, 2, [(2, 2), (3, 4), (5156902474397, 1)]),
    (65865678001877903, 5, [(2, 1), (83, 1), (379, 1), (1637, 1), (639533339, 1)]),
    (13818364434197438864469338081, 3, [(2, 5), (5, 1), (823, 1), (1593227, 1), (65865678001877903, 1)]),
    (scalarModulus, 5, [(2, 28), (3, 2), (13, 1), (29, 1), (983, 1), (11003, 1), (237073, 1), (405928799, 1),
      (1670836401704629, 1), (13818364434197438864469338081, 1)])]

/-- The list is in order: a certificate uses only what stands before it. -/
def wellFounded : List Nat → List (Nat × Nat × List (Nat × Nat)) → Bool
  | _, [] => true
  | certified, (p, a, factors) :: rest =>
    decide (1 < p) && Pratt.certifies p a factors &&
      factors.all (fun f => smallPrimes.contains f.1 || certified.contains f.1) && wellFounded (p :: certified) rest

theorem prime_of_wellFounded {rest : List (Nat × Nat × List (Nat × Nat))} {certified : List Nat}
    (hcertified : ∀ q ∈ certified, q.Prime) (h : wellFounded certified rest = true) : ∀ c ∈ rest, c.1.Prime := by
  induction rest generalizing certified with
  | nil => exact List.forall_mem_nil _
  | cons c rest ih =>
    obtain ⟨p, a, factors⟩ := c
    simp only [wellFounded, Bool.and_eq_true, decide_eq_true_eq] at h
    obtain ⟨⟨⟨hp, hcertifies⟩, hfactors⟩, hrest⟩ := h
    have hprime := Pratt.prime_of_certifies a factors hp (prime_of_factors hcertified hfactors) hcertifies
    exact List.forall_mem_cons.mpr ⟨hprime, ih (List.forall_mem_cons.mpr ⟨hprime, hcertified⟩) hrest⟩

theorem prime_of_mem_certificates : ∀ c ∈ certificates, c.1.Prime := by
  refine prime_of_wellFounded (List.forall_mem_nil _) ?_
  decide +kernel

theorem prime_scalarModulus : scalarModulus.Prime := by
  have hlast : certificates[8]? = some (scalarModulus, 5, [(2, 28), (3, 2), (13, 1), (29, 1), (983, 1), (11003, 1),
    (237073, 1), (405928799, 1), (1670836401704629, 1), (13818364434197438864469338081, 1)]) := rfl
  exact prime_of_mem_certificates _ (List.mem_of_getElem? hlast)

instance : Fact scalarModulus.Prime := ⟨prime_scalarModulus⟩

theorem two_pow_lt_scalarModulus : 2 ^ 253 < scalarModulus := by decide

end Bn254
