/-
# The field and the group of the curve have prime size

Lucas's test with certificates: for each of a list of numbers a base and the prime factors of the
number less one.  Small factors are known to be prime; the others have passed the test themselves.
The kernel evaluates the test (`passes`), and `prime_of_passes` says what it shows:
`Curve.prime_p` and `Curve.prime_order`.
-/
import SmartLock.Crypto.Curve
import Mathlib.Data.List.Prime
import Mathlib.NumberTheory.LucasPrimality
import Mathlib.Tactic.NormNum.Prime

namespace SmartLock.Curve

/-! ## Powers -/

/-- A power modulo `m`, by repeated squaring over at most `fuel` bits of the exponent. -/
def powMod (m : ℕ) : ℕ → ℕ → ℕ → ℕ
  | 0, _, _ => 1
  | fuel + 1, u, e =>
      if e = 0 then 1
      else
        let half := powMod m fuel u (e / 2)
        let square := half * half % m
        if e % 2 = 1 then square * u % m else square

/-- Repeated squaring computes the power when the exponent fits. -/
theorem cast_powMod (m u : ℕ) {fuel e : ℕ} (h : e < 2 ^ fuel) :
    (powMod m fuel u e : ZMod m) = (u : ZMod m) ^ e := by
  induction fuel generalizing e with
  | zero =>
      obtain rfl : e = 0 := by simpa using h
      simp [powMod]
  | succ fuel ih =>
      rw [powMod]
      split
      · rename_i hzero
        rw [hzero, Nat.cast_one, pow_zero]
      have hhalf := ih (e := e / 2) (by rw [pow_succ] at h; omega)
      have hsquare : ((powMod m fuel u (e / 2) * powMod m fuel u (e / 2) % m : ℕ) : ZMod m) =
          (u : ZMod m) ^ (2 * (e / 2)) := by
        rw [ZMod.natCast_mod, Nat.cast_mul, hhalf, ← pow_add, two_mul]
      dsimp only
      split
      · rename_i hodd
        rw [ZMod.natCast_mod, Nat.cast_mul, hsquare, ← pow_succ]
        congr 1
        omega
      · rename_i heven
        rw [hsquare]
        congr 1
        omega

/-- The powers of the model are powers modulo `p`. -/
theorem powWithin_eq_powMod (fuel u e : ℕ) : powWithin fuel u e = powMod p fuel u e := by
  induction fuel generalizing e with
  | zero => rfl
  | succ fuel ih =>
      rw [powWithin, powMod, ih]
      rfl

/-! ## Certificates -/

/-- A number, a base whose order modulo it is the number less one, and the prime factors of the
number less one, each as often as it divides. -/
structure Certificate where
  number : ℕ
  base : ℕ
  factors : List ℕ

namespace Certificate

/-- Lucas's test for numbers below 2²⁵⁶, given some numbers that are prime. -/
def test (known : List ℕ) (c : Certificate) : Bool :=
  c.number ≤ 2 ^ 256 && c.factors.prod == c.number - 1 && c.factors.all (· ∈ known) &&
    powMod c.number 256 c.base (c.number - 1) % c.number == 1 % c.number &&
    c.factors.all fun q =>
      powMod c.number 256 c.base ((c.number - 1) / q) % c.number != 1 % c.number

/-- What the test compares are powers modulo the number. -/
theorem powMod_mod_eq_iff (c : Certificate) {e : ℕ} (h : e < 2 ^ 256) :
    powMod c.number 256 c.base e % c.number = 1 % c.number ↔ (c.base : ZMod c.number) ^ e = 1 := by
  rw [← cast_powMod c.number c.base h, ← ZMod.natCast_eq_natCast_iff', Nat.cast_one]

/-- A number that passes the test is prime. -/
theorem prime_of_test {known : List ℕ} (hknown : ∀ q ∈ known, q.Prime) {c : Certificate}
    (h : c.test known = true) : c.number.Prime := by
  simp only [test, Bool.and_eq_true, decide_eq_true_eq, List.all_eq_true, beq_iff_eq,
    bne_iff_ne, ne_eq] at h
  obtain ⟨⟨⟨⟨hsize, hprod⟩, hfactors⟩, hone⟩, hnot⟩ := h
  have hlt : ∀ e, e ≤ c.number - 1 → e < 2 ^ 256 := fun e he => by omega
  refine lucas_primality c.number c.base ((c.powMod_mod_eq_iff (hlt _ le_rfl)).mp hone) ?_
  intro q hq hdvd
  obtain ⟨factor, hfactor, hdvd⟩ := (Prime.dvd_prod_iff hq.prime).mp (hprod ▸ hdvd)
  obtain rfl : q = factor :=
    (Nat.prime_dvd_prime_iff_eq hq (hknown factor (hfactors factor hfactor))).mp hdvd
  exact fun hpow => hnot q hfactor
    ((c.powMod_mod_eq_iff (hlt _ (Nat.div_le_self _ _))).mpr hpow)

/-- All certificates pass the test, each with the help of those before it. -/
def passes (known : List ℕ) : List Certificate → Bool
  | [] => true
  | c :: rest => c.test known && passes (c.number :: known) rest

/-- What passes is prime. -/
theorem prime_of_passes {known : List ℕ} (hknown : ∀ q ∈ known, q.Prime)
    {certificates : List Certificate} (h : passes known certificates = true) :
    ∀ c ∈ certificates, c.number.Prime := by
  induction certificates generalizing known with
  | nil => exact fun c hc => nomatch hc
  | cons first rest ih =>
      obtain ⟨hfirst, hrest⟩ := Bool.and_eq_true_iff.mp h
      have hprime := prime_of_test hknown hfirst
      intro c hc
      rcases List.mem_cons.mp hc with rfl | hc
      · exact hprime
      · refine ih ?_ hrest c hc
        intro q hq
        rcases List.mem_cons.mp hq with rfl | hq
        · exact hprime
        · exact hknown q hq

end Certificate

/-! ## The two primes -/

/-- The small primes among the factors. -/
def smallPrimes : List ℕ :=
  [2, 3, 5, 7, 11, 17, 19, 23, 29, 41, 43, 53, 71, 107, 127, 131, 173, 197, 257, 311, 373, 641, 1297,
    1531, 2411, 3023, 3407, 3677, 3769, 16879, 17449, 18169, 38189, 65537, 78283, 126241, 155317,
    490463, 704251, 3969899, 6700417, 9350987]

/-- They are prime. -/
theorem prime_of_mem_smallPrimes : ∀ q ∈ smallPrimes, q.Prime := by
  simp only [smallPrimes, List.forall_mem_cons, List.not_mem_nil, false_implies, implies_true]
  norm_num

/-- Certificates for the size of the field, for the order of the group, and for their large
factors. -/
def certificates : List Certificate :=
  [⟨204061199, 11, [2, 11, 23, 107, 3769]⟩,
    ⟨34282281433, 17, [2, 2, 2, 3, 7, 204061199]⟩,
    ⟨66417393611, 6, [2, 5, 53, 173, 197, 3677]⟩,
    ⟨11290956913871, 13, [2, 5, 17, 66417393611]⟩,
    ⟨46076956964474543, 5, [2, 23, 18169, 78283, 704251]⟩,
    ⟨774023187263532362759620327192479577272145303, 3,
      [2, 3, 3, 2411, 34282281433, 11290956913871, 46076956964474543]⟩,
    ⟨835945042244614951780389953367877943453916927241, 11,
      [2, 2, 2, 3, 3, 3, 5, 774023187263532362759620327192479577272145303]⟩,
    ⟨p, 6, [2, 3, 5, 5, 17, 257, 641, 1531, 65537, 490463, 6700417,
      835945042244614951780389953367877943453916927241]⟩,
    ⟨187019741, 2, [2, 2, 5, 9350987]⟩,
    ⟨311245691, 2, [2, 5, 7, 17, 29, 29, 311]⟩,
    ⟨622491383, 5, [2, 311245691]⟩,
    ⟨1002328039319, 19, [2, 126241, 3969899]⟩,
    ⟨191039911, 3, [2, 3, 5, 41, 155317]⟩,
    ⟨208150935158385979, 2, [2, 3, 11, 43, 127, 3023, 191039911]⟩,
    ⟨2624747550333869278416773953, 7,
      [2, 2, 2, 2, 2, 2, 3, 3, 1297, 16879, 208150935158385979]⟩,
    ⟨order, 7, [2, 2, 2, 2, 3, 71, 131, 373, 3407, 17449, 38189, 187019741, 622491383,
      1002328039319, 2624747550333869278416773953]⟩]

/-- All of them pass. -/
theorem passes_certificates : Certificate.passes smallPrimes certificates = true := by
  decide +kernel

/-- What the certificates are for is prime. -/
theorem prime_of_mem_certificates {n : ℕ} (h : n ∈ certificates.map Certificate.number) :
    n.Prime := by
  obtain ⟨c, hc, rfl⟩ := List.mem_map.mp h
  exact Certificate.prime_of_passes prime_of_mem_smallPrimes passes_certificates c hc

/-- The size of the field is prime. -/
theorem prime_p : p.Prime := prime_of_mem_certificates (by simp [certificates])

/-- The order of the group is prime. -/
theorem prime_order : order.Prime := prime_of_mem_certificates (by simp [certificates])

end SmartLock.Curve
