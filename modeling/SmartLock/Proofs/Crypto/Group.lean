/-
# The points of the curve form a group

The arithmetic on Jacobian coordinates is that of the group of a Weierstrass curve over the field of
`p` elements.  `Point.Represents` ties the coordinates to a point of the group; addition, doubling
and multiples keep it (`Represents.add`, `Represents.double`, `Represents.smul`), and so does the
way over affine coordinates (`Represents.ofAffine?_affine`).  The generator has the order that it is
said to have (`addOrderOf_of_represents_base`).
-/
import SmartLock.Proofs.Crypto.Primes
import Mathlib.AlgebraicGeometry.EllipticCurve.Jacobian.Point
import Mathlib.FieldTheory.Finite.Basic

namespace SmartLock.Curve

open WeierstrassCurve Jacobian

/-! ## The field -/

instance : Fact p.Prime := ⟨prime_p⟩

theorem mul_lt (u v : ℕ) : mul u v < p := Nat.mod_lt _ prime_p.pos

theorem sub_lt (u v : ℕ) : sub u v < p := Nat.mod_lt _ prime_p.pos

/-- Products are those of the field. -/
@[simp] theorem cast_mul (u v : ℕ) : (mul u v : ZMod p) = u * v := by
  rw [mul, ZMod.natCast_mod, Nat.cast_mul]

/-- Differences are those of the field. -/
theorem cast_sub (u : ℕ) {v : ℕ} (hv : v < p) : (sub u v : ZMod p) = u - v := by
  rw [sub, ZMod.natCast_mod, Nat.cast_add, Nat.cast_sub hv.le, ZMod.natCast_self, zero_sub,
    sub_eq_add_neg]

@[simp] theorem cast_sub_mul (u v w : ℕ) : (sub u (mul v w) : ZMod p) = u - v * w := by
  rw [cast_sub u (mul_lt v w), cast_mul]

@[simp] theorem cast_sub_sub (u v w : ℕ) :
    (sub u (sub v w) : ZMod p) = u - (sub v w : ℕ) := cast_sub u (sub_lt v w)

/-- Numbers below `p` are different elements of the field. -/
theorem natCast_inj {u v : ℕ} (hu : u < p) (hv : v < p) : (u : ZMod p) = v ↔ u = v := by
  rw [ZMod.natCast_eq_natCast_iff', Nat.mod_eq_of_lt hu, Nat.mod_eq_of_lt hv]

/-- Inverses are those of the field. -/
theorem cast_inverse (u : ℕ) : (inverse u : ZMod p) = (u : ZMod p)⁻¹ := by
  rw [inverse, powWithin_eq_powMod, cast_powMod p u (by decide)]
  by_cases hu : (u : ZMod p) = 0
  · rw [hu, inv_zero]
    exact zero_pow (by decide)
  · refine eq_inv_of_mul_eq_one_left ?_
    rw [← pow_succ]
    exact ZMod.pow_card_sub_one_eq_one hu

/-! ## The curve -/

/-- The curve y² = x³ − 3x + b. -/
def curve : WeierstrassCurve.Jacobian (ZMod p) := ⟨0, 0, 0, -3, b⟩

@[simp] theorem curve_a₁ : curve.a₁ = 0 := rfl
@[simp] theorem curve_a₂ : curve.a₂ = 0 := rfl
@[simp] theorem curve_a₃ : curve.a₃ = 0 := rfl
@[simp] theorem curve_a₄ : curve.a₄ = -3 := rfl
@[simp] theorem curve_a₆ : curve.a₆ = b := rfl

/-- It is not singular. -/
theorem discriminant_ne_zero : curve.Δ ≠ 0 := by
  decide +kernel

/-- The group of its points. -/
abbrev Group : Type := curve.toAffine.Point

namespace Point

/-- The coordinates in the field. -/
def triple (u : Point) : Fin 3 → ZMod p := ![u.x, u.y, u.z]

@[simp] theorem triple_x (u : Point) : u.triple 0 = u.x := rfl
@[simp] theorem triple_y (u : Point) : u.triple 1 = u.y := rfl
@[simp] theorem triple_z (u : Point) : u.triple 2 = u.z := rfl

/-- Coordinates below `p` that stand for a point of the group. -/
structure Represents (u : Point) (P : Group) : Prop where
  x_lt : u.x < p
  y_lt : u.y < p
  z_lt : u.z < p
  nonsingular : curve.Nonsingular u.triple
  toAffine_eq : Jacobian.Point.toAffine curve u.triple = P

namespace Represents

variable {u v : Point} {P Q : Group}

/-- The last coordinate is zero in the field only if it is zero. -/
theorem cast_z_eq_zero_iff (hu : u.Represents P) : (u.z : ZMod p) = 0 ↔ u.z = 0 := by
  rw [← Nat.cast_zero, natCast_inj hu.z_lt prime_p.pos]

/-- With zero as the last coordinate it is the point at infinity. -/
theorem eq_zero (hu : u.Represents P) (hz : u.z = 0) : P = 0 := by
  rw [← hu.toAffine_eq, Jacobian.Point.toAffine_of_Z_eq_zero (by rw [triple_z, hz, Nat.cast_zero])]

/-- The point at infinity. -/
theorem infinity : Point.infinity.Represents 0 where
  x_lt := by decide
  y_lt := by decide
  z_lt := by decide
  nonsingular := by
    have h : curve.Nonsingular ![1, 1, 0] := nonsingular_zero
    simpa [triple, Point.infinity] using h
  toAffine_eq := Jacobian.Point.toAffine_of_Z_eq_zero (by simp [Point.infinity])

/-- Coordinates that are equivalent to others stand for the same point. -/
theorem of_equiv {t : Fin 3 → ZMod p} (hx : u.x < p) (hy : u.y < p) (hz : u.z < p)
    (h : u.triple ≈ t) (hnonsingular : curve.Nonsingular t)
    (heq : Jacobian.Point.toAffine curve t = P) : u.Represents P where
  x_lt := hx
  y_lt := hy
  z_lt := hz
  nonsingular := (nonsingular_of_equiv h).mpr hnonsingular
  toAffine_eq := (Jacobian.Point.toAffine_of_equiv h).trans heq

/-- Twice a point that is not at infinity, as the group has it. -/
theorem triple_double (hz : u.z ≠ 0) : u.double.triple = curve.dblXYZ u.triple := by
  rw [double, if_neg hz]
  funext i
  fin_cases i <;>
    simp [triple, dblXYZ, dblX, dblY, negDblY, dblZ, dblU_eq, negY] <;>
    ring

/-- Twice a point. -/
theorem double (hu : u.Represents P) : u.double.Represents (P + P) := by
  by_cases hz : u.z = 0
  · rw [Point.double, if_pos hz, hu.eq_zero hz, add_zero]
    exact infinity
  · have htriple := triple_double hz
    have hsum := Jacobian.Point.toAffine_add hu.nonsingular hu.nonsingular
    rw [add_self, hu.toAffine_eq] at hsum
    have hnonsingular := nonsingular_add hu.nonsingular hu.nonsingular
    rw [add_self] at hnonsingular
    refine of_equiv ?_ ?_ ?_ (htriple ▸ Setoid.refl _) hnonsingular hsum
    all_goals rw [Point.double, if_neg hz]
    · exact sub_lt _ _
    · exact sub_lt _ _
    · exact mul_lt _ _

/-- What the addition compares: the first coordinates, brought to one denominator. -/
theorem mul_eq_mul_iff_x : mul u.x (mul v.z v.z) = mul v.x (mul u.z u.z) ↔
    u.triple 0 * v.triple 2 ^ 2 = v.triple 0 * u.triple 2 ^ 2 := by
  rw [← natCast_inj (mul_lt _ _) (mul_lt _ _)]
  simp [pow_two]

/-- And the second ones. -/
theorem mul_eq_mul_iff_y : mul u.y (mul v.z (mul v.z v.z)) = mul v.y (mul u.z (mul u.z u.z)) ↔
    u.triple 1 * v.triple 2 ^ 3 = v.triple 1 * u.triple 2 ^ 3 := by
  rw [← natCast_inj (mul_lt _ _) (mul_lt _ _)]
  simp [pow_succ, mul_assoc]

/-- The sum of two points with different first coordinates: the coordinates that the group has,
times the product of the last ones. -/
theorem triple_add (hu : u.Represents P) (hv : v.Represents Q) (huz : u.z ≠ 0) (hvz : v.z ≠ 0)
    (hx : mul u.x (mul v.z v.z) ≠ mul v.x (mul u.z u.z)) :
    (u.add v).triple =
      (-(u.z * v.z : ZMod p)) • curve.addXYZ u.triple v.triple := by
  have haddX := addX_eq' hu.nonsingular.left hv.nonsingular.left
  have haddY := @negAddY_eq' _ _ curve u.triple v.triple
  rw [haddX] at haddY
  rw [add, if_neg huz, if_neg hvz]
  dsimp only
  rw [if_neg hx]
  rw [smul_fin3, addXYZ_X, addXYZ_Y, addXYZ_Z, addY]
  generalize curve.addX u.triple v.triple = x at haddX haddY ⊢
  generalize curve.negAddY u.triple v.triple = y at haddY ⊢
  simp only [curve_a₁, curve_a₂, addZ, triple_x, triple_y, triple_z] at haddX haddY
  funext i
  fin_cases i
  · simp [triple]
    linear_combination -haddX
  · simp [triple, negY]
    linear_combination -haddY
  · simp [triple, addZ]
    ring

/-- The sum of two points. -/
theorem add (hu : u.Represents P) (hv : v.Represents Q) : (u.add v).Represents (P + Q) := by
  have hsum := Jacobian.Point.toAffine_add hu.nonsingular hv.nonsingular
  have hnonsingular := nonsingular_add hu.nonsingular hv.nonsingular
  rw [hu.toAffine_eq, hv.toAffine_eq] at hsum
  by_cases huz : u.z = 0
  · rw [Point.add, if_pos huz, hu.eq_zero huz, zero_add]
    exact hv
  by_cases hvz : v.z = 0
  · rw [Point.add, if_neg huz, if_pos hvz, hv.eq_zero hvz, add_zero]
    exact hu
  have huz' : u.triple 2 ≠ 0 := mt hu.cast_z_eq_zero_iff.mp huz
  have hvz' : v.triple 2 ≠ 0 := mt hv.cast_z_eq_zero_iff.mp hvz
  by_cases hx : mul u.x (mul v.z v.z) = mul v.x (mul u.z u.z)
  · by_cases hy : mul u.y (mul v.z (mul v.z v.z)) = mul v.y (mul u.z (mul u.z u.z))
    · have heq : P = Q := by
        rw [← hu.toAffine_eq, ← hv.toAffine_eq]
        exact Jacobian.Point.toAffine_of_equiv
          (equiv_of_X_eq_of_Y_eq huz' hvz' (mul_eq_mul_iff_x.mp hx) (mul_eq_mul_iff_y.mp hy))
      rw [Point.add, if_neg huz, if_neg hvz]
      dsimp only
      rw [if_pos hx, if_pos hy, ← heq]
      exact hu.double
    · have hy' := mt mul_eq_mul_iff_y.mpr hy
      rw [add_of_Y_ne hu.nonsingular.left hv.nonsingular.left huz' hvz' (mul_eq_mul_iff_x.mp hx)
        hy',
        Jacobian.Point.toAffine_smul _ (isUnit_addU_of_Y_ne huz' hvz' hy'),
        Jacobian.Point.toAffine_zero] at hsum
      rw [Point.add, if_neg huz, if_neg hvz]
      dsimp only
      rw [if_pos hx, if_neg hy, ← hsum]
      exact infinity
  · rw [add_of_not_equiv (not_equiv_of_X_ne (mt mul_eq_mul_iff_x.mpr hx))] at hsum hnonsingular
    have hunit : IsUnit (-(u.z * v.z : ZMod p)) := (mul_ne_zero huz' hvz').isUnit.neg
    refine of_equiv ?_ ?_ ?_ (triple_add hu hv huz hvz hx ▸ smul_equiv _ hunit) hnonsingular hsum
    all_goals
      rw [Point.add, if_neg huz, if_neg hvz]
      dsimp only
      rw [if_neg hx]
    · exact sub_lt _ _
    · exact sub_lt _ _
    · exact mul_lt _ _

/-- A multiple of a point. -/
theorem smulWithin (hu : u.Represents P) {fuel k : ℕ} (hk : k < 2 ^ fuel) :
    (smulWithin fuel k u).Represents (k • P) := by
  induction fuel generalizing k with
  | zero =>
      obtain rfl : k = 0 := by simpa using hk
      rw [zero_nsmul]
      exact infinity
  | succ fuel ih =>
      rw [Point.smulWithin]
      split
      · rename_i hzero
        rw [hzero, zero_nsmul]
        exact infinity
      have htwice := (ih (k := k / 2) (by rw [pow_succ] at hk; omega)).double
      rw [← add_nsmul] at htwice
      dsimp only
      split
      · rename_i hodd
        have hsum := htwice.add hu
        rw [← succ_nsmul] at hsum
        convert hsum using 2
        omega
      · convert htwice using 2
        omega

/-- A multiple of a point, for factors below the order. -/
theorem smul (hu : u.Represents P) {k : ℕ} (hk : k < 2 ^ 256) : (smul k u).Represents (k • P) :=
  hu.smulWithin hk

/-- Other coordinates stand for the point whose affine coordinates they have. -/
theorem eq_some (hu : u.Represents P) (hz : u.z ≠ 0) :
    ∃ h : curve.toAffine.Nonsingular (u.x / u.z ^ 2 : ZMod p) (u.y / u.z ^ 3 : ZMod p),
      P = .some _ _ h := by
  have hz' : u.triple 2 ≠ 0 := mt hu.cast_z_eq_zero_iff.mp hz
  have heq := hu.toAffine_eq
  rw [Jacobian.Point.toAffine_of_Z_ne_zero hu.nonsingular hz'] at heq
  exact ⟨(nonsingular_of_Z_ne_zero hz').mp hu.nonsingular, heq.symm⟩

/-- The last coordinate is zero at infinity only. -/
theorem z_eq_zero_iff (hu : u.Represents P) : u.z = 0 ↔ P = 0 := by
  refine ⟨hu.eq_zero, fun hP => ?_⟩
  by_contra hz
  obtain ⟨h, heq⟩ := hu.eq_some hz
  exact Affine.Point.some_ne_zero h (heq.symm.trans hP)

end Represents

/-! ## Affine coordinates -/

/-- Affine coordinates are below `p`. -/
theorem affine_lt (u : Point) : u.affine.1 < p ∧ u.affine.2 < p := ⟨mul_lt _ _, mul_lt _ _⟩

/-- The first affine coordinate, which is zero at infinity. -/
theorem cast_affine_fst (u : Point) : (u.affine.1 : ZMod p) = u.x / u.z ^ 2 := by
  simp [affine, cast_inverse, div_eq_mul_inv, pow_two]

/-- The second affine coordinate. -/
theorem cast_affine_snd (u : Point) : (u.affine.2 : ZMod p) = u.y / u.z ^ 3 := by
  simp [affine, cast_inverse, div_eq_mul_inv, pow_succ, mul_assoc]

/-- What is checked about affine coordinates is the equation of the curve. -/
theorem ofAffine?_eq_some_iff {x y : ℕ} {u : Point} :
    ofAffine? x y = some u ↔
      x < p ∧ y < p ∧ curve.toAffine.Equation (x : ZMod p) (y : ZMod p) ∧ u = ⟨x, y, 1⟩ := by
  have hequation : mul y y = (sub (mul x (mul x x)) (mul 3 x) + b) % p ↔
      curve.toAffine.Equation (x : ZMod p) (y : ZMod p) := by
    rw [← natCast_inj (mul_lt _ _) (Nat.mod_lt _ prime_p.pos), Affine.equation_iff]
    simp only [cast_mul, ZMod.natCast_mod, Nat.cast_add, cast_sub_mul, Nat.cast_ofNat, curve_a₁,
      curve_a₂, curve_a₃, curve_a₄, curve_a₆]
    constructor <;> intro h <;> linear_combination h
  rw [ofAffine?]
  split
  · rename_i h
    simp only [Bool.and_eq_true, decide_eq_true_eq] at h
    simp [h.1, hequation.mp h.2, eq_comm]
  · rename_i h
    simp only [Bool.and_eq_true, decide_eq_true_eq, hequation] at h
    simp only [reduceCtorEq, false_iff]
    exact fun h' => h ⟨⟨h'.1, h'.2.1⟩, h'.2.2.1⟩

/-- Affine coordinates of a point of the group stand for it. -/
theorem represents_some {x y : ℕ} (hx : x < p) (hy : y < p) {P : Group}
    {h : curve.toAffine.Nonsingular (x : ZMod p) (y : ZMod p)} (hP : P = .some _ _ h) :
    Represents ⟨x, y, 1⟩ P := by
  have htriple : triple ⟨x, y, 1⟩ = ![(x : ZMod p), (y : ZMod p), 1] := by simp [triple]
  have hnonsingular : curve.Nonsingular ![(x : ZMod p), (y : ZMod p), 1] :=
    (nonsingular_some ..).mpr h
  refine ⟨hx, hy, prime_p.one_lt, htriple ▸ hnonsingular, ?_⟩
  rw [htriple, Jacobian.Point.toAffine_some hnonsingular, hP]

/-- Coordinates that pass the check stand for a point of the group other than infinity. -/
theorem exists_represents_of_ofAffine? {x y : ℕ} {u : Point} (h : ofAffine? x y = some u) :
    ∃ P : Group, P ≠ 0 ∧ u.Represents P := by
  obtain ⟨hx, hy, hequation, rfl⟩ := ofAffine?_eq_some_iff.mp h
  have hnonsingular := (Affine.equation_iff_nonsingular_of_Δ_ne_zero discriminant_ne_zero).mp
    hequation
  exact ⟨.some _ _ hnonsingular, Affine.Point.some_ne_zero _, represents_some hx hy rfl⟩

namespace Represents

variable {u v : Point} {P : Group}

/-- The affine coordinates of a point other than infinity pass the check, and stand for it. -/
theorem ofAffine?_affine (hu : u.Represents P) (hP : P ≠ 0) :
    ∃ v, ofAffine? u.affine.1 u.affine.2 = some v ∧ v.Represents P := by
  obtain ⟨h, heq⟩ := hu.eq_some (mt hu.z_eq_zero_iff.mp hP)
  have hcast : curve.toAffine.Nonsingular (u.affine.1 : ZMod p) (u.affine.2 : ZMod p) := by
    rwa [cast_affine_fst, cast_affine_snd]
  obtain ⟨hx, hy⟩ := affine_lt u
  refine ⟨⟨u.affine.1, u.affine.2, 1⟩, ofAffine?_eq_some_iff.mpr ⟨hx, hy, hcast.1, rfl⟩,
    represents_some (h := hcast) hx hy ?_⟩
  simp only [heq, cast_affine_fst, cast_affine_snd]

/-- A point has one first coordinate. -/
theorem affine_fst_eq (hu : u.Represents P) (hv : v.Represents P) : u.affine.1 = v.affine.1 := by
  rw [← natCast_inj (affine_lt u).1 (affine_lt v).1, cast_affine_fst, cast_affine_fst]
  by_cases hP : P = 0
  · rw [hu.z_eq_zero_iff.mpr hP, hv.z_eq_zero_iff.mpr hP]
    simp
  · obtain ⟨_, hPu⟩ := hu.eq_some (mt hu.z_eq_zero_iff.mp hP)
    obtain ⟨_, hPv⟩ := hv.eq_some (mt hv.z_eq_zero_iff.mp hP)
    exact (Affine.Point.some.inj (hPu.symm.trans hPv)).1

end Represents

/-! ## The generator -/

/-- The generator is on the curve. -/
theorem exists_represents_base : ∃ P : Group, base.Represents P := by
  have h : ofAffine? base.x base.y = some base := by decide +kernel
  obtain ⟨P, -, hP⟩ := exists_represents_of_ofAffine? h
  exact ⟨P, hP⟩

/-- Its order is the one that is given. -/
theorem addOrderOf_of_represents_base {P : Group} (h : base.Represents P) :
    addOrderOf P = order := by
  have hz : (smul order base).z = 0 := by decide +kernel
  have : Fact order.Prime := ⟨prime_order⟩
  exact addOrderOf_eq_prime ((h.smul (by decide)).eq_zero hz) fun hP =>
    absurd (h.z_eq_zero_iff.mpr hP) (by decide)

end Point

end SmartLock.Curve
