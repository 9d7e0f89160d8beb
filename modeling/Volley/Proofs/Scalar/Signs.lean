/-
# The order and the sign of a result

The order of the exact results survives where infinite values take part, as long as all
results are numbers: sums keep the order of their summands (`sum_mono`), and so do products
with a factor that is not negative (`product_mono_of_nonneg`). The sign of a product is that
of the exact one. The sign of a difference says which of the two is larger, and no difference
of different numbers is a zero (`value_sub_pos`).

Key definitions: `Scalar.IsZero`.
Key theorems: `Scalar.sum_mono`, `Scalar.product_mono_of_nonneg`,
`Scalar.product_anti_of_nonpos`, `Scalar.beq_add_zero`, `Scalar.unitSign_of_pos`,
`Scalar.value_sub_pos`, `Vec2.normalizeOrZero_cases`.
-/
import Volley.Proofs.Scalar.Operations

namespace Volley

open Float.Model Float.Model.UnpackedFloat

namespace Scalar

variable {x y z : Scalar} {p q : ℚ}

/-! ### What is not a number -/

theorem unpacked_of_isNaN (h : x.isNaN = true) : x.unpacked = .notANumber := by
  by_contra hne
  rw [isNaN_eq_false_iff.mpr hne] at h
  cases h

theorem number_of_pack {a : UnpackedFloat}
    (h : Float32.isNaN (.ofModel (.pack a)) = false) : a ≠ .notANumber := by
  rintro rfl
  exact absurd h (by decide)

/-- An operation that keeps what is not a number gives a number to numbers only. -/
theorem numbers_of_pack {f : UnpackedFloat → UnpackedFloat → UnpackedFloat}
    (hleft : ∀ b, f .notANumber b = .notANumber) (hright : ∀ a, f a .notANumber = .notANumber)
    (h : Float32.isNaN (.ofModel (.pack (f x.unpacked y.unpacked))) = false) :
    x.isNaN = false ∧ y.isNaN = false := by
  have hop := number_of_pack h
  rw [isNaN_eq_false_iff, isNaN_eq_false_iff]
  constructor
  · intro hx
    rw [hx] at hop
    exact hop (hleft _)
  · intro hy
    rw [hy] at hop
    exact hop (hright _)

theorem numbers_of_add (h : (x + y).isNaN = false) : x.isNaN = false ∧ y.isNaN = false :=
  numbers_of_pack (f := .add .binary32) (fun _ => rfl) (fun a => by cases a <;> rfl) h

theorem numbers_of_sub (h : (x - y).isNaN = false) : x.isNaN = false ∧ y.isNaN = false := by
  rw [sub_eq] at h
  rw [← isNaN_neg y]
  exact numbers_of_add h

theorem numbers_of_mul (h : (x * y).isNaN = false) : x.isNaN = false ∧ y.isNaN = false :=
  numbers_of_pack (f := .mul .binary32) (fun _ => rfl) (fun a => by cases a <;> rfl) h

/-! ### Infinite values -/

theorem value_pack_infinity (s : Sign) :
    value (.ofModel (.pack (.infinity s))) = rational (.infinity s) := by
  unfold value
  rw [unpacked_pack (a := .infinity s) trivial]
  rfl

theorem unpacked_of_not_isFinite (h : x.isNaN = false) (hx : ¬x.isFinite = true) :
    ∃ s, x.unpacked = .infinity s := by
  rw [isNaN_eq_false_iff] at h
  rw [isFinite_iff] at hx
  generalize x.unpacked = a at h hx
  cases a with
  | notANumber => exact absurd rfl h
  | infinity s => exact ⟨s, rfl⟩
  | zero | finite => exact absurd rfl hx

theorem infinity_add {s : Sign} {b : UnpackedFloat}
    (h : UnpackedFloat.add .binary32 (.infinity s) b ≠ .notANumber) :
    UnpackedFloat.add .binary32 (.infinity s) b = .infinity s := by
  cases b with
  | notANumber => exact absurd rfl h
  | infinity t =>
    cases s <;> cases t
    · rfl
    · exact absurd rfl h
    · exact absurd rfl h
    · rfl
  | zero | finite => rfl

theorem add_infinity {a : UnpackedFloat} {t : Sign}
    (h : UnpackedFloat.add .binary32 a (.infinity t) ≠ .notANumber) :
    UnpackedFloat.add .binary32 a (.infinity t) = .infinity t := by
  cases a with
  | notANumber => exact absurd rfl h
  | infinity s =>
    cases s <;> cases t
    · rfl
    · exact absurd rfl h
    · exact absurd rfl h
    · rfl
  | zero | finite => rfl

/-- A sum with an infinite summand is that summand, if it is a number at all. -/
theorem value_add_of_infinite (h : (x + y).isNaN = false) :
    (¬x.isFinite = true → (x + y).value = x.value) ∧
      (¬y.isFinite = true → (x + y).value = y.value) := by
  obtain ⟨hx, hy⟩ := numbers_of_add h
  have hsum := number_of_pack h
  change UnpackedFloat.add .binary32 x.unpacked y.unpacked ≠ _ at hsum
  show (_ → value (.ofModel (.pack (.add .binary32 x.unpacked y.unpacked))) = rational x.unpacked) ∧
    (_ → value (.ofModel (.pack (.add .binary32 x.unpacked y.unpacked))) = rational y.unpacked)
  constructor
  · intro hinf
    obtain ⟨s, hs⟩ := unpacked_of_not_isFinite hx hinf
    rw [hs] at hsum ⊢
    rw [infinity_add hsum]
    exact value_pack_infinity s
  · intro hinf
    obtain ⟨t, ht⟩ := unpacked_of_not_isFinite hy hinf
    rw [ht] at hsum ⊢
    rw [add_infinity hsum]
    exact value_pack_infinity t

/-- A number strictly between the infinite values is finite. -/
theorem isFinite_of_value (h : x.isNaN = false) (hlow : x.value ≠ -2 ^ 128)
    (hhigh : x.value ≠ 2 ^ 128) : x.isFinite = true := by
  rw [isFinite_iff_value h]
  refine lt_of_le_of_ne (abs_value_le x) fun habs => ?_
  rcases eq_or_eq_neg_of_abs_eq habs with hvalue | hvalue
  · exact hhigh hvalue
  · exact hlow hvalue

theorem not_isFinite_of_value (h : |x.value| = 2 ^ 128) : ¬x.isFinite = true := by
  intro hx
  have hlt := abs_rational_lt (canonical_unpacked x) hx
  exact hlt.ne h

/-- A sum with an infinite summand has its value. -/
theorem value_add_eq {b : ℚ} (h : (x + y).isNaN = false) (hb : |b| = 2 ^ 128)
    (hvalue : x.value = b ∨ y.value = b) : (x + y).value = b := by
  rcases hvalue with rfl | rfl
  · exact (value_add_of_infinite h).1 (not_isFinite_of_value hb)
  · exact (value_add_of_infinite h).2 (not_isFinite_of_value hb)

theorem abs_limit : |(2 ^ 128 : ℚ)| = 2 ^ 128 ∧ |(-2 ^ 128 : ℚ)| = 2 ^ 128 := by
  constructor <;> norm_num

/-- What is not below `-∞` and not above `+∞` is finite. -/
theorem isFinite_pair (h : x ≤ y) (hx : x.value ≠ -2 ^ 128) (hy : y.value ≠ 2 ^ 128) :
    x.isFinite = true ∧ y.isFinite = true := by
  obtain ⟨hnumber, hnumber', hle⟩ := le_iff_value.mp h
  have hlow := lt_of_le_of_ne (abs_le.mp (abs_value_le x)).1 hx.symm
  have hhigh := lt_of_le_of_ne (abs_le.mp (abs_value_le y)).2 hy
  exact ⟨isFinite_of_value hnumber hx (lt_of_le_of_lt hle hhigh).ne,
    isFinite_of_value hnumber' (lt_of_lt_of_le hlow hle).ne' hy⟩

/-- The larger the summands, the larger the sum. -/
theorem sum_mono {w : Scalar} (hxy : x ≤ y) (hzw : z ≤ w) (hleft : (x + z).isNaN = false)
    (hright : (y + w).isNaN = false) : x + z ≤ y + w := by
  by_cases habove : y.value = 2 ^ 128 ∨ w.value = 2 ^ 128
  · rw [le_iff_value, value_add_eq hright abs_limit.1 habove]
    exact ⟨hleft, hright, (abs_le.mp (abs_value_le _)).2⟩
  by_cases hbelow : x.value = -2 ^ 128 ∨ z.value = -2 ^ 128
  · rw [le_iff_value, value_add_eq hleft abs_limit.2 hbelow]
    exact ⟨hleft, hright, (abs_le.mp (abs_value_le _)).1⟩
  -- what remains has no infinite summand
  obtain ⟨hy, hw⟩ := not_or.mp habove
  obtain ⟨hx, hz⟩ := not_or.mp hbelow
  obtain ⟨hfx, hfy⟩ := isFinite_pair hxy hx hy
  obtain ⟨hfz, hfw⟩ := isFinite_pair hzw hz hw
  exact (nearest_add hfx hfz).mono (nearest_add hfy hfw)
    (add_le_add (le_iff_value.mp hxy).2.2 (le_iff_value.mp hzw).2.2)

theorem signed_product (s t : Sign) {r u : ℚ} (hr : 0 < r) (hu : 0 < u) :
    0 < s.apply 1 * r * (t.apply 1 * u) ∧ rational (.infinity (s * t)) = 2 ^ 128 ∨
      s.apply 1 * r * (t.apply 1 * u) < 0 ∧ rational (.infinity (s * t)) = -2 ^ 128 := by
  have hpos := mul_pos hr hu
  cases s <;> cases t
  · refine Or.inl ⟨?_, rational_infinity_positive⟩
    norm_num [Sign.apply]
    exact hpos
  · refine Or.inr ⟨?_, rational_infinity_negative⟩
    norm_num [Sign.apply]
    exact hpos
  · refine Or.inr ⟨?_, rational_infinity_negative⟩
    norm_num [Sign.apply]
    exact hpos
  · refine Or.inl ⟨?_, rational_infinity_positive⟩
    norm_num [Sign.apply]
    exact hpos

/-- A product with an infinite factor is infinite, with the sign of the product of the values. -/
theorem value_mul_of_infinite (h : (x * y).isNaN = false)
    (hinf : ¬(x.isFinite = true ∧ y.isFinite = true)) :
    0 < x.value * y.value ∧ (x * y).value = 2 ^ 128 ∨
      x.value * y.value < 0 ∧ (x * y).value = -2 ^ 128 := by
  obtain ⟨hx, hy⟩ := numbers_of_mul h
  have hprod := number_of_pack h
  have hvalue (s : Sign) (hmul : UnpackedFloat.mul .binary32 x.unpacked y.unpacked = .infinity s) :
      (x * y).value = rational (.infinity s) := by
    rw [← value_pack_infinity, ← hmul]
    rfl
  have hlimit : (0 : ℚ) < 2 ^ 128 := by norm_num
  change UnpackedFloat.mul .binary32 x.unpacked y.unpacked ≠ _ at hprod
  rw [isNaN_eq_false_iff] at hx hy
  rw [isFinite_iff, isFinite_iff] at hinf
  rw [value, value]
  generalize x.unpacked = a at hx hprod hinf hvalue
  generalize y.unpacked = b at hy hprod hinf hvalue
  cases a with
  | notANumber => exact absurd rfl hx
  | infinity s =>
    cases b with
    | notANumber => exact absurd rfl hy
    | infinity t =>
      rw [hvalue (s * t) rfl, rational_infinity s, rational_infinity t]
      exact signed_product s t hlimit hlimit
    | zero => exact absurd rfl hprod
    | finite t n f hn =>
      rw [hvalue (s * t) rfl, rational_infinity s, rational_finite]
      exact signed_product s t hlimit (magnitude_pos hn f)
  | zero s =>
    cases b with
    | notANumber => exact absurd rfl hy
    | infinity => exact absurd rfl hprod
    | zero | finite => exact absurd ⟨rfl, rfl⟩ hinf
  | finite s m e hm =>
    cases b with
    | notANumber => exact absurd rfl hy
    | infinity t =>
      rw [hvalue (s * t) rfl, rational_infinity t, rational_finite]
      exact signed_product s t (magnitude_pos hm e) hlimit
    | zero | finite => exact absurd ⟨rfl, rfl⟩ hinf

/-- Only finite factors have a finite product. -/
theorem isFinite_of_mul (h : (x * y).isFinite = true) : x.isFinite = true ∧ y.isFinite = true := by
  have hnumber := isNaN_of_isFinite h
  by_contra hinf
  rw [isFinite_iff_value hnumber] at h
  rcases value_mul_of_infinite hnumber hinf with ⟨-, hvalue⟩ | ⟨-, hvalue⟩
  · rw [hvalue, abs_limit.1] at h
    exact lt_irrefl _ h
  · rw [hvalue, abs_limit.2] at h
    exact lt_irrefl _ h

theorem isFinite_of_sub (h : (x - y).isFinite = true) : x.isFinite = true ∧ y.isFinite = true := by
  rw [sub_eq] at h
  obtain ⟨hx, hy⟩ := isFinite_of_add h
  exact ⟨hx, (isFinite_neg y).symm.trans hy⟩

/-- The larger the product of the values, the larger the product, provided that a positive
infinite product stays one, and that a negative one has been one before. -/
theorem product_mono {w : Scalar} (hleft : (x * z).isNaN = false)
    (hright : (y * w).isNaN = false) (h : x.value * z.value ≤ y.value * w.value)
    (hpos : 0 < x.value * z.value → y.isFinite = true ∧ w.isFinite = true →
      x.isFinite = true ∧ z.isFinite = true)
    (hneg : y.value * w.value < 0 → x.isFinite = true ∧ z.isFinite = true →
      y.isFinite = true ∧ w.isFinite = true) :
    x * z ≤ y * w := by
  by_cases hxz : x.isFinite = true ∧ z.isFinite = true
  · by_cases hyw : y.isFinite = true ∧ w.isFinite = true
    · exact (nearest_mul hxz.1 hxz.2).mono (nearest_mul hyw.1 hyw.2) h
    · rcases value_mul_of_infinite hright hyw with ⟨-, hvalue⟩ | ⟨hlt, -⟩
      · rw [le_iff_value, hvalue]
        exact ⟨hleft, hright, (abs_le.mp (abs_value_le _)).2⟩
      · exact absurd (hneg hlt hxz) hyw
  · rcases value_mul_of_infinite hleft hxz with ⟨hgt, -⟩ | ⟨-, hvalue⟩
    · have hyw : ¬(y.isFinite = true ∧ w.isFinite = true) := fun hyw => hxz (hpos hgt hyw)
      rcases value_mul_of_infinite hright hyw with ⟨-, hvalue⟩ | ⟨hlt, -⟩
      · rw [le_iff_value, hvalue]
        exact ⟨hleft, hright, (abs_le.mp (abs_value_le _)).2⟩
      · linarith
    · rw [le_iff_value, hvalue]
      exact ⟨hleft, hright, (abs_le.mp (abs_value_le _)).1⟩

theorem isFinite_of_abs_le (hx : x.isNaN = false) (hy : y.isFinite = true)
    (h : |x.value| ≤ |y.value|) : x.isFinite = true :=
  (isFinite_iff_value hx).mpr (lt_of_le_of_lt h (abs_rational_lt (canonical_unpacked y) hy))

/-- Multiplying by a number that is not negative keeps the order. -/
theorem product_mono_of_nonneg (hx : 0 ≤ x.value) (h : y ≤ z) (hleft : (x * y).isNaN = false)
    (hright : (x * z).isNaN = false) : x * y ≤ x * z := by
  obtain ⟨hy, hz, hle⟩ := le_iff_value.mp h
  refine product_mono hleft hright (mul_le_mul_of_nonneg_left hle hx) ?_ ?_
  · rintro hpos ⟨hfx, hfz⟩
    have hy' : 0 < y.value := by
      by_contra hge
      exact absurd hpos (not_lt.mpr (mul_nonpos_of_nonneg_of_nonpos hx (not_lt.mp hge)))
    exact ⟨hfx, isFinite_of_abs_le hy hfz (abs_le_abs_of_nonneg hy'.le hle)⟩
  · rintro hneg ⟨hfx, hfy⟩
    have hz' : z.value < 0 := by
      by_contra hge
      exact absurd hneg (not_lt.mpr (mul_nonneg hx (not_lt.mp hge)))
    exact ⟨hfx, isFinite_of_abs_le hz hfy (abs_le_abs_of_nonpos hz'.le hle)⟩

/-- Multiplying by a number that is not positive turns the order around. -/
theorem product_anti_of_nonpos (hx : x.value ≤ 0) (h : y ≤ z) (hleft : (x * z).isNaN = false)
    (hright : (x * y).isNaN = false) : x * z ≤ x * y := by
  obtain ⟨hy, hz, hle⟩ := le_iff_value.mp h
  refine product_mono hleft hright (mul_le_mul_of_nonpos_left hle hx) ?_ ?_
  · rintro hpos ⟨hfx, hfy⟩
    have hz' : z.value < 0 := by
      by_contra hge
      exact absurd hpos (not_lt.mpr (mul_nonpos_of_nonpos_of_nonneg hx (not_lt.mp hge)))
    exact ⟨hfx, isFinite_of_abs_le hz hfy (abs_le_abs_of_nonpos hz'.le hle)⟩
  · rintro hneg ⟨hfx, hfz⟩
    have hy' : 0 < y.value := by
      by_contra hge
      exact absurd hneg (not_lt.mpr (mul_nonneg_of_nonpos_of_nonpos hx (not_lt.mp hge)))
    exact ⟨hfx, isFinite_of_abs_le hy hfz (abs_le_abs_of_nonneg hy'.le hle)⟩

theorem value_mul_nonneg (h : (x * y).isNaN = false) (hprod : 0 ≤ x.value * y.value) :
    0 ≤ (x * y).value := by
  by_cases hfinite : x.isFinite = true ∧ y.isFinite = true
  · exact (nearest_mul hfinite.1 hfinite.2).nonneg hprod
  · rcases value_mul_of_infinite h hfinite with ⟨-, hvalue⟩ | ⟨hneg, -⟩
    · rw [hvalue]
      norm_num
    · linarith

theorem value_mul_nonpos (h : (x * y).isNaN = false) (hprod : x.value * y.value ≤ 0) :
    (x * y).value ≤ 0 := by
  by_cases hfinite : x.isFinite = true ∧ y.isFinite = true
  · exact (nearest_mul hfinite.1 hfinite.2).nonpos hprod
  · rcases value_mul_of_infinite h hfinite with ⟨hpos, -⟩ | ⟨-, hvalue⟩
    · linarith
    · rw [hvalue]
      norm_num

/-! ### Zeros -/

/-- A zero, of either sign. -/
def IsZero (x : Scalar) : Prop := x.isFinite = true ∧ x.value = 0

theorem Nearest.isZero (h : Nearest 0 x) : IsZero x :=
  ⟨h.isFinite (by norm_num), h.value_eq rounds_zero (by norm_num)⟩

theorem IsZero.mul_left (hx : IsZero x) (hy : y.isFinite = true) : IsZero (y * x) := by
  have hprod := nearest_mul hy hx.1
  rw [hx.2, mul_zero] at hprod
  exact hprod.isZero

theorem IsZero.mul_right (hx : IsZero x) (hy : y.isFinite = true) : IsZero (x * y) := by
  have hprod := nearest_mul hx.1 hy
  rw [hx.2, zero_mul] at hprod
  exact hprod.isZero

/-- A product with a zero is a zero, if it is a number at all. -/
theorem isZero_mul (hzero : IsZero x ∨ IsZero y) (h : (x * y).isNaN = false) : IsZero (x * y) := by
  have hprod : x.value * y.value = 0 := by
    rcases hzero with hx | hy
    · rw [hx.2, zero_mul]
    · rw [hy.2, mul_zero]
  by_cases hfinite : x.isFinite = true ∧ y.isFinite = true
  · have hnear := nearest_mul hfinite.1 hfinite.2
    rw [hprod] at hnear
    exact hnear.isZero
  · rcases value_mul_of_infinite h hfinite with ⟨hlt, -⟩ | ⟨hlt, -⟩
    · exact absurd hprod hlt.ne'
    · exact absurd hprod hlt.ne

theorem IsZero.add (hx : IsZero x) (hy : IsZero y) : IsZero (x + y) := by
  have hsum := nearest_add hx.1 hy.1
  rw [hx.2, hy.2, add_zero] at hsum
  exact hsum.isZero

theorem IsZero.div (hx : IsZero x) (hy : y.isFinite = true) (h : y.value ≠ 0) :
    IsZero (x / y) := by
  have hquot := nearest_div hx.1 hy h
  rw [hx.2, zero_div] at hquot
  exact hquot.isZero

/-- A sum with a zero, on either side. -/
theorem add_isZero (hx : x.isFinite = true) (hy : IsZero y) :
    (x + y).isFinite = true ∧ (x + y).value = x.value := by
  have hsum := nearest_add hx hy.1
  rw [hy.2, add_zero] at hsum
  exact hsum.congr (nearest_self hx) hx

theorem isZero_add (hx : x.isFinite = true) (hy : IsZero y) :
    (y + x).isFinite = true ∧ (y + x).value = x.value := by
  have hsum := nearest_add hy.1 hx
  rw [hy.2, zero_add] at hsum
  exact hsum.congr (nearest_self hx) hx

/-- Adding a zero changes no value. -/
theorem value_add_zero (hy : IsZero y) (h : (x + y).isNaN = false) : (x + y).value = x.value := by
  by_cases hx : x.isFinite = true
  · exact (add_isZero hx hy).2
  · exact (value_add_of_infinite h).1 hx

theorem beq_add_zero (hx : x.isFinite = true) (hy : IsZero y) : (x + y == x) = true := by
  have hsum := (nearest_add hx hy.1).number
  rw [beq_iff_value]
  exact ⟨hsum, isNaN_of_isFinite hx, value_add_zero hy hsum⟩

theorem isFinite_half (hx : x.isFinite = true) : (0.5 * x).isFinite = true := by
  have hrange := abs_rational_lt (canonical_unpacked x) hx
  have hprod := nearest_mul (x := 0.5) rfl hx
  refine hprod.isFinite ?_
  rw [value_half, abs_mul, abs_of_pos (by norm_num)]
  unfold value
  linarith

/-! ### Signs -/

/-- The sign that the layout stores. -/
def storedSign (b : BitVec Format.binary32.numBits) : Sign := Sign.ofBitVec (unpackSign b)

theorem rational_eq_signed {s : Sign} {r : ℚ} (hr : 0 ≤ r) (h : q = s.apply 1 * r) :
    q = s.apply 1 * |q| := by
  have habs : |q| = r := by
    rw [h]
    cases s <;> norm_num [Sign.apply, abs_of_nonneg hr]
  rw [habs, h]

/-- The stored sign is that of the value. -/
theorem rational_unpack (b : BitVec Format.binary32.numBits) :
    rational (UnpackedFloat.unpack .binary32 b) =
      (storedSign b).apply 1 * |rational (UnpackedFloat.unpack .binary32 b)| := by
  have hinf :=
    rational_eq_signed (s := storedSign b) (by norm_num) (rational_infinity (storedSign b))
  have hfin {m : Nat} {e : Int} {hm : 0 < m} :
      rational (.finite (storedSign b) m e hm) =
        (storedSign b).apply 1 * |rational (.finite (storedSign b) m e hm)| :=
    rational_eq_signed (magnitude_pos hm e).le (rational_finite (storedSign b))
  have hzero (s : Sign) : (0 : ℚ) = s.apply 1 * |0| := by rw [abs_zero, mul_zero]
  unfold UnpackedFloat.unpack
  simp only
  split
  · split
    · exact hinf
    · exact hzero _
  · split
    · split
      · exact hzero _
      · exact hfin
    · exact hfin

theorem storedSign_eq (b : BitVec 32) :
    storedSign b = if b &&& 0x80000000#32 = 0#32 then .positive else .negative := by
  have hmask : 0x80000000#32 = BitVec.twoPow 32 31 := rfl
  have hsign : @unpackSign .binary32 b = BitVec.ofBool (b.getLsbD 31) := by
    apply BitVec.eq_of_getLsbD_eq
    intro i hi
    obtain rfl : i = 0 := by omega
    simp [unpackSign]
    rfl
  unfold storedSign Sign.ofBitVec
  rw [hsign, hmask, BitVec.and_twoPow]
  cases b.getLsbD 31 <;> rfl

theorem isNaN_of_value_ne (h : x.value ≠ 0) : x.isNaN = false := by
  rw [isNaN_eq_false_iff]
  intro hnan
  rw [value, hnan] at h
  exact h rfl

theorem toBits_and_signMask (x : Scalar) :
    storedSign x.toBits.toBitVec = if x.toBits &&& signMask = 0 then .positive else .negative := by
  have hiff : x.toBits &&& signMask = 0 ↔ x.toBits.toBitVec &&& 0x80000000#32 = 0#32 :=
    UInt32.toBitVec_inj.symm
  rw [storedSign_eq]
  simp only [hiff]

theorem value_eq_signed (x : Scalar) :
    x.value = (storedSign x.toBits.toBitVec).apply 1 * |x.value| :=
  rational_unpack x.toBits.toBitVec

theorem unitSign_of_pos (h : 0 < x.value) : x.unitSign = 1.0 := by
  have hsign := value_eq_signed x
  rw [toBits_and_signMask] at hsign
  unfold unitSign
  rw [isNaN_of_value_ne h.ne', if_neg Bool.false_ne_true]
  split at hsign
  · rename_i hbit
    rw [if_pos hbit]
  · norm_num [Sign.apply] at hsign
    linarith [abs_nonneg x.value]

theorem unitSign_of_neg (h : x.value < 0) : x.unitSign = -1.0 := by
  have hsign := value_eq_signed x
  rw [toBits_and_signMask] at hsign
  unfold unitSign
  rw [isNaN_of_value_ne h.ne, if_neg Bool.false_ne_true]
  split at hsign
  · norm_num [Sign.apply] at hsign
    linarith [abs_nonneg x.value]
  · rename_i hbit
    rw [if_neg hbit]

/-! ### Differences -/

/-- The digits of a number, as a signed mantissa, and the place of the last one. -/
theorem exists_digits (hx : x.isFinite = true) :
    ∃ n e : ℤ, |n| < 2 ^ 24 ∧ -149 ≤ e ∧ x.value = n * 2 ^ e := by
  have hcanonical := canonical_unpacked x
  rw [isFinite_iff] at hx
  unfold value
  generalize x.unpacked = a at hcanonical hx
  cases a with
  | notANumber | infinity => cases hx
  | zero => exact ⟨0, 0, by norm_num, by norm_num, by norm_num [rational]⟩
  | finite s m e hm =>
    refine ⟨s.apply m, e, ?_, hcanonical.low, rfl⟩
    rw [abs_apply]
    exact_mod_cast hcanonical.width

/-- Numbers are multiples of the lowest place of the layout. -/
theorem exists_value_eq (hx : x.isFinite = true) : ∃ n : ℤ, x.value = n * 2 ^ (-149 : ℤ) := by
  obtain ⟨n, e, -, hlow, hvalue⟩ := exists_digits hx
  obtain ⟨k, hk⟩ := Int.le.dest hlow
  refine ⟨n * 2 ^ k, ?_⟩
  rw [hvalue]
  push_cast
  rw [mul_assoc, ← zpow_natCast, ← two_zpow_add, add_comm, hk]

theorem lowest_le_sub (hx : x.isFinite = true) (hy : y.isFinite = true)
    (h : y.value < x.value) : 2 ^ (-149 : ℤ) ≤ x.value - y.value := by
  obtain ⟨m, hm⟩ := exists_value_eq hx
  obtain ⟨n, hn⟩ := exists_value_eq hy
  rw [hm, hn] at h ⊢
  have hlt : n < m := by exact_mod_cast lt_of_mul_lt_mul_right h (two_zpow_pos _).le
  have hle : (1 : ℚ) ≤ m - n := by exact_mod_cast (by omega : 1 ≤ m - n)
  rw [← sub_mul]
  exact le_mul_of_one_le_left (two_zpow_pos _).le hle

theorem Nearest.pos (h : Nearest q x) (hq : 2 ^ (-149 : ℤ) ≤ q) : 0 < x.value := by
  obtain ⟨v, hv, hvalue⟩ := h.rounds
  have hself : Rounds (2 ^ (-149 : ℤ)) (2 ^ (-149 : ℤ)) := by
    have hself := rounds_self (n := 1) (e := -149) (by norm_num) le_rfl
    rwa [Int.cast_one, one_mul] at hself
  have hpos : 0 < v := lt_of_lt_of_le (two_zpow_pos _) (hself.mono hv hq)
  rw [hvalue]
  exact lt_of_lt_of_le (lt_min hpos (by norm_num)) (le_max_right _ _)

theorem one_le_value_toFloat32 {n : UInt32} (h : n ≠ 0) : 1 ≤ value n.toFloat32 := by
  have hone : 1 ≤ n.toNat := by
    by_contra hzero
    exact h (UInt32.toNat_inj.mp (show n.toNat = 0 by omega))
  have hself := nearest_self (x := 1.0) rfl
  rw [value_one] at hself
  have hle := hself.mono (nearest_toFloat32 n) (Nat.one_le_cast.mpr hone)
  rw [← value_one]
  exact (le_iff_value.mp hle).2.2

theorem value_toFloat32_pos {n : UInt32} (h : n ≠ 0) : 0 < value n.toFloat32 :=
  lt_of_lt_of_le one_pos (one_le_value_toFloat32 h)

theorem Nearest.neg (h : Nearest q x) : Nearest (-q) (-x) := by
  obtain ⟨v, hv, hvalue⟩ := h.rounds
  refine ⟨(isNaN_neg x).trans h.number, -v, hv.neg, ?_⟩
  rw [value_neg, hvalue, clamp_neg]

/-- A difference is not rounded to zero. -/
theorem value_sub_pos (h : y < x) (hsub : (x - y).isNaN = false) : 0 < (x - y).value := by
  obtain ⟨hy, hx, hlt⟩ := lt_iff_value.mp h
  rw [sub_eq] at hsub
  by_cases hinf : x.value = 2 ^ 128 ∨ (-y).value = 2 ^ 128
  · rw [sub_eq, value_add_eq hsub abs_limit.1 hinf]
    norm_num
  obtain ⟨hx', hy'⟩ := not_or.mp hinf
  rw [value_neg] at hy'
  obtain ⟨hfy, hfx⟩ := isFinite_pair (le_iff_value.mpr ⟨hy, hx, hlt.le⟩)
    (fun hlow => hy' (by rw [hlow, neg_neg])) hx'
  exact (nearest_sub hfx hfy).pos (lowest_le_sub hfx hfy hlt)

theorem value_sub_neg (h : x < y) (hsub : (x - y).isNaN = false) : (x - y).value < 0 := by
  obtain ⟨hx, hy, hlt⟩ := lt_iff_value.mp h
  rw [sub_eq] at hsub
  by_cases hinf : x.value = -2 ^ 128 ∨ (-y).value = -2 ^ 128
  · rw [sub_eq, value_add_eq hsub abs_limit.2 hinf]
    norm_num
  obtain ⟨hx', hy'⟩ := not_or.mp hinf
  rw [value_neg, neg_inj] at hy'
  obtain ⟨hfx, hfy⟩ := isFinite_pair (le_iff_value.mpr ⟨hx, hy, hlt.le⟩) hx' hy'
  have hlowest := lowest_le_sub hfy hfx hlt
  have hpos := (nearest_sub hfx hfy).neg.pos (by linarith)
  rw [value_neg] at hpos
  linarith

/-- Equal values have a difference only if they are finite, and then it is zero. -/
theorem value_sub_eq_zero (h : x.value = y.value) (hsub : (x - y).isNaN = false) :
    x.isFinite = true ∧ y.isFinite = true ∧ (x - y).value = 0 := by
  obtain ⟨hx, hy⟩ := numbers_of_sub hsub
  rw [sub_eq] at hsub
  by_cases hfinite : x.isFinite = true
  · have hfinite' : y.isFinite = true := by
      rwa [isFinite_iff_value hy, ← h, ← isFinite_iff_value hx]
    have hdiff := nearest_sub hfinite hfinite'
    rw [h, sub_eq_zero_of_eq rfl] at hdiff
    exact ⟨hfinite, hfinite', hdiff.value_eq rounds_zero (by norm_num)⟩
  · -- two infinite values cancel out
    obtain ⟨hleft, hright⟩ := value_add_of_infinite hsub
    have hne : x.value ≠ 0 := by
      intro hzero
      rw [isFinite_iff_value hx, hzero, abs_zero] at hfinite
      exact hfinite (by norm_num)
    have hfinite' : ¬(-y).isFinite = true := by
      rwa [isFinite_neg, isFinite_iff_value hy, ← h, ← isFinite_iff_value hx]
    have hcancel := (hleft hfinite).symm.trans (hright hfinite')
    rw [value_neg, ← h] at hcancel
    exact absurd (self_eq_neg.mp hcancel) hne

theorem value_sub_nonneg (h : y ≤ x) (hsub : (x - y).isNaN = false) : 0 ≤ (x - y).value := by
  obtain ⟨hy, hx, hle⟩ := le_iff_value.mp h
  rcases hle.lt_or_eq with hlt | heq
  · exact (value_sub_pos (lt_iff_value.mpr ⟨hy, hx, hlt⟩) hsub).le
  · exact (value_sub_eq_zero heq.symm hsub).2.2.ge

theorem value_sub_nonpos (h : x ≤ y) (hsub : (x - y).isNaN = false) : (x - y).value ≤ 0 := by
  obtain ⟨hx, hy, hle⟩ := le_iff_value.mp h
  rcases hle.lt_or_eq with hlt | heq
  · exact (value_sub_neg (lt_iff_value.mpr ⟨hx, hy, hlt⟩) hsub).le
  · exact (value_sub_eq_zero heq hsub).2.2.le

end Scalar

namespace Vec2

theorem isFinite_iff {a : Vec2} :
    a.isFinite = true ↔ a.x.isFinite = true ∧ a.y.isFinite = true := Bool.and_eq_true_iff

/-- A unit vector is the quotient by a positive length, unless it is zero. -/
theorem normalizeOrZero_cases (a : Vec2) :
    a.normalizeOrZero = zero ∨
      ∃ length : Scalar, length.isFinite = true ∧ 0 < length.value ∧ a.isFinite = true ∧
        a.normalizeOrZero = ⟨a.x / length, a.y / length⟩ := by
  unfold normalizeOrZero
  simp only
  split
  · exact Or.inl rfl
  · rename_i h
    rw [Bool.or_eq_true, not_or, Bool.not_eq_true', Bool.not_eq_false, decide_eq_true_eq] at h
    obtain ⟨hfinite, hlarge⟩ := h
    have hpos : 0 < a.length.value := by
      obtain ⟨m, e, hm, hunpack, -⟩ := Scalar.unpacked_of_gt_epsilon hfinite hlarge
      rw [Scalar.value_of_digits hm hunpack]
      exact Scalar.magnitude_pos hm e
    obtain ⟨hx, hy⟩ := Scalar.isFinite_of_add (Scalar.isFinite_of_sqrt hfinite)
    have ha : a.isFinite = true :=
      isFinite_iff.mpr ⟨(Scalar.isFinite_of_mul hx).1, (Scalar.isFinite_of_mul hy).1⟩
    exact Or.inr ⟨a.length, hfinite, hpos, ha, rfl⟩

end Vec2

end Volley
