import Mathlib.Algebra.Order.Field.Power
import Mathlib.Tactic.Linarith
import DocumentMapper.Decimal.Binary64

/-!
# Rounding of integers

A double that is no NaN denotes a rational number or an infinity, and doubles of one rank
denote the same.  An integer that some double denotes has the rank of that double, so
rounding tells such integers apart; and up to two to the power of fifty-three, where every
integer is denoted, ranks grow with the integers.
-/

namespace DocumentMapper

inductive Number where
  | rational (q : ℚ)
  | infinite (negative : Bool)

namespace Binary64

def magnitude (x : Binary64) : ℚ :=
  x.parts.significand * 2 ^ x.parts.exponent

/-- The number that a double denotes.  A NaN denotes none. -/
def number? (x : Binary64) : Option Number :=
  if x.isNaN then
    none
  else if x.isFinite then
    some (.rational (if x.isNegative then -x.magnitude else x.magnitude))
  else
    some (.infinite x.isNegative)

/-!
## Sizes under a sign
-/

theorem signed_zero (negative : Bool) : signed negative 0 = 0 := by
  cases negative <;> rfl

theorem signed_inj {a b : Bool} {m n : Nat} (h : signed a m = signed b n) :
    m = n ∧ (a = b ∨ m = 0) := by
  cases a <;> cases b <;> simp [signed] at h ⊢ <;> omega

theorem rankOfInt_natCast (n : Nat) : rankOfInt n = sizeOfNat n := by
  have hnonneg : ¬ (n : Int) < 0 := by omega
  rw [rankOfInt, Int.natAbs_natCast, decide_eq_false hnonneg]
  rfl

theorem rank?_eq_some_iff {x : Binary64} {rank : Int} :
    x.rank? = some rank <-> x.isNaN = false ∧ signed x.isNegative x.size = rank := by
  unfold rank?
  split
  case isTrue h => simp [h]
  case isFalse h => simp [h]

theorem exists_number?_of_rank? {x : Binary64} {rank : Int} (h : x.rank? = some rank) :
    exists denoted, x.number? = some denoted := by
  have hnan := (rank?_eq_some_iff.mp h).1
  unfold number?
  rw [hnan]
  cases x.isFinite with
  | true => exact ⟨_, rfl⟩
  | false => exact ⟨_, rfl⟩

theorem parts_eq_of_size_eq {x y : Binary64} (h : x.size = y.size) : x.parts = y.parts := by
  unfold parts
  rw [h]

theorem magnitude_of_size_eq_zero {x : Binary64} (h : x.size = 0) : x.magnitude = 0 := by
  have hzero : x.parts.significand = 0 := by
    unfold parts
    rw [h]
    rfl
  rw [magnitude, hzero, Nat.cast_zero, zero_mul]

theorem number?_eq_of_rank? {x y : Binary64} {rank : Int} (hx : x.rank? = some rank)
    (hy : y.rank? = some rank) : x.number? = y.number? := by
  rcases rank?_eq_some_iff.mp hx with ⟨hxnan, hxrank⟩
  rcases rank?_eq_some_iff.mp hy with ⟨hynan, hyrank⟩
  rcases signed_inj (hxrank.trans hyrank.symm) with ⟨hsize, hsign⟩
  have hmagnitude : x.magnitude = y.magnitude := by
    unfold magnitude
    rw [parts_eq_of_size_eq hsize]
  have hfinite : x.isFinite = y.isFinite := by
    unfold isFinite
    rw [hsize]
  unfold number?
  rw [hxnan, hynan, hfinite, hmagnitude]
  rcases hsign with hsign | hzero
  · rw [hsign]
  · -- The two zeros differ in their sign alone.
    have hzero' : y.magnitude = 0 := magnitude_of_size_eq_zero (hsize ▸ hzero)
    have hfinite' : y.isFinite = true := by
      rw [<- hfinite, isFinite, hzero]
      rfl
    simp [hzero', hfinite']

/-!
## Integers with a significand of fifty-three bits
-/

theorem fractionUnit_eq : fractionUnit = 2 ^ 52 :=
  rfl

variable {n k significand : Nat}

theorem log2_of_significand (hlow : fractionUnit ≤ significand)
    (hhigh : significand < 2 * fractionUnit) : significand.log2 = 52 := by
  rw [fractionUnit_eq] at hlow hhigh
  have hne : significand ≠ 0 := by omega
  exact (Nat.log2_eq_iff hne).mpr ⟨hlow, by omega⟩

theorem log2_mul_two_pow (hn : n ≠ 0) (k : Nat) : (n * 2 ^ k).log2 = n.log2 + k := by
  have hpos : n * 2 ^ k ≠ 0 := Nat.mul_ne_zero hn (Nat.two_pow_pos k).ne'
  refine (Nat.log2_eq_iff hpos).mpr ⟨?_, ?_⟩
  · rw [Nat.pow_add]
    exact Nat.mul_le_mul_right _ (Nat.log2_self_le hn)
  · rw [Nat.add_right_comm, Nat.pow_add]
    exact Nat.mul_lt_mul_of_pos_right Nat.lt_log2_self (Nat.two_pow_pos k)

theorem roundHalfEven_mul (quotient : Nat) {denominator : Nat} (h : 0 < denominator) :
    roundHalfEven (quotient * denominator) denominator = quotient := by
  have hquotient : quotient * denominator / denominator = quotient :=
    Nat.mul_div_cancel quotient h
  have hremainder : quotient * denominator % denominator = 0 := Nat.mul_mod_left _ _
  unfold roundHalfEven
  simp only [hquotient, hremainder, Nat.mul_zero, if_pos h]

theorem significand_bounds (hn : n ≠ 0) (hbits : n.log2 ≤ 52) :
    fractionUnit ≤ n * 2 ^ (52 - n.log2) ∧ n * 2 ^ (52 - n.log2) < 2 * fractionUnit := by
  have hlog := log2_mul_two_pow hn (52 - n.log2)
  rw [Nat.add_sub_cancel' hbits] at hlog
  have hpos : n * 2 ^ (52 - n.log2) ≠ 0 := Nat.mul_ne_zero hn (Nat.two_pow_pos _).ne'
  have hbounds := (Nat.log2_eq_iff hpos).mp hlog
  rw [fractionUnit_eq]
  exact ⟨hbounds.1, by omega⟩

/-- An integer of at most fifty-three bits is its significand without some zeros at the
end. -/
theorem sizeOfNat_of_bits (hn : n ≠ 0) (hbits : n.log2 ≤ 52) :
    sizeOfNat n = (n.log2 + 1022) * fractionUnit + n * 2 ^ (52 - n.log2) := by
  have hhigh := (significand_bounds hn hbits).2
  simp only [sizeOfNat, if_neg hn, if_pos hbits, Nat.pow_eq]
  apply Nat.min_eq_right
  rw [fractionUnit_eq] at hhigh
  rw [infinitySize, fractionUnit_eq]
  omega

/-- An integer of more bits is rounded to its leading fifty-three, and that changes
nothing where only zeros follow. -/
theorem sizeOfNat_of_zeros (hlow : fractionUnit ≤ significand)
    (hhigh : significand < 2 * fractionUnit) (hk : k ≠ 0) :
    sizeOfNat (significand * 2 ^ k) =
      min infinitySize ((k + 1074) * fractionUnit + significand) := by
  have hne : significand ≠ 0 := by
    rw [fractionUnit_eq] at hlow
    omega
  have hlog : (significand * 2 ^ k).log2 = 52 + k := by
    rw [log2_mul_two_pow hne, log2_of_significand hlow hhigh]
  have hpos : significand * 2 ^ k ≠ 0 := Nat.mul_ne_zero hne (Nat.two_pow_pos k).ne'
  have hmany : ¬ 52 + k ≤ 52 := by omega
  have hround : roundHalfEven (significand * 2 ^ k) (2 ^ (52 + k - 52)) = significand := by
    rw [Nat.add_sub_cancel_left]
    exact roundHalfEven_mul significand (Nat.two_pow_pos k)
  have hexponent : 52 + k + 1022 = k + 1074 := by omega
  simp only [sizeOfNat, if_neg hpos, hlog, if_neg hmany, Nat.pow_eq, hround, hexponent]

/-!
## Integers that a double denotes
-/

/-- In a double with a leading bit the exponent, less one, stands above the significand. -/
theorem parts_of_fractionUnit_le {x : Binary64} (h : fractionUnit ≤ x.size) :
    x.parts.exponent = (x.size / fractionUnit : Nat) - 1075 ∧
      fractionUnit ≤ x.parts.significand ∧ x.parts.significand < 2 * fractionUnit ∧
      x.size = (x.size / fractionUnit - 1) * fractionUnit + x.parts.significand := by
  have hunit : 0 < fractionUnit := by decide
  have hbiased : x.size / fractionUnit ≠ 0 := (Nat.div_pos h hunit).ne'
  have hfraction := Nat.mod_lt x.size hunit
  have hsize := Nat.div_add_mod' x.size fractionUnit
  simp only [parts, if_neg hbiased]
  refine ⟨trivial, Nat.le_add_right _ _, by omega, ?_⟩
  rw [Nat.sub_mul, Nat.one_mul]
  have hle := Nat.le_mul_of_pos_left fractionUnit (Nat.pos_of_ne_zero hbiased)
  omega

theorem magnitude_lt_one {x : Binary64} (h : x.size < fractionUnit) : x.magnitude < 1 := by
  have hbiased : x.size / fractionUnit = 0 := Nat.div_eq_of_lt h
  have hparts : x.parts.significand = x.size ∧ x.parts.exponent = -1074 := by
    simp [parts, hbiased, Nat.mod_eq_of_lt h]
  rw [magnitude, hparts.1, hparts.2]
  have hbound : (x.size : ℚ) < 2 ^ 52 := by
    rw [fractionUnit_eq] at h
    exact_mod_cast h
  have hpow : (2 : ℚ) ^ 52 * 2 ^ (-1074 : Int) ≤ 1 := by
    rw [<- zpow_natCast, <- zpow_add₀ (by norm_num)]
    exact zpow_le_one_of_nonpos₀ (by norm_num) (by norm_num)
  have hpos : (0 : ℚ) < 2 ^ (-1074 : Int) := by positivity
  nlinarith

theorem size_of_magnitude_eq_zero {x : Binary64} (h : x.magnitude = 0) : x.size = 0 := by
  have htwo : (2 : ℚ) ^ x.parts.exponent ≠ 0 := zpow_ne_zero _ (by norm_num)
  have hsignificand : x.parts.significand = 0 := by
    rcases mul_eq_zero.mp h with hzero | hzero
    · exact_mod_cast hzero
    · exact absurd hzero htwo
  by_cases hsize : fractionUnit ≤ x.size
  · have hlow := (parts_of_fractionUnit_le hsize).2.1
    rw [hsignificand] at hlow
    cases hlow
  · have hbiased : x.size / fractionUnit = 0 := Nat.div_eq_of_lt (Nat.lt_of_not_le hsize)
    simpa [parts, hbiased, Nat.mod_eq_of_lt (Nat.lt_of_not_le hsize)] using hsignificand

theorem sizeOfNat_of_magnitude {x : Binary64} (hfinite : x.isFinite = true)
    (h : x.magnitude = (n : ℚ)) : sizeOfNat n = x.size := by
  have hbound : x.size < infinitySize := of_decide_eq_true hfinite
  have htwo : (2 : ℚ) ≠ 0 := by norm_num
  by_cases hn : n = 0
  · rw [hn, Nat.cast_zero] at h
    rw [hn, size_of_magnitude_eq_zero h]
    rfl
  · have hsize : fractionUnit ≤ x.size := by
      by_contra hsmall
      have hlt := magnitude_lt_one (Nat.lt_of_not_le hsmall)
      rw [h] at hlt
      exact hn (Nat.lt_one_iff.mp (by exact_mod_cast hlt))
    rcases parts_of_fractionUnit_le hsize with ⟨hexponent, hlow, hhigh, hparts⟩
    rw [magnitude] at h
    generalize x.parts.significand = significand at h hlow hhigh hparts
    rcases lt_or_ge 0 x.parts.exponent with hpositive | hnegative
    · obtain ⟨k, hk⟩ := Int.eq_ofNat_of_zero_le hpositive.le
      rw [hk, zpow_natCast] at h
      have hvalue : significand * 2 ^ k = n := by exact_mod_cast h
      rw [<- hvalue, sizeOfNat_of_zeros hlow hhigh (by omega)]
      have hbiased : x.size / fractionUnit - 1 = k + 1074 := by omega
      rw [hbiased] at hparts
      rw [<- hparts, Nat.min_eq_right hbound.le]
    · obtain ⟨k, hk⟩ := Int.eq_ofNat_of_zero_le (Int.neg_nonneg_of_nonpos hnegative)
      rw [Int.neg_eq_comm.mp hk |>.symm, zpow_neg, zpow_natCast,
        mul_inv_eq_iff_eq_mul₀ (pow_ne_zero k htwo)] at h
      have hvalue : significand = n * 2 ^ k := by exact_mod_cast h
      have hlog := log2_of_significand hlow hhigh
      rw [hvalue, log2_mul_two_pow hn] at hlog
      have hzeros : 52 - n.log2 = k := by omega
      have hbiased : x.size / fractionUnit - 1 = n.log2 + 1022 := by omega
      rw [hbiased, hvalue] at hparts
      rw [sizeOfNat_of_bits hn (by omega), hzeros, <- hparts]

theorem magnitude_nonneg (x : Binary64) : 0 ≤ x.magnitude := by
  unfold magnitude
  positivity

theorem number?_eq_rational_iff {x : Binary64} {q : ℚ} :
    x.number? = some (.rational q) <->
      x.isNaN = false ∧ x.isFinite = true ∧
        (if x.isNegative then -x.magnitude else x.magnitude) = q := by
  unfold number?
  cases x.isNaN <;> cases x.isFinite <;> simp

theorem rank?_of_number? {x : Binary64} {n : Int} (h : x.number? = some (.rational n)) :
    x.rank? = some (rankOfInt n) := by
  rcases number?_eq_rational_iff.mp h with ⟨hnan, hfinite, hvalue⟩
  have hnonneg := x.magnitude_nonneg
  refine rank?_eq_some_iff.mpr ⟨hnan, ?_⟩
  cases hsign : x.isNegative with
  | false =>
      rw [hsign, if_neg Bool.false_ne_true] at hvalue
      have hn : 0 ≤ n := by
        rw [hvalue] at hnonneg
        exact_mod_cast hnonneg
      lift n to ℕ using hn
      rw [rankOfInt_natCast, sizeOfNat_of_magnitude hfinite (by exact_mod_cast hvalue)]
      rfl
  | true =>
      rw [hsign, if_pos rfl] at hvalue
      have hmagnitude : x.magnitude = -n := by rw [<- hvalue, neg_neg]
      have hn : n ≤ 0 := by
        rw [hmagnitude] at hnonneg
        exact_mod_cast neg_nonneg.mp hnonneg
      obtain ⟨m, hm⟩ := Int.eq_ofNat_of_zero_le (Int.neg_nonneg_of_nonpos hn)
      have hcast : (-n : ℚ) = (m : ℚ) := by exact_mod_cast hm
      have hsize := sizeOfNat_of_magnitude hfinite (hmagnitude.trans hcast)
      have habs : n.natAbs = m := by omega
      rw [rankOfInt, habs, hsize]
      by_cases hzero : n < 0
      · rw [decide_eq_true hzero]
      · have hm0 : m = 0 := by omega
        have hsize0 : x.size = 0 := by rw [<- hsize, hm0]; rfl
        rw [hsize0, signed_zero, signed_zero]

/-!
## Ranks of rounded integers
-/

theorem sizeOfNat_le_infinitySize (n : Nat) : sizeOfNat n ≤ infinitySize := by
  unfold sizeOfNat
  split
  · exact Nat.zero_le _
  · exact Nat.min_le_left _ _

theorem rank?_ofSize (negative : Bool) {size : Nat} (h : size ≤ infinitySize) :
    (ofSize negative size).rank? = some (signed negative size) := by
  have hinfinity : infinitySize < signUnit := by decide
  have hunit : 2 * signUnit = 2 ^ 64 := by decide
  have hbits : (ofSize negative size).bits.toNat =
      if negative then signUnit + size else size := by
    rw [ofSize, UInt64.toNat_ofNat']
    apply Nat.mod_eq_of_lt
    split <;> omega
  have hsize : (ofSize negative size).size = size := by
    have hmod : size % signUnit = size := Nat.mod_eq_of_lt (by omega)
    rw [Binary64.size, hbits]
    cases negative with
    | false => exact hmod
    | true => exact (Nat.add_mod_left _ _).trans hmod
  have hsign : (ofSize negative size).isNegative = negative := by
    rw [isNegative, hbits]
    cases negative with
    | false =>
        have hsmall : ¬ signUnit ≤ size := by omega
        exact decide_eq_false hsmall
    | true => exact decide_eq_true (Nat.le_add_right _ _)
  have hnan : (ofSize negative size).isNaN = false := by
    rw [isNaN, hsize]
    exact decide_eq_false (by omega)
  rw [rank?_eq_some_iff, hsize, hsign]
  exact ⟨hnan, rfl⟩

/-- The rank of an integer is that of the double that it is rounded to. -/
theorem rank?_ofInt (n : Int) : (ofInt n).rank? = some (rankOfInt n) :=
  rank?_ofSize _ (sizeOfNat_le_infinitySize _)

/-!
## Integers of at most fifty-three bits
-/

theorem log2_le_of_lt (h : n < 2 ^ 53) : n.log2 ≤ 52 := by
  by_cases hn : n = 0
  · rw [hn]
    decide
  · exact Nat.le_of_lt_succ ((Nat.log2_lt hn).mpr h)

theorem sizeOfNat_lt_sizeOfNat {m : Nat} (hlt : n < m) (hbound : m < 2 ^ 53) :
    sizeOfNat n < sizeOfNat m := by
  have hm : m ≠ 0 := by omega
  have hmbits := log2_le_of_lt hbound
  have hmbounds := significand_bounds hm hmbits
  rw [sizeOfNat_of_bits hm hmbits]
  by_cases hn : n = 0
  · have hzero : sizeOfNat n = 0 := by rw [hn]; rfl
    have hpos : 0 < fractionUnit := by decide
    omega
  · have hnbits := log2_le_of_lt (hlt.trans hbound)
    have hnbounds := significand_bounds hn hnbits
    rw [sizeOfNat_of_bits hn hnbits]
    have hmono : n.log2 ≤ m.log2 :=
      (Nat.le_log2 hm).mpr ((Nat.log2_self_le hn).trans hlt.le)
    rcases hmono.eq_or_lt with hlog | hlog
    · rw [hlog]
      exact Nat.add_lt_add_left (Nat.mul_lt_mul_of_pos_right hlt (Nat.two_pow_pos _)) _
    · have hexponent : (n.log2 + 1022) * fractionUnit + fractionUnit ≤
          (m.log2 + 1022) * fractionUnit := by
        rw [<- Nat.succ_mul]
        exact Nat.mul_le_mul_right _ (by omega)
      omega

theorem rankOfInt_lt_rankOfInt {a b : Int} (hnonneg : 0 ≤ a) (hlt : a < b)
    (hbound : b < 2 ^ 53) : rankOfInt a < rankOfInt b := by
  lift a to ℕ using hnonneg
  lift b to ℕ using by omega
  have hsize : sizeOfNat a < sizeOfNat b :=
    sizeOfNat_lt_sizeOfNat (by exact_mod_cast hlt) (by exact_mod_cast hbound)
  rw [rankOfInt_natCast, rankOfInt_natCast]
  exact_mod_cast hsize

end Binary64
end DocumentMapper
