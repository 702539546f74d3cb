import Mathlib.Algebra.Order.Group.Nat
import Mathlib.Order.Monotone.Basic
import Mathlib.Tactic.Ring
import PredicateTree.Number.Binary64

/-!
# Proofs.Number.Rounding

Whole numbers as double-precision numbers.

* `nearest`: the number of at most 53 binary digits nearest to a whole number, a half to the even
  neighbour.
* `units_ofInt`: the conversion of a whole number gives exactly this one.
* `equals_iff`: what are numbers are equal exactly if they are the same multiple of the least unit.
* `equals_ofInt`: so two whole numbers are equal in floating point exactly if the nearest numbers of
  53 digits are the same.
-/

namespace PredicateTree

namespace Binary64

/-! ## Rounding to 53 binary digits -/

/-- The unit in which a count has at most 53 binary digits, as its exponent. -/
def lostDigits (n : Nat) : Nat := n.log2 - 52

/-- The multiple of this unit that is nearest to the count. -/
def nearestNat (n : Nat) : Nat := roundedQuotient n (2 ^ lostDigits n) * 2 ^ lostDigits n

def nearest (n : Int) : Int := if n < 0 then -(nearestNat n.natAbs : Int) else nearestNat n.natAbs

/-- What is rounded is off by half a unit at most, and by as much only to reach an even count. -/
theorem roundedQuotient_near {num den : Nat} (hden : 0 < den) :
    2 * ((num : Int) - den * roundedQuotient num den).natAbs ≤ den ∧
      (2 * ((num : Int) - den * roundedQuotient num den).natAbs = den →
        roundedQuotient num den % 2 = 0) := by
  have hnum : den * (num / den) + num % den = num := Nat.div_add_mod num den
  have hr : num % den < den := Nat.mod_lt num hden
  have hdown : (num : Int) - den * (num / den : Nat) = (num % den : Nat) := by
    have : (num : Int) = ((den * (num / den) + num % den : Nat) : Int) := by rw [hnum]
    push_cast at this ⊢
    omega
  have hup : (num : Int) - den * (num / den + 1 : Nat) = (num % den : Nat) - den := by
    push_cast at hdown ⊢
    rw [Int.mul_add, Int.mul_one]
    omega
  unfold roundedQuotient
  dsimp only
  split
  · rw [hdown]
    omega
  split
  · rw [hup]
    omega
  split
  · rw [hdown]
    omega
  · rw [hup]
    omega

theorem roundedQuotient_mul (q : Nat) {den : Nat} (hden : 0 < den) :
    roundedQuotient (q * den) den = q := by
  simp [roundedQuotient, Nat.mul_div_cancel q hden, hden]

theorem roundedQuotient_scaled (num den : Nat) {k : Nat} (hk : 0 < k) :
    roundedQuotient (num * k) (den * k) = roundedQuotient num den := by
  have hlt : ∀ a b : Nat, a * k < b * k ↔ a < b := fun a b => Nat.mul_lt_mul_right hk
  unfold roundedQuotient
  dsimp only
  rw [Nat.mul_div_mul_right num den hk, Nat.mul_mod_mul_right, ← Nat.mul_assoc]
  simp only [hlt]

theorem roundedQuotient_le {num den b : Nat} (h : num ≤ b * den) (hden : 0 < den) :
    roundedQuotient num den ≤ b := by
  have hnum : den * (num / den) + num % den = num := Nat.div_add_mod num den
  have hq : num / den ≤ b := Nat.div_le_of_le_mul (Nat.mul_comm b den ▸ h)
  have hexact : num / den = b → num % den = 0 := by
    rintro rfl
    rw [Nat.mul_comm] at h
    omega
  unfold roundedQuotient
  dsimp only
  split
  · exact hq
  · have : num / den ≠ b := fun heq => by
      have := hexact heq
      omega
    split <;> try split
    all_goals omega

theorem le_roundedQuotient {num den a : Nat} (h : a * den ≤ num) (hden : 0 < den) :
    a ≤ roundedQuotient num den := by
  have hq : a ≤ num / den := (Nat.le_div_iff_mul_le hden).2 h
  unfold roundedQuotient
  dsimp only
  split
  · exact hq
  split
  · omega
  split <;> omega

theorem nearestNat_of_dvd {n : Nat} (h : 2 ^ lostDigits n ∣ n) : nearestNat n = n := by
  unfold nearestNat
  generalize lostDigits n = k at h ⊢
  obtain ⟨q, rfl⟩ := h
  rw [Nat.mul_comm (2 ^ k) q, roundedQuotient_mul q (Nat.two_pow_pos k)]

theorem nearestNat_of_le {n : Nat} (h : n ≤ 2 ^ 53) : nearestNat n = n := by
  refine nearestNat_of_dvd ?_
  rcases Nat.lt_or_eq_of_le h with h | rfl
  · have hlog : lostDigits n = 0 := by
      by_cases hn : n = 0
      · subst hn
        decide
      · have := (Nat.log2_lt hn).2 h
        unfold lostDigits
        omega
    rw [hlog]
    exact one_dvd n
  · rw [lostDigits, Nat.log2_two_pow]
    exact Nat.pow_dvd_pow 2 (by decide)

theorem log2_mul_two_pow {n : Nat} (hn : n ≠ 0) (k : Nat) : (n * 2 ^ k).log2 = n.log2 + k := by
  have hlo : 2 ^ n.log2 ≤ n := Nat.log2_self_le hn
  have hhi : n < 2 ^ (n.log2 + 1) := Nat.lt_log2_self
  have hpos : n * 2 ^ k ≠ 0 := Nat.mul_ne_zero hn (Nat.two_pow_pos k).ne'
  refine (Nat.log2_eq_iff hpos).2 ⟨?_, ?_⟩
  · rw [Nat.pow_add]
    exact Nat.mul_le_mul_right _ hlo
  · rw [Nat.add_right_comm, Nat.pow_add]
    exact Nat.mul_lt_mul_of_pos_right hhi (Nat.two_pow_pos k)

/-- The number of digits is all that counts, not where they stand. -/
theorem nearestNat_scaled (n k : Nat) : nearestNat (n * 2 ^ k) = nearestNat n * 2 ^ k := by
  by_cases hn : n = 0
  · subst hn
    rw [Nat.zero_mul, nearestNat_of_le (Nat.zero_le _), Nat.zero_mul]
  · have hlog := log2_mul_two_pow hn k
    by_cases h52 : 52 ≤ n.log2
    · have hlost : lostDigits (n * 2 ^ k) = lostDigits n + k := by
        unfold lostDigits
        omega
      rw [nearestNat, hlost, Nat.pow_add, roundedQuotient_scaled _ _ (Nat.two_pow_pos k),
        ← Nat.mul_assoc]
      rfl
    · -- Nothing is lost before scaling, and what is lost after it are the new zeros.
      have hlost : lostDigits n = 0 := by
        unfold lostDigits
        omega
      have hle : lostDigits (n * 2 ^ k) ≤ k := by
        unfold lostDigits
        omega
      rw [nearestNat_of_dvd (Dvd.dvd.mul_left (Nat.pow_dvd_pow 2 hle) n),
        nearestNat_of_dvd (hlost ▸ one_dvd n)]

/-! ## Words and units -/

/-- The units that a word without its sign counts. -/
def unitsAt (m : Nat) : Nat :=
  if m / 2 ^ 52 = 0 then m % 2 ^ 52 else (2 ^ 52 + m % 2 ^ 52) * 2 ^ (m / 2 ^ 52 - 1)

theorem absUnits_eq (x : Binary64) : x.absUnits = unitsAt x.magnitude := rfl

/-- A count of at most 53 digits with its exponent in the field for it, also if the count carries
into the exponent. -/
theorem unitsAt_word {s q : Nat} (hlo : s = 0 ∨ 2 ^ 52 ≤ q) (hhi : q ≤ 2 ^ 53) :
    unitsAt (s * 2 ^ 52 + q) = q * 2 ^ s := by
  unfold unitsAt
  rcases Nat.lt_or_ge q (2 ^ 52) with hsmall | hlarge
  · obtain rfl : s = 0 := by omega
    rw [Nat.zero_mul, Nat.zero_add, if_pos (Nat.div_eq_of_lt hsmall), Nat.mod_eq_of_lt hsmall,
      Nat.pow_zero, Nat.mul_one]
  rcases Nat.lt_or_eq_of_le hhi with hmid | rfl
  · have hdiv : (s * 2 ^ 52 + q) / 2 ^ 52 = s + 1 := by omega
    have hmod : 2 ^ 52 + (s * 2 ^ 52 + q) % 2 ^ 52 = q := by omega
    rw [hdiv, hmod, if_neg (by omega), Nat.add_sub_cancel]
  · have hdiv : (s * 2 ^ 52 + 2 ^ 53) / 2 ^ 52 = s + 2 := by omega
    have hmod : (s * 2 ^ 52 + 2 ^ 53) % 2 ^ 52 = 0 := by omega
    rw [hdiv, hmod, if_neg (by omega), Nat.add_zero]
    have : s + 2 - 1 = s + 1 := by omega
    rw [this, Nat.pow_succ]
    omega

theorem unitsAt_lt_succ (m : Nat) : unitsAt m < unitsAt (m + 1) := by
  have hm : m = m / 2 ^ 52 * 2 ^ 52 + m % 2 ^ 52 := by omega
  have hf : m % 2 ^ 52 < 2 ^ 52 := Nat.mod_lt _ (by decide)
  generalize m / 2 ^ 52 = e, m % 2 ^ 52 = f at hm hf
  subst hm
  cases e with
  | zero =>
    have h := unitsAt_word (s := 0) (q := f) (.inl rfl) (by omega)
    have h' := unitsAt_word (s := 0) (q := f + 1) (.inl rfl) (by omega)
    rw [Nat.add_assoc, h, h']
    omega
  | succ s =>
    have hword : (s + 1) * 2 ^ 52 + f = s * 2 ^ 52 + (2 ^ 52 + f) := by omega
    have h := unitsAt_word (s := s) (q := 2 ^ 52 + f) (.inr (by omega)) (by omega)
    have h' := unitsAt_word (s := s) (q := 2 ^ 52 + f + 1) (.inr (by omega)) (by omega)
    rw [hword, Nat.add_assoc, h, h']
    exact Nat.mul_lt_mul_of_pos_right (Nat.lt_succ_self _) (Nat.two_pow_pos s)

theorem unitsAt_injective : Function.Injective unitsAt :=
  (strictMono_nat_of_lt_succ unitsAt_lt_succ).injective

/-- Numbers are equal exactly if they count the same units. -/
theorem equals_iff {x y : Binary64} (hx : x.isNaN = false) (hy : y.isNaN = false) :
    x.equals y = true ↔ x.units = y.units := by
  have hcompare : x.equals y = true ↔ x.orderKey = y.orderKey := by
    simp [equals, compare?, hx, hy]
  have hzero : unitsAt 0 = 0 := rfl
  have hm : unitsAt x.magnitude = unitsAt 0 ↔ x.magnitude = 0 := unitsAt_injective.eq_iff
  have hn : unitsAt y.magnitude = unitsAt 0 ↔ y.magnitude = 0 := unitsAt_injective.eq_iff
  have hmn : unitsAt x.magnitude = unitsAt y.magnitude ↔ x.magnitude = y.magnitude :=
    unitsAt_injective.eq_iff
  rw [hcompare, orderKey, orderKey, units, units, absUnits_eq, absUnits_eq]
  rw [hzero] at hm hn
  cases x.isNegative <;> cases y.isNegative <;> simp only [if_true, if_false, Bool.false_eq_true] <;>
    omega

/-! ## Whole numbers -/

section Fields

variable {negative : Bool} {m : Nat}

theorem toNat_bits_ofFields (h : m < 2 ^ 63) :
    (ofFields negative m).bits.toNat = if negative then m + 2 ^ 63 else m := by
  show (if negative then m + 2 ^ 63 else m) % 2 ^ 64 = _
  refine Nat.mod_eq_of_lt ?_
  split <;> omega

theorem magnitude_ofFields (h : m < 2 ^ 63) : (ofFields negative m).magnitude = m := by
  show (ofFields negative m).bits.toNat % 2 ^ 63 = m
  rw [toNat_bits_ofFields h]
  split <;> omega

theorem isNegative_ofFields (h : m < 2 ^ 63) : (ofFields negative m).isNegative = negative := by
  show decide (2 ^ 63 ≤ (ofFields negative m).bits.toNat) = negative
  rw [toNat_bits_ofFields h]
  cases negative with
  | true => exact decide_eq_true (Nat.le_add_left _ _)
  | false => exact decide_eq_false (Nat.not_le_of_lt h)

end Fields

/-- A count of units with few enough digits is rounded to 53 of them. -/
theorem ofRatio_one (negative : Bool) {n : Nat} (h : lostDigits n ≤ 2044) :
    ∃ m, m < infinityMagnitude ∧ unitsAt m = nearestNat n ∧
      ofRatio negative n 1 = ofFields negative m := by
  have hpos : 0 < 2 ^ lostDigits n := Nat.two_pow_pos _
  have hhi : roundedQuotient n (2 ^ lostDigits n) ≤ 2 ^ 53 := by
    refine roundedQuotient_le ?_ hpos
    rw [← Nat.pow_add]
    have hlt : n < 2 ^ (n.log2 + 1) := Nat.lt_log2_self
    have hpow : 2 ^ (n.log2 + 1) ≤ 2 ^ (53 + lostDigits n) :=
      Nat.pow_le_pow_right (by decide) (by unfold lostDigits; omega)
    omega
  have hlo : lostDigits n = 0 ∨ 2 ^ 52 ≤ roundedQuotient n (2 ^ lostDigits n) := by
    by_cases hlost : lostDigits n = 0
    · exact .inl hlost
    · refine .inr (le_roundedQuotient ?_ hpos)
      have hn : n ≠ 0 := by
        rintro rfl
        exact hlost rfl
      have hexp : 52 + lostDigits n = n.log2 := by
        unfold lostDigits at hlost ⊢
        omega
      rw [← Nat.pow_add, hexp]
      exact Nat.log2_self_le hn
  have hfinite : lostDigits n * 2 ^ 52 + roundedQuotient n (2 ^ lostDigits n) <
      infinityMagnitude := by
    have hinf : infinityMagnitude = 2047 * 2 ^ 52 := rfl
    omega
  refine ⟨_, hfinite, unitsAt_word hlo hhi, ?_⟩
  have hone : ∀ k, 1 * Nat.pow 2 k = 2 ^ k := fun k => Nat.one_mul _
  unfold ofRatio
  dsimp only
  rw [Nat.div_one, hone]
  exact if_pos hfinite

theorem exists_unitsPerOne_eq : ∃ k ≤ 1074, unitsPerOne = 2 ^ k := ⟨1074, le_rfl, Nat.pow_eq⟩

/-- The conversion of a whole number of at most 64 digits is the nearest number of 53 digits. -/
theorem units_ofInt {n : Int} (h : n.natAbs < 2 ^ 64) :
    (ofInt n).isNaN = false ∧ (ofInt n).units = nearest n * unitsPerOne := by
  obtain ⟨k, hk, hunits⟩ := exists_unitsPerOne_eq
  have hlost : lostDigits (n.natAbs * unitsPerOne) ≤ 2044 := by
    by_cases hn : n.natAbs = 0
    · rw [hn, Nat.zero_mul]
      decide
    · have hlog : n.natAbs.log2 < 64 := (Nat.log2_lt hn).2 h
      rw [hunits, lostDigits, log2_mul_two_pow hn]
      omega
  obtain ⟨m, hm, hunitsAt, hofRatio⟩ := ofRatio_one (decide (n < 0)) hlost
  have hm63 : m < 2 ^ 63 := Nat.lt_trans hm (by decide)
  have hnearest : unitsAt m = nearestNat n.natAbs * unitsPerOne := by
    rw [hunitsAt, hunits, nearestNat_scaled]
  unfold ofInt
  rw [hofRatio]
  constructor
  · rw [isNaN, magnitude_ofFields hm63]
    exact decide_eq_false (Nat.not_lt_of_le (Nat.le_of_lt hm))
  · rw [units, absUnits_eq, magnitude_ofFields hm63, isNegative_ofFields hm63, hnearest, nearest]
    by_cases hn : n < 0
    · rw [decide_eq_true hn, if_pos rfl, if_pos hn, Int.natCast_mul, Int.neg_mul]
    · rw [decide_eq_false hn, if_neg Bool.false_ne_true, if_neg hn, Int.natCast_mul]

/-- Two whole numbers are equal in floating point exactly if they have one nearest number. -/
theorem equals_ofInt {m n : Int} (hm : m.natAbs < 2 ^ 64) (hn : n.natAbs < 2 ^ 64) :
    (ofInt m).equals (ofInt n) = true ↔ nearest m = nearest n := by
  have hpos : (unitsPerOne : Int) ≠ 0 := by decide +kernel
  obtain ⟨hmnan, hmunits⟩ := units_ofInt hm
  obtain ⟨hnnan, hnunits⟩ := units_ofInt hn
  rw [equals_iff hmnan hnnan, hmunits, hnunits, mul_left_inj' hpos]

theorem nearest_of_le {n : Int} (h : n.natAbs ≤ 2 ^ 53) : nearest n = n := by
  rw [nearest, nearestNat_of_le h]
  split <;> omega

end Binary64

end PredicateTree
