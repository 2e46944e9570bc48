import NativeHeader.Number

/-!
# Numbers that are written and read again

A number is read as a size to which no other is nearer (`nearest?_nearest`).  A size itself is an
exact number of units, so all its decimal digits are read as this size (`ofDecimal?_exact`).  Digits
are left out only where what remains is still read so.  Hence what is written of a double tells which
one it is (`eq_of_shortest`, `ofDecimal_shortest`).
-/

namespace NativeHeader

theorem twoTo_pos (exponent : Nat) : 0 < twoTo exponent := Nat.two_pow_pos exponent

theorem tenTo_pos (exponent : Nat) : 0 < tenTo exponent := Nat.pow_pos (by decide)

theorem fiveTo_pos (exponent : Nat) : 0 < fiveTo exponent := Nat.pow_pos (by decide)

theorem twoTo_add (m n : Nat) : twoTo (m + n) = twoTo m * twoTo n := Nat.pow_add 2 m n

theorem twoTo_succ (exponent : Nat) : twoTo (exponent + 1) = 2 * twoTo exponent :=
  Nat.pow_succ'

theorem twoTo_le_twoTo {m n : Nat} (h : m ≤ n) : twoTo m ≤ twoTo n :=
  Nat.pow_le_pow_right (by decide) h

theorem twoTo_mul_fiveTo (exponent : Nat) : twoTo exponent * fiveTo exponent = tenTo exponent :=
  (Nat.mul_pow 2 5 exponent).symm

theorem digitCount_le_iff {number count : Nat} (h : 0 < count) :
    Decimal.digitCount number ≤ count ↔ number < tenTo count :=
  Nat.length_toDigits_le_iff (by decide) h

/-- A quotient without a remainder is not rounded. -/
theorem roundQuotient_mul (quotient : Nat) {den : Nat} (h : 0 < den) :
    roundQuotient (quotient * den) den = quotient := by
  simp [roundQuotient, Nat.mul_div_cancel _ h, h]

/-- No multiple of the divisor is nearer than the one that a rounded quotient gives. -/
theorem roundQuotient_nearest (num : Nat) {den : Nat} (h : 0 < den) (other : Nat) :
    ((den * roundQuotient num den : Nat) - num : Int).natAbs ≤
      ((den * other : Nat) - num : Int).natAbs := by
  have hsplit := Nat.div_add_mod num den
  have hlt := Nat.mod_lt num h
  have hbelow : other ≤ num / den ∨ num / den + 1 ≤ other := by omega
  have hnext : den * (num / den + 1) = den * (num / den) + den := Nat.mul_succ ..
  unfold roundQuotient
  dsimp only
  rcases hbelow with hbelow | habove
  · have hother := Nat.mul_le_mul_left den hbelow
    split <;> omega
  · have hother := Nat.mul_le_mul_left den habove
    split <;> omega

namespace Magnitude

theorem ofParts?_self (m : Magnitude) : ofParts? m.significand m.exponent = some m := by
  rw [ofParts?, dif_pos ⟨m.fits, m.normal, m.bounded⟩]

theorem eq_zero_of_significand {m : Magnitude} (h : m.significand = 0) : m = zero := by
  obtain ⟨significand, exponent, fits, normal, bounded⟩ := m
  obtain rfl : significand = 0 := h
  obtain rfl := normal.resolve_left (by decide)
  rfl

theorem units_pos {m : Magnitude} (h : m.significand ≠ 0) : 0 < m.units :=
  Nat.mul_pos (Nat.pos_of_ne_zero h) (twoTo_pos _)

/-- The power by which a size counts units is the one that leaves its units 53 bits, or the smallest
one. -/
theorem log2_units {m : Magnitude} (h : m.significand ≠ 0) :
    m.units.log2 - 52 = m.exponent := by
  have hfits : m.significand < 2 ^ 53 := m.fits
  rcases m.normal with hnormal | hsmallest
  · have hnormal : 2 ^ 52 ≤ m.significand := hnormal
    have hlog : (m.significand * 2 ^ m.exponent).log2 = 52 + m.exponent := by
      refine (Nat.log2_eq_iff (Nat.mul_ne_zero h (Nat.ne_of_gt (Nat.two_pow_pos _)))).2 ⟨?_, ?_⟩
      · rw [Nat.pow_add]
        exact Nat.mul_le_mul_right _ hnormal
      · rw [Nat.add_right_comm, Nat.pow_add]
        exact Nat.mul_lt_mul_of_pos_right hfits (Nat.two_pow_pos _)
    show (m.significand * 2 ^ m.exponent).log2 - 52 = m.exponent
    omega
  · have hlog : m.significand.log2 < 53 := (Nat.log2_lt h).2 hfits
    have hone : twoTo 0 = 1 := rfl
    rw [units, hsmallest, hone, Nat.mul_one]
    omega

theorem eq_of_ofParts? {significand exponent : Nat} {m : Magnitude}
    (h : ofParts? significand exponent = some m) :
    m.significand = significand ∧ m.exponent = exponent := by
  unfold ofParts? at h
  split at h
  · cases h
    exact ⟨rfl, rfl⟩
  · cases h

/-- The units of a size count by a power of two, or they are fewer than that power counts with 53
bits. -/
theorem dvd_units_or_lt (m : Magnitude) (exponent : Nat) :
    twoTo exponent ∣ m.units ∨ 0 < exponent ∧ m.units < twoTo 52 * twoTo exponent := by
  rcases Nat.lt_or_ge m.exponent exponent with hless | hmore
  · obtain ⟨previous, rfl⟩ : ∃ previous, exponent = previous + 1 := ⟨exponent - 1, by omega⟩
    refine .inr ⟨Nat.succ_pos _, ?_⟩
    rw [twoTo_succ previous, Nat.mul_left_comm, ← Nat.mul_assoc, ← twoTo_succ]
    exact Nat.mul_lt_mul_of_lt_of_le m.fits (twoTo_le_twoTo (Nat.le_of_lt_succ hless))
      (twoTo_pos _)
  · exact .inl (Nat.dvd_mul_left_of_dvd (Nat.pow_dvd_pow 2 hmore) _)

/-- No size is nearer to so many units than the nearest one. -/
theorem nearest?_nearest {num den : Nat} {m : Magnitude} (hden : 0 < den)
    (h : nearest? num den = some m) (other : Magnitude) :
    ((den * m.units : Nat) - num : Int).natAbs ≤ ((den * other.units : Nat) - num : Int).natAbs := by
  unfold nearest? at h
  dsimp only at h
  have hsmall : 0 < (num / den).log2 - 52 →
      twoTo 52 * twoTo ((num / den).log2 - 52) ≤ num / den := by
    intro hpos
    have hlog : 52 + ((num / den).log2 - 52) = (num / den).log2 := by omega
    have hne : num / den ≠ 0 := fun hzero => by simp [hzero] at hpos
    rw [← twoTo_add, hlog]
    exact Nat.log2_self_le hne
  generalize (num / den).log2 - 52 = exponent at h hsmall
  have hnearest := roundQuotient_nearest num (Nat.mul_pos hden (twoTo_pos exponent))
  have hunits : m.units = twoTo exponent * roundQuotient num (den * twoTo exponent) := by
    split at h
    · next hround =>
      -- the carry leaves the units as they are
      obtain ⟨hsignificand, hexponent⟩ := eq_of_ofParts? h
      rw [units, hsignificand, hexponent, hround, twoTo_succ exponent, twoTo_succ 52]
      ac_rfl
    · obtain ⟨hsignificand, hexponent⟩ := eq_of_ofParts? h
      rw [units, hsignificand, hexponent, Nat.mul_comm]
  rw [hunits, ← Nat.mul_assoc]
  rcases other.dvd_units_or_lt exponent with ⟨count, hcount⟩ | ⟨hpos, hless⟩
  · rw [hcount, ← Nat.mul_assoc]
    exact hnearest count
  · -- a smaller size lies beyond the one with the significand `2 ^ 52`
    have hother := Nat.mul_le_mul_left den (Nat.le_of_lt hless)
    have hnum : den * (twoTo 52 * twoTo exponent) ≤ num :=
      Nat.le_trans (Nat.mul_le_mul_left den (hsmall hpos)) (Nat.mul_div_le num den)
    have hbest := hnearest (twoTo 52)
    have hgrid : den * twoTo exponent * twoTo 52 = den * (twoTo 52 * twoTo exponent) := by ac_rfl
    rw [hgrid] at hbest
    generalize den * (twoTo 52 * twoTo exponent) = grid at hother hnum hbest
    generalize den * other.units = units at hother ⊢
    omega

/-- The size nearest to the units of a size is the size itself. -/
theorem nearest?_units {m : Magnitude} (h : m.significand ≠ 0) {den : Nat} (hden : 0 < den) :
    nearest? (m.units * den) den = some m := by
  have hpos : 0 < den * twoTo m.exponent := Nat.mul_pos hden (twoTo_pos _)
  have hround : roundQuotient (m.units * den) (den * twoTo m.exponent) = m.significand := by
    rw [units, Nat.mul_assoc, Nat.mul_comm (twoTo m.exponent) den]
    exact roundQuotient_mul _ hpos
  unfold nearest?
  dsimp only
  rw [Nat.mul_div_cancel _ hden, log2_units h, hround, if_neg (Nat.ne_of_lt m.fits), ofParts?_self]

/-- A size other than zero is neither too small nor too large for its power to be computed. -/
theorem digitCount_exactDigits {m : Magnitude} (h : m.significand ≠ 0) :
    743 < Decimal.digitCount m.exactDigits ∧ Decimal.digitCount m.exactDigits ≤ 1384 := by
  have hsmall : tenTo 743 ≤ fiveTo 1074 := by decide +kernel
  have hlarge : fiveTo 1074 * (twoTo 53 * twoTo 2045) < tenTo 1384 := by decide +kernel
  have hmost : m.units ≤ twoTo 53 * twoTo 2045 :=
    Nat.mul_le_mul (Nat.le_of_lt m.fits) (twoTo_le_twoTo m.bounded)
  constructor
  · refine Nat.lt_of_not_le fun hle => ?_
    have hlt := (digitCount_le_iff (by decide)).1 hle
    have hleast : fiveTo 1074 ≤ m.exactDigits := Nat.le_mul_of_pos_right _ (units_pos h)
    exact absurd (Nat.le_trans hsmall hleast) (Nat.not_le_of_lt hlt)
  · refine (digitCount_le_iff (by decide)).2 ?_
    exact Nat.lt_of_le_of_lt (Nat.mul_le_mul_left _ hmost) hlarge

/-- All digits of a size are read as this size. -/
theorem ofDecimal?_exact (m : Magnitude) : ofDecimal? ⟨m.exactDigits, -1074⟩ = some m := by
  by_cases h : m.significand = 0
  · have hdigits : m.exactDigits = 0 := by rw [exactDigits, units, h, Nat.zero_mul, Nat.mul_zero]
    rw [ofDecimal?, if_pos (.inl hdigits), eq_zero_of_significand h]
  · obtain ⟨hsmall, hlarge⟩ := digitCount_exactDigits h
    have hdigits : m.exactDigits ≠ 0 := Nat.ne_of_gt (Nat.mul_pos (fiveTo_pos _) (units_pos h))
    have hpoint : (⟨m.exactDigits, -1074⟩ : Decimal).point =
        Decimal.digitCount m.exactDigits + -1074 := rfl
    have hunits : twoTo 1074 * (m.exactDigits * tenTo 0) = m.units * tenTo 1074 := by
      have hone : tenTo 0 = 1 := rfl
      rw [hone, Nat.mul_one, exactDigits, ← Nat.mul_assoc, twoTo_mul_fiveTo, Nat.mul_comm]
    rw [ofDecimal?, if_neg, if_neg]
    · show nearest? (twoTo 1074 * (m.exactDigits * tenTo 0)) (tenTo 1074) = some m
      rw [hunits]
      exact nearest?_units h (tenTo_pos _)
    · rw [hpoint]
      omega
    · rw [hpoint]
      rintro (hzero | hless)
      · exact hdigits hzero
      · omega

theorem ofDecimal?_of_roundedTo? {m : Magnitude} {dropped : Nat} {d : Decimal}
    (h : m.roundedTo? dropped = some d) : ofDecimal? d = some m := by
  have hread := List.find?_some h
  exact of_decide_eq_true hread

/-- Digits are left out only if the rest is read as the same size, so what remains is, too. -/
theorem ofDecimal?_shortestFrom (m : Magnitude) (dropped : Nat) :
    ofDecimal? (m.shortestFrom dropped) = some m := by
  induction dropped with
  | zero => exact ofDecimal?_exact m
  | succ dropped ih =>
    rw [shortestFrom]
    split
    · next hrounded => exact ofDecimal?_of_roundedTo? hrounded
    · exact ih

theorem ofDecimal?_shortest (m : Magnitude) : ofDecimal? m.shortest = some m :=
  ofDecimal?_shortestFrom m _

/-- No two sizes have the same digits. -/
theorem eq_of_shortest {m other : Magnitude} (h : m.shortest = other.shortest) : m = other := by
  have hread := other.ofDecimal?_shortest
  rw [← h, m.ofDecimal?_shortest] at hread
  exact Option.some.inj hread

end Magnitude

/-- The digits that are written of a double are read as this double. -/
theorem Double.ofDecimal_shortest (negative : Bool) (m : Magnitude) :
    Double.ofDecimal negative m.shortest = .finite negative m := by
  rw [Double.ofDecimal, m.ofDecimal?_shortest]

end NativeHeader
