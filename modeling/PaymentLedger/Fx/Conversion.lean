import PaymentLedger.Domain.Payments
import PaymentLedger.Db.Columns
import PaymentLedger.Math.Rounding

namespace PaymentLedger

/-- A number that a `numeric(18, scale)` column represents, in any of its decimal forms. -/
def Decimal.InColumn (scale : ℕ) (d : Decimal) : Prop :=
  d.IsFinite ∧ ∃ z : ℤ, z.natAbs < 10 ^ 18 ∧ d.toRat = z * 10 ^ (-scale : ℤ)

/-- A conversion whose result can be stored. -/
structure StoredConversion (amount rate d : Decimal) : Prop where
  amountColumn : amount.InColumn 2
  amountPos : 0 < amount.toRat
  rateColumn : rate.InColumn 8
  ratePos : 0 < rate.toRat
  converted : convertAmount amount rate = .ok d
  stored : ∃ n, Numeric.ofDecimal 2 d = .ok n

namespace Decimal

theorem of_toRat_pos {d : Decimal} (h : 0 < d.toRat) : ∃ c e, d = .finite false c e ∧ c ≠ 0 := by
  cases d with
  | finite s c e =>
    have hp : (0 : ℚ) < 10 ^ e := by positivity
    cases s with
    | true =>
      have hle : (finite true c e).toRat ≤ 0 := by
        simp only [toRat, if_true]
        have hc : (0 : ℚ) ≤ c * 10 ^ e := by positivity
        linarith
      linarith
    | false =>
      refine ⟨c, e, rfl, ?_⟩
      rintro rfl
      rw [toRat_zero] at h
      exact absurd h (lt_irrefl 0)
  | infinity s => exact absurd h (lt_irrefl 0)
  | nan s => exact absurd h (lt_irrefl 0)

theorem toRat_mul (c d : ℕ) (e f : ℤ) :
    (finite false (c * d) (e + f)).toRat = (finite false c e).toRat * (finite false d f).toRat := by
  simp only [toRat, Bool.false_eq_true, if_false]
  rw [zpow_add₀ (by norm_num)]
  push_cast
  ring

/-- A stored number of two places is below 10 ^ 16. -/
theorem toRat_lt_of_stored {c : ℕ} {n : Numeric 2} (h : Numeric.ofDecimal 2 (.finite false c (-2)) = .ok n) :
    (finite false c (-2)).toRat < 10 ^ 16 := by
  have hr : rescaleHalfUp c (-2) (-2) = c := by simp [rescaleHalfUp]
  have hlt : c < 10 ^ 18 := by
    by_contra hge
    have hge' : ¬c < 1000000000000000000 := hge
    simp [Numeric.ofDecimal, hr, hge'] at h
  have hlt' : (c : ℚ) < 10 ^ 18 := by exact_mod_cast hlt
  simp only [toRat, Bool.false_eq_true, if_false]
  have hcents : (10 : ℚ) ^ (-2 : ℤ) = 1 / 100 := by norm_num
  rw [hcents]
  linarith

end Decimal

section Exact

variable {amount rate d : Decimal}

/-- A product below 10 ^ 18 has at most 28 digits, and the multiplication keeps them all; from a greater one the
result cannot be stored. -/
theorem StoredConversion.product (h : StoredConversion amount rate d) : ∃ c e c' e' :
    _, amount.toRat * rate.toRat = (Decimal.finite false c e).toRat ∧
    Decimal.quantize defaultContext (-2) (.finite false c' e') = .ok d ∧
    ((Decimal.finite false c' e').toRat = (Decimal.finite false c e).toRat ∨
      (10 : ℚ) ^ 18 ≤ (Decimal.finite false c' e').toRat) := by
  obtain ⟨c, e, rfl, hc⟩ := Decimal.of_toRat_pos h.amountPos
  obtain ⟨b, f, rfl, hb⟩ := Decimal.of_toRat_pos h.ratePos
  obtain ⟨z, -, hz⟩ := h.amountColumn.2
  obtain ⟨w, -, hw⟩ := h.rateColumn.2
  have hproduct := Decimal.toRat_mul c b e f
  have hcb : c * b ≠ 0 := Nat.mul_ne_zero hc hb
  have hmul : Decimal.mul defaultContext (.finite false c e) (.finite false b f) =
      Decimal.fix defaultContext (.finite false (c * b) (e + f)) := rfl
  obtain ⟨p, hp, hq⟩ := except_bind_ok.mp h.converted
  rw [hmul] at hp
  refine ⟨c * b, e + f, ?_⟩
  by_cases hbig : (10 : ℚ) ^ 18 ≤ (Decimal.finite false (c * b) (e + f)).toRat
  · have hlen : 18 < e + f + digitCount (c * b) := by
      have hlt : (Decimal.finite false (c * b) (e + f)).toRat < 10 ^ (digitCount (c * b) + (e + f)) := by
        have hcoeff : ((c * b : ℕ) : ℚ) < 10 ^ digitCount (c * b) := by exact_mod_cast lt_pow_digitCount (c * b)
        have hpos : (0 : ℚ) < 10 ^ (e + f) := by positivity
        rw [zpow_add₀ (by norm_num), zpow_natCast]
        simp only [Decimal.toRat, Bool.false_eq_true, if_false]
        exact mul_lt_mul_of_pos_right hcoeff hpos
      have hpow : (10 : ℚ) ^ (18 : ℤ) < 10 ^ (digitCount (c * b) + (e + f)) := hbig.trans_lt hlt
      have hexp := (zpow_lt_zpow_iff_right₀ (by norm_num : (1 : ℚ) < 10)).mp hpow
      omega
    have hnormal : defaultContext.etiny ≤ e + f + digitCount (c * b) - defaultContext.prec := by
      simp only [defaultContext, DecimalContext.etiny]
      omega
    obtain ⟨c', e', rfl, hge⟩ := Decimal.fix_ge (by decide) hcb hnormal hp
    refine ⟨c', e', hproduct.symm, hq, .inr ?_⟩
    have hlead : (10 : ℚ) ^ (18 : ℤ) ≤ 10 ^ (e + f + digitCount (c * b) - 1) :=
      zpow_le_zpow_right₀ (by norm_num) (by omega)
    simp only [Decimal.toRat, Bool.false_eq_true, if_false]
    exact hlead.trans hge
  · have hvalue : (Decimal.finite false (c * b) (e + f)).toRat = (z * w : ℤ) * 10 ^ (-10 : ℤ) := by
      rw [hproduct, hz, hw]
      push_cast
      norm_num
      ring
    have hnonneg : 0 ≤ (Decimal.finite false (c * b) (e + f)).toRat := by
      rw [hproduct]
      exact mul_nonneg h.amountPos.le h.ratePos.le
    have hfits : Decimal.Fits defaultContext (Decimal.finite false (c * b) (e + f)).toRat := by
      refine ⟨z * w, -10, ?_, by decide, by decide, hvalue⟩
      have hlt : ((z * w : ℤ) : ℚ) < 10 ^ 28 := by
        rw [not_le, hvalue] at hbig
        norm_num at hbig ⊢
        linarith
      have hge : (0 : ℚ) ≤ ((z * w : ℤ) : ℚ) := by
        rw [hvalue] at hnonneg
        norm_num at hnonneg ⊢
        exact hnonneg
      have hlt' : z * w < 10 ^ 28 := by exact_mod_cast hlt
      have hge' : 0 ≤ z * w := by exact_mod_cast hge
      show (z * w).natAbs < 10 ^ 28
      omega
    obtain ⟨c', e', hfix, hsame⟩ := Decimal.fix_of_fits defaultContext (by decide) false (c * b) (e + f) hfits
    obtain rfl := Except.ok.inj (hp.symm.trans hfix)
    exact ⟨c', e', hproduct.symm, hq, .inl hsame⟩

theorem StoredConversion.exact (h : StoredConversion amount rate d) :
    d.IsFinite ∧ d.toRat = halfUp (-2) (amount.toRat * rate.toRat) := by
  obtain ⟨c, e, c', e', hproduct, hquantize, hcase⟩ := h.product
  have hd := Decimal.quantize_halfUp (by decide) hquantize
  have hvalue : d.toRat = halfUp (-2) (Decimal.finite false c' e').toRat := by
    rw [hd, Decimal.rescaleHalfUp_toRat]
  rcases hcase with hsame | hbig
  · rw [hproduct, ← hsame]
    exact ⟨by rw [hd]; trivial, hvalue⟩
  · exfalso
    obtain ⟨n, hn⟩ := h.stored
    rw [hd] at hn
    have hlt := Decimal.toRat_lt_of_stored hn
    rw [← hd, hvalue] at hlt
    have hmono := halfUp_mono (-2) hbig
    have hround := abs_le.mp (abs_halfUp_sub_le (-2) ((10 : ℚ) ^ 18))
    norm_num at hlt hmono hround
    linarith

/-- A conversion that can be booked is the exact product rounded half up to cents; so it is at most half a cent
off, and a greater amount or rate never converts to less. -/
theorem conversion_exactly_rounded : (∀ amount rate d, StoredConversion amount rate d →
      d.IsFinite ∧ d.toRat = halfUp (-2) (amount.toRat * rate.toRat) ∧
        |d.toRat - amount.toRat * rate.toRat| ≤ 1 / 200) ∧
    ∀ amount rate d amount' rate' d', StoredConversion amount rate d → StoredConversion amount' rate' d' →
      amount.toRat ≤ amount'.toRat → rate.toRat ≤ rate'.toRat → d.toRat ≤ d'.toRat := by
  constructor
  · intro amount rate d h
    obtain ⟨hfinite, hexact⟩ := h.exact
    refine ⟨hfinite, hexact, ?_⟩
    have hround := abs_halfUp_sub_le (-2) (amount.toRat * rate.toRat)
    rw [hexact]
    norm_num at hround ⊢
    exact hround
  · intro amount rate d amount' rate' d' h h' hamount hrate
    rw [h.exact.2, h'.exact.2]
    exact halfUp_mono (-2) (mul_le_mul hamount hrate h.ratePos.le (h.amountPos.le.trans hamount))

/-- 10.00 at the rate 0.745, and 1.00 at the rate 0.005, which is half a cent. -/
theorem conversion_exactly_rounded_cents :
    (Decimal.finite false 745 (-2)).toRat = halfUp (-2) (10 * (745 / 1000)) ∧
      (Decimal.finite false 1 (-2)).toRat ≤ (Decimal.finite false 745 (-2)).toRat := by
  have hlarge : StoredConversion (.finite false 1000 (-2)) (.finite false 74500000 (-8)) (.finite false 745 (-2)) :=
    { amountColumn := ⟨trivial, 1000, by decide, by norm_num [Decimal.toRat]⟩
      amountPos := by norm_num [Decimal.toRat]
      rateColumn := ⟨trivial, 74500000, by decide, by norm_num [Decimal.toRat]⟩
      ratePos := by norm_num [Decimal.toRat]
      converted := by decide +kernel
      stored := ⟨.num 745 (by decide), by decide +kernel⟩ }
  have hsmall : StoredConversion (.finite false 100 (-2)) (.finite false 500000 (-8)) (.finite false 1 (-2)) :=
    { amountColumn := ⟨trivial, 100, by decide, by norm_num [Decimal.toRat]⟩
      amountPos := by norm_num [Decimal.toRat]
      rateColumn := ⟨trivial, 500000, by decide, by norm_num [Decimal.toRat]⟩
      ratePos := by norm_num [Decimal.toRat]
      converted := by decide +kernel
      stored := ⟨.num 1 (by decide), by decide +kernel⟩ }
  constructor
  · have hexact := (conversion_exactly_rounded.1 _ _ _ hlarge).2.1
    rw [hexact]
    norm_num [Decimal.toRat]
  · exact conversion_exactly_rounded.2 _ _ _ _ _ _ hsmall hlarge (by norm_num [Decimal.toRat])
      (by norm_num [Decimal.toRat])

end Exact
end PaymentLedger
