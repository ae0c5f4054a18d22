import PaymentLedger.Math.DecimalExact
import Mathlib.Data.Rat.Floor

namespace PaymentLedger

/-- The nearest multiple of `10 ^ x`, the greater one where two are equally near. -/
def halfUp (x : ℤ) (q : ℚ) : ℚ := ⌊q * 10 ^ (-x) + 1 / 2⌋ * 10 ^ x

theorem halfUp_mono (x : ℤ) {p q : ℚ} (h : p ≤ q) : halfUp x p ≤ halfUp x q := by
  have hle : p * 10 ^ (-x) + 1 / 2 ≤ q * 10 ^ (-x) + 1 / 2 := by gcongr
  have hfloor : (⌊p * 10 ^ (-x) + 1 / 2⌋ : ℚ) ≤ ⌊q * 10 ^ (-x) + 1 / 2⌋ := by
    exact_mod_cast Int.floor_le_floor hle
  exact mul_le_mul_of_nonneg_right hfloor (by positivity)

theorem abs_halfUp_sub_le (x : ℤ) (q : ℚ) : |halfUp x q - q| ≤ 1 / 2 * 10 ^ x := by
  have hp : (0 : ℚ) < 10 ^ x := by positivity
  have hq : q = q * 10 ^ (-x) * 10 ^ x := by
    rw [zpow_neg, mul_assoc, inv_mul_cancel₀ hp.ne', mul_one]
  have hlow := Int.sub_one_lt_floor (q * 10 ^ (-x) + 1 / 2)
  have hhigh := Int.floor_le (q * 10 ^ (-x) + 1 / 2)
  have hunit : |(⌊q * 10 ^ (-x) + 1 / 2⌋ : ℚ) - q * 10 ^ (-x)| ≤ 1 / 2 := by
    rw [abs_le]
    constructor <;> linarith
  have hdiff : halfUp x q - q = (⌊q * 10 ^ (-x) + 1 / 2⌋ - q * 10 ^ (-x)) * 10 ^ x := by
    rw [halfUp, sub_mul, ← hq]
  calc |halfUp x q - q| = |(⌊q * 10 ^ (-x) + 1 / 2⌋ : ℚ) - q * 10 ^ (-x)| * 10 ^ x := by
        rw [hdiff, abs_mul, abs_of_pos hp]
    _ ≤ 1 / 2 * 10 ^ x := mul_le_mul_of_nonneg_right hunit hp.le

theorem roundHalfUp_floor (n : ℕ) {d : ℕ} (hd : 0 < d) : (roundHalfUp n d : ℤ) = ⌊(n : ℚ) / d + 1 / 2⌋ := by
  have hq : (n : ℚ) / d + 1 / 2 = ((2 * n + d : ℕ) : ℚ) / (2 * d : ℕ) := by
    have hd' : (d : ℚ) ≠ 0 := by exact_mod_cast hd.ne'
    push_cast
    field_simp
  rw [hq, Rat.floor_natCast_div_natCast, roundHalfUp]
  push_cast
  rfl

namespace Decimal

theorem rescaleHalfUp_floor (c : ℕ) (e x : ℤ) :
    (rescaleHalfUp c e x : ℤ) = ⌊(c : ℚ) * 10 ^ e * 10 ^ (-x) + 1 / 2⌋ := by
  have hshift : (c : ℚ) * 10 ^ e * 10 ^ (-x) = c * 10 ^ (e - x) := by
    rw [mul_assoc, ← zpow_add₀ (by norm_num), ← sub_eq_add_neg]
  rw [hshift, rescaleHalfUp]
  by_cases hx : x ≤ e
  · have hpow : (10 : ℚ) ^ (e - x) = ((10 ^ (e - x).toNat : ℕ) : ℚ) := by
      rw [Nat.cast_pow, Nat.cast_ofNat, ← zpow_natCast, Int.toNat_of_nonneg (by omega)]
    rw [if_pos hx, hpow, ← Nat.cast_mul, Int.floor_natCast_add]
    norm_num
  · have hpow : (10 : ℚ) ^ (e - x) = 1 / ((10 ^ (x - e).toNat : ℕ) : ℚ) := by
      rw [Nat.cast_pow, Nat.cast_ofNat, ← zpow_natCast, Int.toNat_of_nonneg (by omega), one_div, ← zpow_neg]
      congr 1
      omega
    rw [if_neg hx, hpow, mul_one_div]
    exact roundHalfUp_floor c (by positivity)

/-- The value of the coefficient that a quantization keeps. -/
theorem rescaleHalfUp_toRat (c : ℕ) (e x : ℤ) :
    (finite false (rescaleHalfUp c e x) x).toRat = halfUp x (finite false c e).toRat := by
  have hfloor := rescaleHalfUp_floor c e x
  simp only [toRat, Bool.false_eq_true, if_false, halfUp]
  rw [← hfloor, Int.cast_natCast]

/-- A quantization that ends in a number rounds half up. -/
theorem quantize_halfUp {x : ℤ} (hx : defaultContext.etiny ≤ x ∧ x ≤ defaultContext.etop)
    {c : ℕ} {e : ℤ} {r : Decimal}
    (h : quantize defaultContext x (.finite false c e) = .ok r) :
    r = .finite false (rescaleHalfUp c e x) x := by
  have hlt : ¬(x < defaultContext.etiny ∨ defaultContext.emax < x) := by
    simp only [defaultContext, DecimalContext.etiny, DecimalContext.etop] at hx ⊢
    omega
  have hzero : fix defaultContext (.finite false 0 x) = .ok (.finite false 0 x) := by
    simp only [fix, if_true]
    congr 2
    simp only [defaultContext, DecimalContext.etiny, DecimalContext.etop] at hx ⊢
    omega
  simp only [quantize, hlt, if_false] at h
  split at h
  · rename_i hc
    rw [hzero] at h
    have hq : rescaleHalfUp c e x = 0 := by
      subst hc
      simp [rescaleHalfUp, roundHalfUp, Nat.div_eq_zero_iff]
    rw [hq]
    exact (Except.ok.inj h).symm
  · split at h
    · cases h
    · split at h
      · cases h
      · rename_i hq
        by_cases h0 : rescaleHalfUp c e x = 0
        · rw [h0, hzero] at h
          rw [h0]
          exact (Except.ok.inj h).symm
        · have hmin : ¬defaultContext.etop <
              max (x + digitCount (rescaleHalfUp c e x) - defaultContext.prec) defaultContext.etiny := by
            simp only [defaultContext, DecimalContext.etiny, DecimalContext.etop] at hx hq ⊢
            omega
          have hge : ¬x < max (x + digitCount (rescaleHalfUp c e x) - defaultContext.prec)
              defaultContext.etiny := by
            simp only [defaultContext, DecimalContext.etiny, DecimalContext.etop] at hx hq ⊢
            omega
          simp only [fix, h0, if_false, hmin, hge] at h
          exact (Except.ok.inj h).symm

theorem roundHalfEven_ge (n d : ℕ) : n / d ≤ roundHalfEven n d := by
  unfold roundHalfEven
  dsimp only
  split
  · exact Nat.le_succ _
  · exact le_rfl

theorem roundHalfEven_le (n d : ℕ) : roundHalfEven n d ≤ n / d + 1 := by
  unfold roundHalfEven
  dsimp only
  split
  · exact le_rfl
  · exact Nat.le_succ _

theorem fits_finite {ctx : DecimalContext} {s : Bool} {c : ℕ} {x : ℤ} (hc : c < 10 ^ ctx.prec) (hlo : ctx.etiny ≤ x)
    (hhi : x ≤ ctx.etop) : Fits ctx (finite s c x).toRat := by
  refine ⟨if s then -c else c, x, ?_, hlo, hhi, ?_⟩
  · cases s <;> simpa using hc
  · cases s <;> simp [toRat]

/-- Whatever rounding to the context returns, the context represents. -/
theorem fix_fits {ctx : DecimalContext} (hp : 0 < ctx.prec) (hrange : ctx.etiny ≤ ctx.etop)
    {s : Bool} {c : ℕ} {e : ℤ}
    {r : Decimal} (h : fix ctx (.finite s c e) = .ok r) : Fits ctx r.toRat := by
  by_cases hc : c = 0
  · rw [fix, if_pos hc] at h
    obtain rfl := Except.ok.inj h
    rw [toRat_zero]
    exact ⟨0, ctx.etiny, by simp, le_rfl, hrange, by simp⟩
  have hdigits := lt_pow_digitCount c
  have hL := digitCount_pos c
  set L := digitCount c with hLdef
  set x := max (e + L - ctx.prec) ctx.etiny with hx
  simp only [fix, hc, if_false, ← hLdef, ← hx] at h
  split at h
  · cases h
  rename_i htop
  split at h
  · rename_i hlt
    set q := roundHalfEven c (10 ^ (x - e).toNat) with hq
    -- what is left after the cut has at most `prec` digits, one more only by a carry
    have hcut : c / 10 ^ (x - e).toNat < 10 ^ ctx.prec := by
      rw [Nat.div_lt_iff_lt_mul (by positivity), ← pow_add]
      exact hdigits.trans_le (Nat.pow_le_pow_right (by decide) (by omega))
    have hbound : q ≤ 10 ^ ctx.prec := (roundHalfEven_le _ _).trans hcut
    split at h
    · split at h
      · cases h
      · obtain rfl := Except.ok.inj h
        have hten : 0 < 10 ^ ctx.prec := by positivity
        exact fits_finite (by omega) (by omega) (by omega)
    · rename_i hcarry
      obtain rfl := Except.ok.inj h
      exact fits_finite ((digitCount_le_iff _ _ hp).mp (by omega)) (by omega) (by omega)
  · obtain rfl := Except.ok.inj h
    rcases le_total e ctx.etop with he | he
    · exact fits_finite (hdigits.trans_le (Nat.pow_le_pow_right (by decide) (by omega))) (by omega) he
    · -- a large exponent is written out with zeros
      have hfold := (scaled_eq_iff c _ e ctx.etop he).mpr rfl
      rw [toRat_coeff s _ _ _ _ hfold]
      refine fits_finite ?_ hrange le_rfl
      calc c * 10 ^ (e - ctx.etop).toNat < 10 ^ L * 10 ^ (e - ctx.etop).toNat :=
            Nat.mul_lt_mul_of_pos_right hdigits (by positivity)
        _ = 10 ^ (L + (e - ctx.etop).toNat) := (pow_add ..).symm
        _ ≤ 10 ^ ctx.prec := Nat.pow_le_pow_right (by decide) (by omega)

/-- Rounding to the context does not fall below the power of ten that the number starts with. -/
theorem fix_ge {ctx : DecimalContext} (hp : 0 < ctx.prec) {s : Bool} {c : ℕ} {e : ℤ} {r : Decimal} (hc : c ≠ 0)
    (hnormal : ctx.etiny ≤ e + digitCount c - ctx.prec) (h : fix ctx (.finite s c e) = .ok r) :
    ∃ c' e', r = .finite s c' e' ∧ (10 : ℚ) ^ (e + digitCount c - 1) ≤ c' * 10 ^ e' := by
  have hlead : 10 ^ (digitCount c - 1) ≤ c := by
    rcases Nat.lt_or_ge 1 (digitCount c) with h1 | h1
    · exact pow_le_of_lt_digitCount (by omega) (by omega)
    · have h0 : digitCount c - 1 = 0 := by omega
      rw [h0, pow_zero]
      omega
  have hL := digitCount_pos c
  -- a coefficient of at least this many digits at an exponent is large enough
  have enough {m : ℕ} {x : ℤ} {k : ℕ} (hm : 10 ^ k ≤ m) (hk : e + digitCount c - 1 ≤ k + x) :
      (10 : ℚ) ^ (e + digitCount c - 1) ≤ m * 10 ^ x := by
    calc (10 : ℚ) ^ (e + digitCount c - 1) ≤ 10 ^ ((k : ℤ) + x) := zpow_le_zpow_right₀ (by norm_num) hk
      _ = ((10 ^ k : ℕ) : ℚ) * 10 ^ x := by
        rw [zpow_add₀ (by norm_num), zpow_natCast]
        push_cast
        rfl
      _ ≤ m * 10 ^ x := by
        apply mul_le_mul_of_nonneg_right
        · exact_mod_cast hm
        · positivity
  have hmax : max (e + digitCount c - ctx.prec) ctx.etiny = e + digitCount c - ctx.prec := max_eq_left hnormal
  simp only [fix, hc, if_false, hmax] at h
  split at h
  · cases h
  · split at h
    · rename_i hlt
      have hq : 10 ^ (ctx.prec - 1) ≤ roundHalfEven c (10 ^ (e + digitCount c - ctx.prec - e).toNat) := by
        apply le_trans _ (roundHalfEven_ge _ _)
        rw [Nat.le_div_iff_mul_le (by positivity), ← pow_add]
        apply le_trans _ hlead
        exact Nat.pow_le_pow_right (by decide) (by omega)
      split at h
      · rename_i hcarry
        split at h
        · cases h
        · obtain rfl := Except.ok.inj h
          refine ⟨_, _, rfl, enough (k := ctx.prec - 1) ?_ (by omega)⟩
          have hbig := pow_le_of_lt_digitCount hp hcarry
          rw [Nat.le_div_iff_mul_le (by decide), ← pow_succ, Nat.sub_add_cancel hp]
          exact hbig
      · obtain rfl := Except.ok.inj h
        exact ⟨_, _, rfl, enough hq (by omega)⟩
    · obtain rfl := Except.ok.inj h
      exact ⟨_, _, rfl, enough hlead (by omega)⟩

end Decimal
end PaymentLedger
