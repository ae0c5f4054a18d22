import PaymentLedger.Math.Decimal

namespace PaymentLedger
namespace Decimal

/-- A number the context represents without rounding. -/
def Fits (ctx : DecimalContext) (q : ℚ) : Prop :=
  ∃ m x : ℤ, m.natAbs < 10 ^ ctx.prec ∧ ctx.etiny ≤ x ∧ x ≤ ctx.etop ∧ q = m * 10 ^ x

theorem toRat_finite (s : Bool) (c : ℕ) (e : ℤ) :
    (finite s c e).toRat = (if s then -(c : ℚ) else c) * 10 ^ e := rfl

theorem toRat_zero (s : Bool) (e : ℤ) : (finite s 0 e).toRat = 0 := by
  cases s <;> simp [toRat]

theorem abs_toRat (s : Bool) (c : ℕ) (e : ℤ) : |(finite s c e).toRat| = c * 10 ^ e := by
  have hp : (0 : ℚ) < 10 ^ e := by positivity
  cases s <;> simp [toRat, abs_mul, abs_of_pos hp]

theorem toRat_coeff (s : Bool) (c d : ℕ) (e f : ℤ) (h : (c : ℚ) * 10 ^ e = d * 10 ^ f) :
    (finite s c e).toRat = (finite s d f).toRat := by
  cases s <;> simp [toRat, h]

/-- Two scaled integers are equal iff the one with the larger exponent, written out, is the other. -/
theorem scaled_eq_iff (c m : ℕ) (e x : ℤ) (hx : x ≤ e) :
    (c : ℚ) * 10 ^ e = m * 10 ^ x ↔ c * 10 ^ (e - x).toNat = m := by
  have hp : (10 : ℚ) ^ e = 10 ^ (e - x).toNat * 10 ^ x := by
    rw [← zpow_natCast, ← zpow_add₀ (by norm_num)]
    congr 1
    omega
  have h0 : (10 : ℚ) ^ x ≠ 0 := by positivity
  rw [hp, ← mul_assoc, mul_left_inj' h0]
  exact_mod_cast Iff.rfl

theorem ofInt_toRat (z : ℤ) (b : Bool) (x : ℤ) : (ofInt z b x).toRat = z * 10 ^ x := by
  rcases lt_trichotomy z 0 with hz | rfl | hz
  · have habs : (z.natAbs : ℚ) = -z := by rw [Nat.cast_natAbs, abs_of_neg hz]; push_cast; rfl
    rw [ofInt, if_neg hz.ne, toRat_finite, decide_eq_true hz, if_pos rfl, habs, neg_neg]
  · cases b <;> simp [ofInt, toRat]
  · have habs : (z.natAbs : ℚ) = z := by rw [Nat.cast_natAbs, abs_of_pos hz]
    rw [ofInt, if_neg hz.ne', toRat_finite, decide_eq_false hz.not_gt, if_neg (by simp), habs]

theorem coeffAt_scaled (s : Bool) (c : ℕ) (e x : ℤ) (hx : x ≤ e) :
    (coeffAt s c e x : ℚ) * 10 ^ x = (finite s c e).toRat := by
  have hs := (scaled_eq_iff c _ e x hx).mpr rfl
  push_cast at hs
  cases s <;> simp [coeffAt, toRat, hs]

theorem addExact_toRat (s : Bool) (c : ℕ) (e : ℤ) (t : Bool) (d : ℕ) (f : ℤ) :
    (addExact s c e t d f).toRat = (finite s c e).toRat + (finite t d f).toRat := by
  rw [addExact, ofInt_toRat, ← coeffAt_scaled s c e _ (min_le_left e f),
    ← coeffAt_scaled t d f _ (min_le_right e f)]
  push_cast
  ring

/-- Rounding to the context changes nothing when the number fits. -/
theorem fix_of_fits (ctx : DecimalContext) (hp : 0 < ctx.prec) (s : Bool) (c : ℕ) (e : ℤ)
    (h : Fits ctx (finite s c e).toRat) :
    ∃ c' e', fix ctx (finite s c e) = .ok (finite s c' e') ∧
      (finite s c' e').toRat = (finite s c e).toRat := by
  by_cases hc : c = 0
  · subst hc
    exact ⟨0, _, by rw [fix, if_pos rfl], by rw [toRat_zero, toRat_zero]⟩
  obtain ⟨m, x, hm, hlo, hhi, hv⟩ := h
  have habs : (c : ℚ) * 10 ^ e = m.natAbs * 10 ^ x := by
    have hx : (0 : ℚ) < 10 ^ x := by positivity
    rw [← abs_toRat s c e, hv, abs_mul, abs_of_pos hx, Nat.cast_natAbs, Int.cast_abs]
  set L := digitCount c with hL
  -- the smallest exponent the context allows is at most `x`
  have hmin : max (e + L - ctx.prec) ctx.etiny ≤ x := by
    refine max_le ?_ hlo
    rcases le_total x e with hxe | hex
    · have hcm := (scaled_eq_iff c _ e x hxe).mp habs
      have hlt : c * 10 ^ (e - x).toNat < 10 ^ ctx.prec := by rw [hcm]; exact hm
      by_contra hcon
      have hk : ctx.prec < L + (e - x).toNat := by omega
      have hcl : 10 ^ (L - 1) ≤ c := by
        rcases Nat.lt_or_ge 1 L with h1 | h1
        · exact pow_le_of_lt_digitCount (by omega) (by omega)
        · have : L - 1 = 0 := by omega
          rw [this, pow_zero]; omega
      have hbig : 10 ^ ctx.prec ≤ c * 10 ^ (e - x).toNat := by
        calc 10 ^ ctx.prec ≤ 10 ^ (L - 1 + (e - x).toNat) :=
              Nat.pow_le_pow_right (by decide) (by have := digitCount_pos c; omega)
          _ = 10 ^ (L - 1) * 10 ^ (e - x).toNat := pow_add ..
          _ ≤ c * 10 ^ (e - x).toNat := Nat.mul_le_mul_right _ hcl
      omega
    · have hcm := (scaled_eq_iff _ c x e hex).mp habs.symm
      have hlt : c < 10 ^ (ctx.prec + (x - e).toNat) := by
        rw [← hcm, pow_add]
        exact Nat.mul_lt_mul_of_pos_right hm (by positivity)
      have hle := (digitCount_le_iff c _ (by omega)).mpr hlt
      omega
  set y := max (e + L - ctx.prec) ctx.etiny with hy
  have hover : ¬ctx.etop < y := by omega
  by_cases hlt : e < y
  · -- the digits dropped are zeros
    have hcm := (scaled_eq_iff _ c x e (by omega)).mp habs.symm
    have hq : c = m.natAbs * 10 ^ (x - y).toNat * 10 ^ (y - e).toNat := by
      rw [← hcm, mul_assoc, ← pow_add]
      congr 2
      omega
    set q := m.natAbs * 10 ^ (x - y).toNat with hqd
    have hround : roundHalfEven c (10 ^ (y - e).toNat) = q := by
      rw [hq]
      exact roundHalfEven_mul q _ (by positivity)
    have hdig : ¬ctx.prec < digitCount q := by
      rw [not_lt, digitCount_le_iff _ _ hp]
      have hcl := lt_pow_digitCount c
      have hcl' : q * 10 ^ (y - e).toNat < 10 ^ ctx.prec * 10 ^ (y - e).toNat := by
        rw [← hq, ← pow_add]
        exact hcl.trans_le (Nat.pow_le_pow_right (by decide) (by omega))
      exact Nat.lt_of_mul_lt_mul_right hcl'
    refine ⟨q, y, ?_, ?_⟩
    · simp only [fix, hc, if_false, ← hL, ← hy, hover, hlt, if_true, hround, hdig]
    · exact toRat_coeff s _ _ _ _ ((scaled_eq_iff q c y e (by omega)).mpr hq.symm)
  · refine ⟨c, e, ?_, rfl⟩
    simp only [fix, hc, if_false, ← hL, ← hy, hover, hlt]

/-- Whatever a quantization returns has the requested exponent. -/
theorem quantize_exp (x : ℤ) (hx : defaultContext.etiny ≤ x ∧ x ≤ defaultContext.etop)
    (d r : Decimal) (h : quantize defaultContext x d = .ok r) :
    r = .nan false ∨ ∃ s c, r = .finite s c x := by
  have hlt : ¬(x < defaultContext.etiny ∨ defaultContext.emax < x) := by
    simp only [defaultContext, DecimalContext.etiny, DecimalContext.etop] at hx ⊢
    omega
  have zero (s : Bool) : fix defaultContext (.finite s 0 x) = .ok (.finite s 0 x) := by
    simp only [fix, if_true]
    congr 2
    simp only [defaultContext, DecimalContext.etiny, DecimalContext.etop] at hx ⊢
    omega
  cases d with
  | infinity s => simp [quantize] at h
  | nan s =>
    cases s with
    | true => simp [quantize] at h
    | false => left; simpa [quantize] using h.symm
  | finite s c e =>
    right
    simp only [quantize, hlt, if_false] at h
    split at h
    · rw [zero] at h
      exact ⟨s, 0, by simpa using h.symm⟩
    · split at h
      · simp at h
      · split at h
        · simp at h
        · rename_i hq
          by_cases h0 : rescaleHalfUp c e x = 0
          · rw [h0, zero] at h
            exact ⟨s, 0, by simpa using h.symm⟩
          · have hmin : ¬defaultContext.etop <
                max (x + digitCount (rescaleHalfUp c e x) - defaultContext.prec) defaultContext.etiny := by
              simp only [defaultContext, DecimalContext.etiny, DecimalContext.etop] at hx hq ⊢
              omega
            have hge : ¬x < max (x + digitCount (rescaleHalfUp c e x) - defaultContext.prec)
                defaultContext.etiny := by
              simp only [defaultContext, DecimalContext.etiny, DecimalContext.etop] at hx hq ⊢
              omega
            simp only [fix, h0, if_false, hmin, hge] at h
            exact ⟨s, _, by simpa using h.symm⟩

end Decimal
end PaymentLedger
