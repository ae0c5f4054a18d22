import Mathlib.Tactic

namespace PaymentLedger
namespace Crc

variable {w : ℕ} {poly : BitVec w}

/-- One shift of the register: the bit that falls out takes the polynomial off. -/
def shift (poly c : BitVec w) : BitVec w := if c.msb then (c <<< 1) ^^^ poly else c <<< 1

def shifts (poly : BitVec w) : ℕ → BitVec w → BitVec w
  | 0, c => c
  | n + 1, c => shifts poly n (shift poly c)

/-- A word enters the register, which is then shifted. -/
def feed (poly : BitVec w) (n : ℕ) (c word : BitVec w) : BitVec w := shifts poly n (c ^^^ word)

/-- What words leave in the register. -/
def remainder (poly : BitVec w) (n : ℕ) (c : BitVec w) (words : List (BitVec w)) : BitVec w :=
  words.foldl (feed poly n) c

theorem xor_cancel_right {a b c : BitVec w} : a ^^^ c = b ^^^ c ↔ a = b := by
  constructor
  · intro h
    have hc := congrArg (· ^^^ c) h
    simpa only [BitVec.xor_assoc, BitVec.xor_self, BitVec.xor_zero] using hc
  · rintro rfl
    rfl

theorem xor_eq_zero {a b : BitVec w} : a ^^^ b = 0 ↔ a = b := by
  have h := @xor_cancel_right w a b b
  rwa [BitVec.xor_self] at h

theorem shift_xor (a b : BitVec w) : shift poly (a ^^^ b) = shift poly a ^^^ shift poly b := by
  have hcancel : a <<< 1 ^^^ poly ^^^ (b <<< 1 ^^^ poly) = a <<< 1 ^^^ b <<< 1 := by
    rw [BitVec.xor_assoc, BitVec.xor_comm poly, BitVec.xor_assoc, BitVec.xor_self, BitVec.xor_zero]
  have hright : a <<< 1 ^^^ b <<< 1 ^^^ poly = a <<< 1 ^^^ (b <<< 1 ^^^ poly) := BitVec.xor_assoc _ _ _
  have hleft : a <<< 1 ^^^ b <<< 1 ^^^ poly = a <<< 1 ^^^ poly ^^^ b <<< 1 := by
    rw [BitVec.xor_assoc, BitVec.xor_assoc, BitVec.xor_comm (b <<< 1)]
  unfold shift
  rw [BitVec.msb_xor, BitVec.shiftLeft_xor_distrib]
  cases a.msb <;> cases b.msb
  · rfl
  · exact hright
  · exact hleft
  · exact hcancel.symm

theorem shift_zero : shift poly 0 = 0 := by
  have h := @shift_xor w poly 0 0
  rwa [BitVec.xor_self, BitVec.xor_self] at h

/-- A polynomial with a constant term takes no difference to zero. -/
theorem shift_eq_zero (hp : poly.getLsbD 0 = true) {c : BitVec w} : shift poly c = 0 ↔ c = 0 := by
  constructor
  · intro h
    have hw : 0 < w := by
      by_contra h0
      rw [BitVec.getLsbD_of_ge poly 0 (by omega)] at hp
      cases hp
    unfold shift at h
    split at h
    · -- the lowest bit of the result is that of the polynomial
      have hbit := congrArg (fun x => x.getLsbD 0) h
      simp [hp] at hbit
    · rename_i hmsb
      apply BitVec.eq_of_getLsbD_eq
      intro i hi
      by_cases hlast : i = w - 1
      · have htop : c.getLsbD (w - 1) = false := by
          simpa [BitVec.msb_eq_getLsbD_last] using hmsb
        rw [hlast, htop]
        simp
      · have hbit := congrArg (fun x => x.getLsbD (i + 1)) h
        have hlt : i + 1 < w := by omega
        simpa [hlt, BitVec.getLsbD_eq_getElem hi] using hbit
  · rintro rfl
    exact shift_zero

theorem shifts_xor (n : ℕ) (a b : BitVec w) : shifts poly n (a ^^^ b) = shifts poly n a ^^^ shifts poly n b := by
  induction n generalizing a b with
  | zero => rfl
  | succ n ih => rw [shifts, shift_xor, ih, shifts, shifts]

theorem shifts_eq_zero (hp : poly.getLsbD 0 = true) {n : ℕ} {c : BitVec w} : shifts poly n c = 0 ↔ c = 0 := by
  induction n generalizing c with
  | zero => exact Iff.rfl
  | succ n ih => rw [shifts, ih, shift_eq_zero hp]

theorem shifts_inj (hp : poly.getLsbD 0 = true) {n : ℕ} {a b : BitVec w} :
    shifts poly n a = shifts poly n b ↔ a = b := by
  rw [← xor_eq_zero, ← shifts_xor, shifts_eq_zero hp, xor_eq_zero]

section Words

variable {n : ℕ} {c c' : BitVec w} {a b : BitVec w} {u v : List (BitVec w)}

theorem remainder_cons : remainder poly n c (a :: v) = remainder poly n (feed poly n c a) v := List.foldl_cons ..

theorem remainder_append : remainder poly n c (u ++ v) = remainder poly n (remainder poly n c u) v :=
  List.foldl_append

/-- What follows keeps a difference. -/
theorem remainder_inj (hp : poly.getLsbD 0 = true) (v : List (BitVec w)) :
    remainder poly n c v = remainder poly n c' v ↔ c = c' := by
  induction v generalizing c c' with
  | nil => exact Iff.rfl
  | cons a v ih =>
    rw [remainder, remainder, List.foldl_cons, List.foldl_cons]
    exact ih.trans ((shifts_inj hp).trans xor_cancel_right)

/-- One word changed, the remainder changes. -/
theorem remainder_replaced (hp : poly.getLsbD 0 = true) :
    remainder poly n c (u ++ a :: v) = remainder poly n c (u ++ b :: v) ↔ a = b := by
  rw [remainder_append, remainder_append, remainder_cons, remainder_cons]
  apply (remainder_inj hp v).trans
  rw [feed, feed, shifts_inj hp, BitVec.xor_comm, BitVec.xor_comm _ b, xor_cancel_right]

/-- Two neighbours swapped, the remainder changes unless the shifts fix their difference. -/
theorem remainder_swapped (hp : poly.getLsbD 0 = true) :
    remainder poly n c (u ++ a :: b :: v) = remainder poly n c (u ++ b :: a :: v) ↔
      shifts poly n (a ^^^ b) = a ^^^ b := by
  -- after the two words the register holds the shifts of this
  have two (x y d : BitVec w) :
      feed poly n (feed poly n d x) y = shifts poly n (shifts poly n d ^^^ (shifts poly n x ^^^ y)) := by
    rw [feed, feed, shifts_xor n d x, BitVec.xor_assoc]
  rw [remainder_append, remainder_append, remainder_cons, remainder_cons, remainder_cons, remainder_cons]
  apply (remainder_inj hp v).trans
  rw [two, two, shifts_inj hp, BitVec.xor_comm, BitVec.xor_comm (shifts poly n _) (_ ^^^ a), xor_cancel_right,
    ← xor_eq_zero, ← @xor_eq_zero w (shifts poly n (a ^^^ b)), shifts_xor]
  have hswap :
      shifts poly n a ^^^ b ^^^ (shifts poly n b ^^^ a) = shifts poly n a ^^^ shifts poly n b ^^^ (a ^^^ b) := by
    ac_rfl
  rw [hswap]

end Words
end Crc
end PaymentLedger
