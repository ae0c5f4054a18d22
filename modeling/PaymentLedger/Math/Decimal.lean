import Mathlib.Data.Nat.Digits.Lemmas
import Mathlib.Algebra.Order.Field.Basic
import Mathlib.Data.Rat.Defs
import Mathlib.Tactic

namespace PaymentLedger

/-- The two trapped signals of the default context that arithmetic can raise. -/
inductive DecimalSignal where
  | invalidOperation
  | overflow
  deriving DecidableEq, Repr

/-- A decimal floating point number: a sign, a coefficient and an exponent of ten,
an infinity, or a NaN. -/
inductive Decimal where
  | finite (neg : Bool) (coeff : ℕ) (exp : ℤ)
  | infinity (neg : Bool)
  | nan (signaling : Bool)
  deriving DecidableEq, Repr

/-- Precision and exponent range of an arithmetic context. -/
structure DecimalContext where
  prec : ℕ
  emin : ℤ
  emax : ℤ

/-- The context every thread starts with: 28 digits, rounding half to even. -/
def defaultContext : DecimalContext := ⟨28, -999999, 999999⟩

def DecimalContext.etiny (ctx : DecimalContext) : ℤ := ctx.emin - ctx.prec + 1

def DecimalContext.etop (ctx : DecimalContext) : ℤ := ctx.emax - ctx.prec + 1

/-- Quotient rounded to the nearest integer, ties to even. -/
def roundHalfEven (n d : ℕ) : ℕ :=
  let q := n / d
  let r := n % d
  if d < 2 * r ∨ (2 * r = d ∧ q % 2 = 1) then q + 1 else q

/-- Quotient rounded to the nearest integer, ties away from zero. -/
def roundHalfUp (n d : ℕ) : ℕ := (2 * n + d) / (2 * d)

def digitCount (n : ℕ) : ℕ := (Nat.toDigits 10 n).length

theorem digitCount_le_iff (n k : ℕ) (hk : 0 < k) : digitCount n ≤ k ↔ n < 10 ^ k :=
  Nat.length_toDigits_le_iff (by decide) hk

theorem digitCount_pos (n : ℕ) : 0 < digitCount n := by
  rcases Nat.eq_zero_or_pos (digitCount n) with h | h
  · simp [digitCount] at h
  · exact h

theorem lt_pow_digitCount (n : ℕ) : n < 10 ^ digitCount n :=
  (digitCount_le_iff n _ (digitCount_pos n)).mp le_rfl

theorem pow_le_of_lt_digitCount {n k : ℕ} (hk : 0 < k) (h : k < digitCount n) : 10 ^ k ≤ n := by
  by_contra hn
  have hc := (digitCount_le_iff n k hk).mpr (by omega)
  omega

theorem roundHalfEven_mul (q d : ℕ) (hd : 0 < d) : roundHalfEven (q * d) d = q := by
  simp [roundHalfEven, Nat.mul_div_cancel _ hd, hd.ne]

theorem roundHalfUp_mul (q d : ℕ) (hd : 0 < d) : roundHalfUp (q * d) d = q := by
  rw [roundHalfUp, show 2 * (q * d) + d = d + q * (2 * d) by ring,
    Nat.add_mul_div_right _ _ (by omega), Nat.div_eq_of_lt (by omega), zero_add]

namespace Decimal

def isSignaling : Decimal → Bool
  | .nan s => s
  | _ => false

/-- The number a finite decimal stands for; the special values have none. -/
def toRat : Decimal → ℚ
  | .finite neg c e => (if neg then -(c : ℚ) else c) * 10 ^ e
  | _ => 0

def IsFinite : Decimal → Prop
  | .finite .. => True
  | _ => False

instance (d : Decimal) : Decidable d.IsFinite := by
  cases d <;> unfold IsFinite <;> infer_instance

/-- Rounding of a result to the precision and the exponent range of the context. -/
def fix (ctx : DecimalContext) : Decimal → Except DecimalSignal Decimal
  | .finite neg c e =>
    if c = 0 then .ok (.finite neg 0 (min (max e ctx.etiny) ctx.emax))
    else
      let expMin := max (e + digitCount c - ctx.prec) ctx.etiny
      if ctx.etop < expMin then .error .overflow
      else if e < expMin then
        let q := roundHalfEven c (10 ^ (expMin - e).toNat)
        -- a carry out of the top digit leaves one digit too many
        if ctx.prec < digitCount q then
          if ctx.etop < expMin + 1 then .error .overflow else .ok (.finite neg (q / 10) (expMin + 1))
        else .ok (.finite neg q expMin)
      else .ok (.finite neg c e)
  | d => .ok d

/-- The integer `z` at exponent `x`; zero takes the sign given for it. -/
def ofInt (z : ℤ) (zeroNeg : Bool) (x : ℤ) : Decimal :=
  .finite (if z = 0 then zeroNeg else decide (z < 0)) z.natAbs x

/-- A signed coefficient written out at the exponent `x ≤ e`. -/
def coeffAt (s : Bool) (c : ℕ) (e x : ℤ) : ℤ :=
  if s then -(c * 10 ^ (e - x).toNat) else c * 10 ^ (e - x).toNat

/-- The exact sum, with the smaller exponent of the two. -/
def addExact (s : Bool) (c : ℕ) (e : ℤ) (t : Bool) (d : ℕ) (f : ℤ) : Decimal :=
  ofInt (coeffAt s c e (min e f) + coeffAt t d f (min e f)) (s && t) (min e f)

def add (ctx : DecimalContext) (x y : Decimal) : Except DecimalSignal Decimal :=
  if x.isSignaling || y.isSignaling then .error .invalidOperation
  else match x, y with
    | .nan _, _ => .ok (.nan false)
    | _, .nan _ => .ok (.nan false)
    | .infinity s, .infinity t => if s = t then .ok (.infinity s) else .error .invalidOperation
    | .infinity s, .finite .. => .ok (.infinity s)
    | .finite .., .infinity t => .ok (.infinity t)
    | .finite s c e, .finite t d f => fix ctx (addExact s c e t d f)

/-- Unary minus: rounds to the context, and never returns a negative zero. -/
def neg (ctx : DecimalContext) : Decimal → Except DecimalSignal Decimal
  | .finite s c e => fix ctx (.finite (!s && decide (c ≠ 0)) c e)
  | .infinity s => .ok (.infinity (!s))
  | .nan s => if s then .error .invalidOperation else .ok (.nan false)

def mul (ctx : DecimalContext) (x y : Decimal) : Except DecimalSignal Decimal :=
  if x.isSignaling || y.isSignaling then .error .invalidOperation
  else match x, y with
    | .nan _, _ => .ok (.nan false)
    | _, .nan _ => .ok (.nan false)
    | .infinity s, .infinity t => .ok (.infinity (s ^^ t))
    | .infinity s, .finite t d _ => if d = 0 then .error .invalidOperation else .ok (.infinity (s ^^ t))
    | .finite s c _, .infinity t => if c = 0 then .error .invalidOperation else .ok (.infinity (s ^^ t))
    | .finite s c e, .finite t d f => fix ctx (.finite (s ^^ t) (c * d) (e + f))

/-- `d <= 0`; an ordering comparison with any NaN is an invalid operation. -/
def nonPositive : Decimal → Except DecimalSignal Bool
  | .finite s c _ => .ok (s || decide (c = 0))
  | .infinity s => .ok s
  | .nan _ => .error .invalidOperation

/-- `d == 0` for a value that is not a signaling NaN. -/
def isZero : Decimal → Bool
  | .finite _ c _ => decide (c = 0)
  | _ => false

/-- `x == y`; only a signaling NaN is an invalid operation here. -/
def eq (x y : Decimal) : Except DecimalSignal Bool :=
  if x.isSignaling || y.isSignaling then .error .invalidOperation
  else match x, y with
    | .finite s c e, .finite t d f => .ok (addExact s c e (!t) d f).isZero
    | .infinity s, .infinity t => .ok (decide (s = t))
    | _, _ => .ok false

/-- The coefficient at exponent `x`, rounded half up when digits are dropped. -/
def rescaleHalfUp (c : ℕ) (e x : ℤ) : ℕ :=
  if x ≤ e then c * 10 ^ (e - x).toNat else roundHalfUp c (10 ^ (x - e).toNat)

/-- `d.quantize(Decimal((0, (1,), x)), rounding=ROUND_HALF_UP)`. -/
def quantize (ctx : DecimalContext) (x : ℤ) : Decimal → Except DecimalSignal Decimal
  | .finite s c e =>
    if x < ctx.etiny ∨ ctx.emax < x then .error .invalidOperation
    else if c = 0 then fix ctx (.finite s 0 x)
    else if ctx.emax < e + digitCount c - 1 ∨ ctx.prec < e + digitCount c - x then
      .error .invalidOperation
    else
      let q := rescaleHalfUp c e x
      if ctx.emax < x + digitCount q - 1 ∨ ctx.prec < digitCount q then .error .invalidOperation
      else fix ctx (.finite s q x)
  | .infinity _ => .error .invalidOperation
  | .nan s => if s then .error .invalidOperation else .ok (.nan false)

/-- `str(d)`: scientific notation only for a positive exponent or a very small number. -/
def str : Decimal → String
  | .infinity s => (if s then "-" else "") ++ "Infinity"
  | .nan s => if s then "sNaN" else "NaN"
  | .finite s c e =>
    let ds := Nat.toDigits 10 c
    let left := e + ds.length
    let dot := if e ≤ 0 ∧ -6 < left then left else 1
    let body :=
      if dot ≤ 0 then "0." ++ String.ofList (List.replicate (-dot).toNat '0' ++ ds)
      else if (ds.length : ℤ) ≤ dot then String.ofList (ds ++ List.replicate (dot - ds.length).toNat '0')
      else String.ofList (ds.take dot.toNat) ++ "." ++ String.ofList (ds.drop dot.toNat)
    let tail := if left = dot then "" else
      "E" ++ (if left - dot < 0 then "-" else "+") ++ toString (left - dot).natAbs
    (if s then "-" else "") ++ body ++ tail

end Decimal
end PaymentLedger
