import PaymentLedger.Domain.Payments
import PaymentLedger.Text.Strings

namespace PaymentLedger

def defaultBaseSeconds : ℕ := 2

def defaultMaxSeconds : ℕ := 900

/-- The delay before the next attempt in exact arithmetic; the attempt counts from 0. -/
def exactBackoff (attempt : ℕ) : ℕ := min defaultMaxSeconds (defaultBaseSeconds * 2 ^ attempt)

/-- No float is as large as `2 ** 1024`: from there on the product raises `OverflowError`. -/
def backoffSeconds (attempt : ℕ) : Option ℕ := if attempt < 1024 then some (exactBackoff attempt) else none

/-- Clocks count microseconds. -/
def timedelta (seconds : ℕ) : ℕ := 1000000 * seconds

/-- How a request ends: with a status code, or with an exception of some type. -/
inductive SendOutcome where
  | status (code : ℤ)
  | raised (type : String) (message : PyStr)
  deriving DecidableEq

namespace SendOutcome

def success : SendOutcome → Bool
  | status code => 200 ≤ code ∧ code < 300
  | raised _ _ => false

def error : SendOutcome → Option PyStr
  | status code => if 200 ≤ code ∧ code < 300 then none else some (.ofString ("HTTP " ++ toString code))
  | raised type message => some (.ofString (type ++ ": ") ++ message)

theorem error_none_iff (o : SendOutcome) : o.error = none ↔ o.success = true := by
  cases o with
  | status code => simp [error, success]
  | raised type message => simp [error, success]

theorem success_of_error {o : SendOutcome} {e : PyStr} (h : o.error = some e) : o.success = false := by
  rw [Bool.eq_false_iff]
  intro hs
  rw [(error_none_iff o).mpr hs] at h
  cases h

end SendOutcome
end PaymentLedger
