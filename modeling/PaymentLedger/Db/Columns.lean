import PaymentLedger.Math.DecimalExact
import PaymentLedger.Text.Strings

namespace PaymentLedger

/-- The errors with which the database refuses a value or a row, or gives up a transaction. -/
inductive DbError where
  | foreignKeyViolation
  | checkViolation
  | stringTruncation
  | numericOverflow
  | invalidText
  | deadlock
  deriving DecidableEq, Repr

/-- A `numeric(18, scale)` value: an integer of at most 18 digits over a power of ten, or NaN. -/
inductive Numeric (scale : ℕ) where
  | num (z : ℤ) (lt : z.natAbs < 10 ^ 18)
  | nan
  deriving DecidableEq

namespace Numeric

variable {scale : ℕ}

def toDecimal : Numeric scale → Decimal
  | num z _ => Decimal.ofInt z false (-scale)
  | nan => .nan false

/-- The integer behind the value; in a column of scale two, the cents. -/
def units : Numeric scale → ℤ
  | num z _ => z
  | nan => 0

/-- `value > 0` in SQL, where NaN is greater than every number. -/
def Positive : Numeric scale → Prop
  | num z _ => 0 < z
  | nan => True

instance (n : Numeric scale) : Decidable n.Positive := by
  cases n <;> unfold Positive <;> infer_instance

/-- Assignment to the column: rounded half away from zero, and refused when out of range. -/
def ofDecimal (scale : ℕ) : Decimal → Except DbError (Numeric scale)
  | .finite s c e =>
    if h : Decimal.rescaleHalfUp c e (-scale) < 10 ^ 18 then
      .ok (.num (if s then -(Decimal.rescaleHalfUp c e (-scale) : ℤ) else Decimal.rescaleHalfUp c e (-scale))
        (by split <;> simpa using h))
    else .error .numericOverflow
  | .infinity _ => .error .numericOverflow
  | .nan _ => .ok .nan

theorem toDecimal_toRat (z : ℤ) (lt : z.natAbs < 10 ^ 18) :
    (num z lt : Numeric scale).toDecimal.toRat = z * 10 ^ (-scale : ℤ) :=
  Decimal.ofInt_toRat z false _

/-- A value that the column holds without rounding comes back as it was. -/
theorem toDecimal_ofDecimal {c : ℕ} {n : Numeric scale}
    (h : Numeric.ofDecimal scale (.finite false c (-scale)) = .ok n) :
    n.toDecimal = .finite false c (-scale) := by
  have hr : Decimal.rescaleHalfUp c (-scale) (-scale) = c := by simp [Decimal.rescaleHalfUp]
  simp only [Numeric.ofDecimal, hr] at h
  split at h
  · cases h
    by_cases hc : c = 0
    · simp [Numeric.toDecimal, Decimal.ofInt, hc]
    · simp [Numeric.toDecimal, Decimal.ofInt, hc]
  · cases h

/-- What a column holds is stored again without a change. -/
theorem ofDecimal_toDecimal (n : Numeric scale) : Numeric.ofDecimal scale n.toDecimal = .ok n := by
  cases n with
  | nan => rfl
  | num z lt =>
    have hr : Decimal.rescaleHalfUp z.natAbs (-scale) (-scale) = z.natAbs := by simp [Decimal.rescaleHalfUp]
    simp only [toDecimal, Decimal.ofInt, ofDecimal, hr, lt, dite_true, Except.ok.injEq, num.injEq]
    by_cases hz : z = 0
    · simp [hz]
    · by_cases hneg : z < 0
      · simp only [hz, if_false, hneg, decide_true, if_true]
        omega
      · simp only [hz, if_false, hneg, decide_false, Bool.false_eq_true]
        omega

end Numeric

/-- A `numeric(18, 2)` value under the check `amount > 0`. -/
structure Amount where
  value : Numeric 2
  positive : value.Positive
  deriving DecidableEq

namespace Amount

def toDecimal (a : Amount) : Decimal := a.value.toDecimal

def cents (a : Amount) : ℤ := a.value.units

def ofDecimal (d : Decimal) : Except DbError Amount :=
  match Numeric.ofDecimal 2 d with
  | .error e => .error e
  | .ok n => if h : n.Positive then .ok ⟨n, h⟩ else .error .checkViolation

/-- The check alone, on a value that the column holds. -/
def check (n : Numeric 2) : Except DbError Amount :=
  if h : n.Positive then .ok ⟨n, h⟩ else .error .checkViolation

theorem ofDecimal_bind (d : Decimal) : ofDecimal d = Numeric.ofDecimal 2 d >>= check := by
  cases h : Numeric.ofDecimal 2 d with
  | error e => simp [ofDecimal, h, bind, Except.bind]
  | ok n => simp [ofDecimal, h, bind, Except.bind, check]

theorem ofDecimal_ok {d : Decimal} {a : Amount} : ofDecimal d = .ok a ↔ Numeric.ofDecimal 2 d = .ok a.value := by
  cases h : Numeric.ofDecimal 2 d with
  | error e => simp [ofDecimal, h]
  | ok n =>
    by_cases hp : n.Positive
    · simp only [ofDecimal, h, hp, dite_true, Except.ok.injEq]
      constructor
      · intro ha
        rw [← ha]
      · intro ha
        cases a
        subst ha
        rfl
    · simp only [ofDecimal, h, hp, dite_false, reduceCtorEq, Except.ok.injEq, false_iff]
      intro ha
      rw [ha] at hp
      exact hp a.positive

end Amount

/-- A text the database accepts: it has no NUL character. -/
def text (s : String) : Except DbError String :=
  if s.toList.contains (Char.ofNat 0) then .error .invalidText else .ok s

/-- A `str` as such a text. -/
def pyText (s : PyStr) : Except DbError String :=
  match s.encode with
  | none => .error .invalidText
  | some s => text s

/-- No column holds it: there is a NUL character or a surrogate in it. -/
def PyStr.Unstorable (s : PyStr) : Prop := .char (Char.ofNat 0) ∈ s.points ∨ ∃ n, .surrogate n ∈ s.points

theorem text_stored {s t : String} : text s = .ok t ↔ s.toList.contains (Char.ofNat 0) = false ∧ t = s := by
  unfold text
  split
  · next h => simp only [h, reduceCtorEq, Bool.true_eq_false, false_and]
  · next h => simp only [h, Except.ok.injEq, true_and, eq_comm]

theorem ofString_unstorable {s : String} :
    (PyStr.ofString s).Unstorable ↔ s.toList.contains (Char.ofNat 0) = true := by
  simp [PyStr.Unstorable, PyStr.ofString]

theorem pyText_stored {s : PyStr} {t : String} : pyText s = .ok t ↔ ¬s.Unstorable ∧ s.encode = some t := by
  rcases s.encode_cases with ⟨hnone, hn⟩ | ⟨u, hu, rfl⟩
  · have hs : s.Unstorable := .inr hn
    simp [pyText, hnone, hs]
  · rw [pyText, hu, text_stored, ofString_unstorable, Bool.not_eq_true, Option.some.injEq, eq_comm (a := t)]

theorem pyText_error {s : PyStr} {e : DbError} (h : pyText s = .error e) : e = .invalidText ∧ s.Unstorable := by
  rw [pyText] at h
  rcases s.encode_cases with ⟨hnone, hn⟩ | ⟨t, ht, rfl⟩
  · rw [hnone] at h
    exact ⟨(Except.error.inj h).symm, .inr hn⟩
  · rw [ht] at h
    dsimp only at h
    rw [text] at h
    split at h
    · rename_i hnul
      exact ⟨(Except.error.inj h).symm, .inl (List.mem_map_of_mem (List.contains_iff_mem.mp hnul))⟩
    · cases h

theorem pyText_ok {s : PyStr} (h : ¬s.Unstorable) : ∃ t, pyText s = .ok t := by
  cases ht : pyText s with
  | ok t => exact ⟨t, rfl⟩
  | error e => exact absurd (pyText_error ht).2 h

/-- A `varchar(n)`: only spaces are cut off silently. -/
def varchar (n : ℕ) (s : String) : Except DbError String :=
  if s.toList.contains (Char.ofNat 0) then .error .invalidText
  else if s.length ≤ n then .ok s
  else if (s.toList.drop n).all (· == ' ') then .ok (String.ofList (s.toList.take n))
  else .error .stringTruncation

/-- What the column holds is stored again without a change. -/
theorem varchar_stored {n : ℕ} {s t : String} (h : varchar n s = .ok t) : varchar n t = .ok t := by
  by_cases hnul : s.toList.contains (Char.ofNat 0) = true
  · rw [varchar, if_pos hnul] at h
    cases h
  · rw [varchar, if_neg hnul] at h
    by_cases hfit : s.length ≤ n
    · rw [if_pos hfit] at h
      cases h
      rw [varchar, if_neg hnul, if_pos hfit]
    · rw [if_neg hfit] at h
      split at h
      · cases h
        have hlen : (String.ofList (s.toList.take n)).length ≤ n := by simp
        have hnone : ¬(String.ofList (s.toList.take n)).toList.contains (Char.ofNat 0) = true := by
          intro hmem
          apply hnul
          simp only [String.toList_ofList, List.contains_iff_mem] at hmem ⊢
          exact List.mem_of_mem_take hmem
        rw [varchar, if_neg hnone, if_pos hlen]
      · cases h

/-- A text that fits, or that does not end in a space, is stored whole or not at all. -/
theorem varchar_exact {n : ℕ} {s t : String} (h : varchar n s = .ok t)
    (hs : s.length ≤ n ∨ ∀ hne, s.toList.getLast hne ≠ ' ') : t = s := by
  unfold varchar at h
  split at h
  · cases h
  · split at h
    · exact (Except.ok.inj h).symm
    · rename_i hlong
      split at h
      · rename_i hspaces
        have hne : s.toList.drop n ≠ [] := by
          rw [ne_eq, List.drop_eq_nil_iff, String.length_toList]
          omega
        have hlast : (s.toList.drop n).getLast hne = ' ' := by
          have hmem := List.all_eq_true.mp hspaces _ (List.getLast_mem hne)
          exact beq_iff_eq.mp hmem
        rw [List.getLast_drop] at hlast
        rcases hs with hs | hs
        · omega
        · exact absurd hlast (hs _)
      · cases h

def nullable {α β : Type} (f : α → Except DbError β) : Option α → Except DbError (Option β)
  | none => .ok none
  | some a => (f a).map some

end PaymentLedger
