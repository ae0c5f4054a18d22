import PaymentLedger.Math.Decimal

namespace PaymentLedger

theorem except_bind_ok {ε α β : Type} {x : Except ε α} {f : α → Except ε β} {b : β} :
    (x >>= f) = .ok b ↔ ∃ a, x = .ok a ∧ f a = .ok b := by
  cases x with
  | error e => simp [bind, Except.bind]
  | ok a => simp [bind, Except.bind]

theorem mapError_ok {ε ε' α : Type} {f : ε → ε'} {x : Except ε α} {a : α} :
    x.mapError f = .ok a ↔ x = .ok a := by
  cases x <;> simp [Except.mapError]

theorem except_pure_ok {ε α : Type} {a b : α} : (pure a : Except ε α) = .ok b ↔ b = a := by
  constructor
  · intro h
    cases h
    rfl
  · intro h
    rw [h]
    rfl

abbrev Uuid := BitVec 128

/-- `str(uuid)`: 32 hexadecimal digits in groups of 8, 4, 4, 4 and 12. -/
def Uuid.str (u : Uuid) : String :=
  let ds := (Nat.toDigits 16 u.toNat)
  let hex := List.replicate (32 - ds.length) '0' ++ ds
  String.ofList (hex.take 8 ++ '-' :: (hex.drop 8).take 4 ++ '-' :: (hex.drop 12).take 4 ++
    '-' :: (hex.drop 16).take 4 ++ '-' :: hex.drop 20)

/-- The iteration order of a `frozenset`: it lists each element once, in an order that may depend
on the order of insertion. -/
structure FrozensetOrder (α : Type) where
  iter : List α → List α
  nodup : ∀ l, (iter l).Nodup
  mem_iter : ∀ l a, a ∈ iter l ↔ a ∈ l

inductive Direction where
  | debit
  | credit
  deriving DecidableEq, Repr

structure JournalLine where
  accountId : Uuid
  direction : Direction
  amount : Decimal
  currency : String
  deriving DecidableEq

def JournalLine.signedAmount (line : JournalLine) : Except DecimalSignal Decimal :=
  match line.direction with
  | .credit => .ok line.amount
  | .debit => line.amount.neg defaultContext

structure JournalEntry where
  entryType : String
  lines : List JournalLine
  paymentId : Option Uuid := none
  idempotencyKeyId : Option Uuid := none
  deriving DecidableEq

def JournalEntry.accountIds (order : FrozensetOrder Uuid) (entry : JournalEntry) : List Uuid :=
  order.iter (entry.lines.map JournalLine.accountId)

structure Account where
  id : Uuid
  accountNumber : String
  ownerName : String
  accountType : String
  currency : String
  status : String
  version : ℕ
  deriving DecidableEq

inductive LedgerError where
  | emptyJournalEntry
  | invalidLineAmount (line : JournalLine)
  | unbalancedEntry (netByCurrency : List (String × Decimal))
  | signal (s : DecimalSignal)
  deriving DecidableEq

/-- `net_by_currency[ccy] += x` on a `defaultdict(Decimal)`. -/
def addToNet (ccy : String) (x : Decimal) :
    List (String × Decimal) → Except DecimalSignal (List (String × Decimal))
  | [] => do
    let n ← Decimal.add defaultContext (.finite false 0 0) x
    return [(ccy, n)]
  | (c, n) :: rest =>
    if c = ccy then do
      let n' ← Decimal.add defaultContext n x
      return (c, n') :: rest
    else do
      let rest' ← addToNet ccy x rest
      return (c, n) :: rest'

def netByCurrency (lines : List JournalLine) : Except DecimalSignal (List (String × Decimal)) :=
  lines.foldlM (fun net line => do addToNet line.currency (← line.signedAmount) net) []

def assertPositive (line : JournalLine) : Except LedgerError Unit :=
  match line.amount.nonPositive with
  | .error s => .error (.signal s)
  | .ok true => .error (.invalidLineAmount line)
  | .ok false => .ok ()

def validateJournalEntry (lines : List JournalLine) : Except LedgerError Unit := do
  if lines.isEmpty then throw .emptyJournalEntry
  lines.forM assertPositive
  match netByCurrency lines with
  | .error s => throw (.signal s)
  | .ok net =>
    let unbalanced := net.filter fun entry => !entry.2.isZero
    if unbalanced.isEmpty then return () else throw (.unbalancedEntry unbalanced)

theorem assertPositive_ok {line : JournalLine} {u : Unit} :
    assertPositive line = .ok u ↔ line.amount.nonPositive = .ok false := by
  cases h : line.amount.nonPositive with
  | error s => simp [assertPositive, h]
  | ok b => cases b <;> simp [assertPositive, h]

theorem forM_assertPositive_ok {lines : List JournalLine} {u : Unit} :
    lines.forM assertPositive = .ok u ↔ ∀ line ∈ lines, line.amount.nonPositive = .ok false := by
  induction lines with
  | nil => simp [except_pure_ok]
  | cons line lines ih =>
    show (assertPositive line >>= fun _ => lines.forM assertPositive) = .ok u ↔ _
    rw [except_bind_ok]
    simp only [assertPositive_ok, List.mem_cons, forall_eq_or_imp, exists_and_left]
    apply and_congr_right
    intro _
    rw [← ih]
    constructor
    · intro h
      obtain ⟨_, h⟩ := h
      exact h
    · intro h
      exact ⟨(), h⟩

/-- A valid entry has lines, all of them positive, and nets to zero in every currency. -/
theorem validateJournalEntry_ok {lines : List JournalLine} : validateJournalEntry lines = .ok () ↔
    lines ≠ [] ∧ (∀ line ∈ lines, line.amount.nonPositive = .ok false) ∧
      ∃ net, netByCurrency lines = .ok net ∧ ∀ entry ∈ net, entry.2.isZero = true := by
  cases lines with
  | nil =>
    constructor
    · intro h
      cases h
    · intro h
      exact absurd rfl h.1
  | cons line rest =>
    show ((line :: rest).forM assertPositive >>= fun _ => _) = .ok () ↔ _
    rw [except_bind_ok]
    simp only [forM_assertPositive_ok, exists_and_left, ne_eq, reduceCtorEq, not_false_eq_true, true_and]
    apply and_congr_right
    intro _
    cases hn : netByCurrency (line :: rest) with
    | error s => simp [throw, throwThe, MonadExceptOf.throw]
    | ok net =>
      simp only [exists_const, Except.ok.injEq, exists_eq_left']
      constructor
      · intro h
        split at h
        · rename_i hu
          intro entry hentry
          by_contra hz
          have hmem : entry ∈ net.filter fun entry => !entry.2.isZero :=
            List.mem_filter.mpr ⟨hentry, by simpa using hz⟩
          rw [List.isEmpty_iff.mp hu] at hmem
          simp at hmem
        · cases h
      · intro h
        have hu : net.filter (fun entry => !entry.2.isZero) = [] := by
          rw [List.filter_eq_nil_iff]
          intro entry hentry
          simp [h entry hentry]
        simp [hu, pure, Except.pure]

end PaymentLedger
