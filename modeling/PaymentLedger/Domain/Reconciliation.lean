import PaymentLedger.Domain.Payments
import Mathlib.Data.List.Sort

namespace PaymentLedger

inductive BreakType where
  | missingInSettlement
  | missingInLedger
  | amountMismatch
  deriving DecidableEq, Repr

structure SettlementRecord where
  externalRef : String
  amount : Decimal
  currency : String
  settledAt : ℕ
  rawLine : String
  deriving DecidableEq

structure LedgerSettledPayment where
  paymentId : Uuid
  externalRef : String
  amount : Decimal
  currency : String
  deriving DecidableEq

structure ReconciliationBreak where
  breakType : BreakType
  externalRef : String
  paymentId : Option Uuid
  ledgerAmount : Option Decimal
  settlementAmount : Option Decimal
  details : String
  deriving DecidableEq

structure ReconciliationResult where
  matchedCount : ℕ
  breaks : List ReconciliationBreak
  deriving DecidableEq

def ReconciliationResult.breakCount (r : ReconciliationResult) : ℕ := r.breaks.length

/-- `{key(x): x for x in xs}[k]`: the last item with the key wins. -/
def lastByRef {α : Type} (ref : α → String) (xs : List α) (k : String) : Option α :=
  xs.reverse.find? fun x => decide (ref x = k)

/-- `sorted(set(a) | set(b))`. -/
def sortedRefs (a b : List String) : List String := (a ++ b).dedup.insertionSort (· ≤ ·)

/-- The verdict on one reference: matched (no break), or the break to report. `repr` is
`str.__repr__`. -/
def matchRef (repr : String → String) (ref : String) :
    Option LedgerSettledPayment → Option SettlementRecord →
      Except DecimalSignal (Option ReconciliationBreak)
  | some p, none => .ok (some
      { breakType := .missingInSettlement
        externalRef := ref
        paymentId := some p.paymentId
        ledgerAmount := some p.amount
        settlementAmount := none
        details := "payment " ++ p.paymentId.str ++ " is settled in the ledger but " ++
          "has no matching record in the settlement file" })
  | none, some s => .ok (some
      { breakType := .missingInLedger
        externalRef := ref
        paymentId := none
        ledgerAmount := none
        settlementAmount := some s.amount
        details := "settlement file reference " ++ repr ref ++ " has no matching settled " ++
          "payment in the ledger" })
  | some p, some s =>
    match Decimal.eq p.amount s.amount with
    | .error signal => .error signal
    | .ok amountsMatch =>
      if amountsMatch && p.currency = s.currency then .ok none
      else .ok (some
        { breakType := .amountMismatch
          externalRef := ref
          paymentId := some p.paymentId
          ledgerAmount := some p.amount
          settlementAmount := some s.amount
          details := "ledger shows " ++ p.amount.str ++ " " ++ p.currency ++ ", " ++
            "settlement file shows " ++ s.amount.str ++ " " ++ s.currency })
  -- a reference of the union is on one side at least
  | none, none => .ok none

def matchRefs (repr : String → String) (ledger : List LedgerSettledPayment)
    (settlement : List SettlementRecord) : List String → Except DecimalSignal ReconciliationResult
  | [] => .ok ⟨0, []⟩
  | ref :: refs => do
    let verdict ← matchRef repr ref (lastByRef LedgerSettledPayment.externalRef ledger ref)
      (lastByRef SettlementRecord.externalRef settlement ref)
    let rest ← matchRefs repr ledger settlement refs
    match verdict with
    | none => .ok ⟨rest.matchedCount + 1, rest.breaks⟩
    | some b => .ok ⟨rest.matchedCount, b :: rest.breaks⟩

/-- Reconciles settled ledger payments against a settlement file by external reference. -/
def matchRecords (repr : String → String) (ledgerPayments : List LedgerSettledPayment)
    (settlementRecords : List SettlementRecord) : Except DecimalSignal ReconciliationResult :=
  matchRefs repr ledgerPayments settlementRecords
    (sortedRefs (ledgerPayments.map LedgerSettledPayment.externalRef)
      (settlementRecords.map SettlementRecord.externalRef))

end PaymentLedger
