import PaymentLedger.Db.Statements

namespace PaymentLedger

/-- What the model takes from the Python runtime: the order in which a `frozenset` is iterated, the
SHA-256 of the canonical JSON of a request, and `str.__repr__`. -/
structure Runtime where
  order : FrozensetOrder Uuid
  hashRequestBody : PyDict → String
  hash_hex : ∀ body, (hashRequestBody body).length = 64 ∧ (hashRequestBody body).toList.all Char.isAlphanum
  repr : String → String

abbrev App (α : Type) : Type := Prog postgres α

def raise {α : Type} (e : AppError) : App α := .raise e

def query (s : Stmt) : App s.Res := Prog.stmt (D := postgres) s

section Ledger

def getAccount (accountId : Uuid) : App Account := do
  match ← query (.selectAccount accountId) with
  | some account => return account
  | none => raise (.accountNotFound (.inl accountId))

def getAccountByNumber (accountNumber : String) : App Account := do
  match ← query (.selectAccountByNumber accountNumber) with
  | some account => return account
  | none => raise (.accountNotFound (.inr accountNumber))

def getAccountVersions (rt : Runtime) (accountIds : List Uuid) : App (List (Uuid × ℕ)) := do
  let versions ← query (.selectAccountVersions accountIds)
  match rt.order.iter (accountIds.filter fun a => (versions.lookup a).isNone) with
  | [] => return versions
  | missing :: _ => raise (.accountNotFound (.inl missing))

def insertLines (entryId : Uuid) : List JournalLine → App Unit
  | [] => return ()
  | line :: lines => do
    query (.insertLine entryId line)
    insertLines entryId lines

def insertJournalEntry (entry : JournalEntry) : App Uuid := do
  let entryId ← query (.insertEntry entry.entryType entry.paymentId entry.idempotencyKeyId)
  insertLines entryId entry.lines
  return entryId

def bumpAccountVersion (accountId : Uuid) (expectedVersion : ℕ) : App Bool :=
  query (.updateAccountVersion accountId expectedVersion)

end Ledger

section Payments

def PaymentRow.toDomain (row : PaymentRow) : Payment where
  id := row.id
  debtorAccountId := row.debtorAccountId
  creditorAccountId := row.creditorAccountId
  amount := row.amount.toDecimal
  currency := row.currency
  status := row.status
  version := row.version
  endToEndId := row.endToEndId
  fxRateId := row.fxRateId
  creditorAmount := row.creditorAmount.map Numeric.toDecimal

def createPayment (debtorAccountId creditorAccountId : Uuid) (amount : Decimal) (currency : String)
    (endToEndId : Option String) : App Payment := do
  let id ← query (.insertPayment debtorAccountId creditorAccountId amount currency endToEndId)
  -- the refresh reads the row back with its defaults and its rounded amount
  match ← query (.selectPayment id) with
  | some row => return row.toDomain
  | none => raise .noResultFound

def getPayment (paymentId : Uuid) : App Payment := do
  match ← query (.selectPayment paymentId) with
  | some row => return row.toDomain
  | none => raise (.paymentNotFound paymentId)

def updatePaymentStatus (paymentId : Uuid) (expectedVersion : ℕ) (newStatus : PaymentStatus) : App Bool :=
  query (.updatePaymentStatus paymentId expectedVersion newStatus)

def recordStatusTransition (paymentId : Uuid) (fromStatus : Option PaymentStatus) (toStatus : PaymentStatus)
    (reason : Option PyStr) : App Unit :=
  query (.insertHistory paymentId fromStatus toStatus reason)

def setFxDetails (paymentId fxRateId : Uuid) (creditorAmount : Decimal) : App Unit :=
  query (.updateFxDetails paymentId fxRateId creditorAmount)

end Payments

def FxRateRow.toDomain (row : FxRateRow) : FxRate where
  id := row.id
  baseCurrency := row.baseCurrency
  quoteCurrency := row.quoteCurrency
  rate := row.rate.toDecimal
  bookedAt := row.bookedAt
  source := row.source

def getLatestRate (baseCurrency quoteCurrency : String) : App FxRate := do
  match ← query (.selectLatestRate baseCurrency quoteCurrency) with
  | some row => return row.toDomain
  | none => raise (.fxRateNotFound baseCurrency quoteCurrency)

section Idempotency

inductive IdempotencyOutcome where
  | started
  | replay (responseStatusCode : Option ℕ) (responseBody : Option PyDict)
  | inProgressConflict
  | hashMismatch
  deriving DecidableEq

def beginAttempt (key endpoint requestHash : String) : App IdempotencyOutcome := do
  let inserted : Bool ← query (.insertIdempotencyKey key endpoint requestHash)
  if inserted then return .started
  else
    match ← query (.selectIdempotencyKey key endpoint) with
    | none => raise .noResultFound
    | some existing =>
      if existing.status = .inProgress then return .inProgressConflict
      else if existing.requestHash ≠ requestHash then return .hashMismatch
      else return .replay existing.responseStatusCode existing.responseBody

def completeAttempt (key endpoint : String) (responseStatusCode : ℕ) (responseBody : PyDict) : App Unit :=
  query (.updateIdempotencyKey key endpoint responseStatusCode responseBody)

end Idempotency

section Webhooks

def listActiveSubscriptions : App (List WebhookSubscription) := query .selectActiveSubscriptions

def enqueueDelivery (subscriptionId : Uuid) (paymentId : Option Uuid) (eventType : String)
    (payload : PyDict) : App Uuid :=
  query (.insertDelivery subscriptionId paymentId eventType payload)

end Webhooks

section Reconciliation

def listSettledPayments (windowStart windowEnd : ℕ) : App (List LedgerSettledPayment) :=
  query (.selectSettled windowStart windowEnd)

def loadSettlementRecords (batchId : Uuid) : List SettlementRecord → App Unit
  | [] => return ()
  | record :: records => do
    query (.insertRecord batchId record)
    loadSettlementRecords batchId records

def insertBreaks (runId : Uuid) : List ReconciliationBreak → App Unit
  | [] => return ()
  | b :: breaks => do
    query (.insertBreak runId b)
    insertBreaks runId breaks

def recordRun (batchId : Uuid) (result : ReconciliationResult) : App Uuid := do
  let runId ← query (.insertRun batchId result.matchedCount result.breakCount "completed")
  insertBreaks runId result.breaks
  return runId

end Reconciliation
end PaymentLedger
