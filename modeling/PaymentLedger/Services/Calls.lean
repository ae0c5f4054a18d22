import PaymentLedger.Db.Repositories

namespace PaymentLedger

def idempotencyEndpointInitiatePayment : String := "POST /payments"

def fxSuspenseAccountNumber : String := "FX-SUSPENSE"

/-- The loop over attempts: a body that ends without a result has met a conflict and rolled back. -/
def retry {α : Type} (attempt : App (Option α)) (exhausted : AppError) : ℕ → App α
  | 0 => raise exhausted
  | attempts + 1 => do
    match ← attempt.uow with
    | some result => return result
    | none => retry attempt exhausted attempts

section Ledger

/-- The loop over `account_ids`: false at the first account that another transaction has moved. -/
def bumpAccounts (versions : List (Uuid × ℕ)) : List Uuid → App Bool
  | [] => return true
  | accountId :: accountIds =>
    match versions.lookup accountId with
    | none => raise (.keyError accountId)
    | some version => do
      if ← bumpAccountVersion accountId version then bumpAccounts versions accountIds
      else return false

def postJournalEntryAttempt (rt : Runtime) (entry : JournalEntry) : App (Option Uuid) := do
  let accountIds := entry.accountIds rt.order
  let versions ← getAccountVersions rt accountIds
  let entryId ← insertJournalEntry entry
  if ← bumpAccounts versions accountIds then
    Prog.commitTx
    return some entryId
  else
    Prog.rollbackTx
    return none

def postJournalEntry (rt : Runtime) (entry : JournalEntry) (maxAttempts : ℕ) : App Uuid := do
  Prog.ofExcept AppError.ledger (validateJournalEntry entry.lines)
  retry (postJournalEntryAttempt rt entry)
    (.concurrentModification (entry.accountIds rt.order) maxAttempts) maxAttempts

end Ledger

section Webhooks

def enqueueDeliveries (paymentId : Uuid) (eventType : String) (payload : PyDict) :
    List WebhookSubscription → App Unit
  | [] => return ()
  | subscription :: subscriptions => do
    if subscription.wants eventType then
      let _ ← enqueueDelivery subscription.id (some paymentId) eventType payload
    enqueueDeliveries paymentId eventType payload subscriptions

def enqueuePaymentWebhookEvent (paymentId : Uuid) (eventType : String) (payload : PyDict) : App Unit := do
  let subscriptions ← listActiveSubscriptions
  enqueueDeliveries paymentId eventType payload subscriptions

end Webhooks

section Initiation

def validateNewPayment (amount : Decimal) (debtorAccountId creditorAccountId : Uuid) :
    Except AppError Unit :=
  match amount.nonPositive with
  | .error s => .error (.signal s)
  | .ok true => .error (.invalidPaymentAmount amount)
  | .ok false =>
    if debtorAccountId = creditorAccountId then .error (.samePaymentAccount debtorAccountId) else .ok ()

def assertDebtorCurrencyMatches (debtorAccountId : Uuid) (currency : String) : App Unit := do
  let debtorAccount ← getAccount debtorAccountId
  if debtorAccount.currency ≠ currency then
    raise (.paymentCurrencyMismatch debtorAccount.currency currency)
  else return ()

/-- The arguments that both entry points of payment initiation share. -/
structure NewPayment where
  debtorAccountId : Uuid
  creditorAccountId : Uuid
  amount : Decimal
  currency : String
  endToEndId : Option String := none
  deriving DecidableEq

def createPaymentWithin (req : NewPayment) : App Payment := do
  assertDebtorCurrencyMatches req.debtorAccountId req.currency
  let payment ← createPayment req.debtorAccountId req.creditorAccountId req.amount req.currency req.endToEndId
  recordStatusTransition payment.id none .initiated none
  enqueuePaymentWebhookEvent payment.id "payment.initiated" (paymentResponseDict payment)
  return payment

def initiatePaymentBlock (req : NewPayment) : App Payment := do
  let payment ← createPaymentWithin req
  Prog.commitTx
  return payment

def initiatePayment (req : NewPayment) : App Payment := do
  Prog.ofExcept id (validateNewPayment req.amount req.debtorAccountId req.creditorAccountId)
  (initiatePaymentBlock req).uow

/-- The first transaction: claim the key. -/
def claimBlock (rt : Runtime) (key : String) (body : PyDict) (req : NewPayment) :
    App IdempotencyOutcome := do
  assertDebtorCurrencyMatches req.debtorAccountId req.currency
  let outcome ← beginAttempt key idempotencyEndpointInitiatePayment (rt.hashRequestBody body)
  Prog.commitTx
  return outcome

/-- The second transaction: create the payment and complete the claim. -/
def completeBlock (key : String) (req : NewPayment) : App (ℕ × PyDict) := do
  let payment ← createPaymentWithin req
  let responseBody := paymentResponseDict payment
  completeAttempt key idempotencyEndpointInitiatePayment 201 responseBody
  Prog.commitTx
  return (201, responseBody)

def initiatePaymentIdempotent (rt : Runtime) (key : String) (body : PyDict) (req : NewPayment) :
    App (ℕ × PyDict) := do
  Prog.ofExcept id (validateNewPayment req.amount req.debtorAccountId req.creditorAccountId)
  match ← (claimBlock rt key body req).uow with
  | .replay (some code) (some response) => return (code, response)
  | .replay _ _ => raise .assertion
  | .inProgressConflict => raise (.idempotencyInProgress key idempotencyEndpointInitiatePayment)
  | .hashMismatch => raise (.idempotencyKeyReused key idempotencyEndpointInitiatePayment)
  | .started => (completeBlock key req).uow

end Initiation

section Transitions

def transitionStatusOnlyAttempt (paymentId : Uuid) (toStatus : PaymentStatus) (reason : Option PyStr) :
    App (Option Payment) := do
  let payment ← getPayment paymentId
  Prog.ofExcept AppError.invalidTransition (assertTransitionAllowed payment.status toStatus)
  if ← updatePaymentStatus paymentId payment.version toStatus then
    recordStatusTransition paymentId (some payment.status) toStatus reason
    let updated := { payment with status := toStatus, version := payment.version + 1 }
    enqueuePaymentWebhookEvent paymentId ("payment." ++ toStatus.value) (paymentResponseDict updated)
    Prog.commitTx
    return some updated
  else
    Prog.rollbackTx
    return none

def transitionStatusOnly (paymentId : Uuid) (toStatus : PaymentStatus) (reason : Option PyStr)
    (maxAttempts : ℕ) : App Payment :=
  retry (transitionStatusOnlyAttempt paymentId toStatus reason)
    (.concurrentPaymentModification paymentId maxAttempts) maxAttempts

def authorisePayment (paymentId : Uuid) (maxAttempts : ℕ) : App Payment :=
  transitionStatusOnly paymentId .authorised none maxAttempts

def failPayment (paymentId : Uuid) (reason : Option PyStr) (maxAttempts : ℕ) : App Payment :=
  transitionStatusOnly paymentId .failed reason maxAttempts

/-- The entry type, the lines, and the overrides `fx_rate_id` and `creditor_amount`, if any. -/
abbrev BuildLinesResult : Type := String × List JournalLine × Option (Uuid × Decimal)

def settlementLines (payment : Payment) : App BuildLinesResult := do
  let debtor ← getAccount payment.debtorAccountId
  let creditor ← getAccount payment.creditorAccountId
  if debtor.currency = creditor.currency then
    return ("transfer",
      [⟨payment.debtorAccountId, .debit, payment.amount, payment.currency⟩,
       ⟨payment.creditorAccountId, .credit, payment.amount, payment.currency⟩], none)
  else
    let rate ← getLatestRate debtor.currency creditor.currency
    let creditorAmount ← Prog.ofExcept AppError.signal (convertAmount payment.amount rate.rate)
    let suspense ← getAccountByNumber fxSuspenseAccountNumber
    setFxDetails payment.id rate.id creditorAmount
    return ("fx_conversion",
      [⟨payment.debtorAccountId, .debit, payment.amount, debtor.currency⟩,
       ⟨suspense.id, .credit, payment.amount, debtor.currency⟩,
       ⟨suspense.id, .debit, creditorAmount, creditor.currency⟩,
       ⟨payment.creditorAccountId, .credit, creditorAmount, creditor.currency⟩],
      some (rate.id, creditorAmount))

def reversalLines (payment : Payment) : App BuildLinesResult :=
  match payment.creditorAmount with
  | none => return ("reversal",
      [⟨payment.creditorAccountId, .debit, payment.amount, payment.currency⟩,
       ⟨payment.debtorAccountId, .credit, payment.amount, payment.currency⟩], none)
  | some creditorAmount => do
    let debtor ← getAccount payment.debtorAccountId
    let creditor ← getAccount payment.creditorAccountId
    let suspense ← getAccountByNumber fxSuspenseAccountNumber
    return ("fx_conversion_reversal",
      [⟨suspense.id, .debit, payment.amount, debtor.currency⟩,
       ⟨payment.debtorAccountId, .credit, payment.amount, debtor.currency⟩,
       ⟨payment.creditorAccountId, .debit, creditorAmount, creditor.currency⟩,
       ⟨suspense.id, .credit, creditorAmount, creditor.currency⟩], none)

/-- `replace(payment, status=to_status, version=payment.version + 1, **field_overrides)`. -/
def Payment.moved (payment : Payment) (toStatus : PaymentStatus) :
    Option (Uuid × Decimal) → Payment
  | none => { payment with status := toStatus, version := payment.version + 1 }
  | some (rateId, creditorAmount) =>
    { payment with
      status := toStatus
      version := payment.version + 1
      fxRateId := some rateId
      creditorAmount := some creditorAmount }

def transitionWithLedgerEntryAttempt (rt : Runtime) (paymentId : Uuid) (toStatus : PaymentStatus)
    (buildLines : Payment → App BuildLinesResult) : App (Option Payment) := do
  let payment ← getPayment paymentId
  Prog.ofExcept AppError.invalidTransition (assertTransitionAllowed payment.status toStatus)
  let (entryType, lines, overrides) ← buildLines payment
  let entry : JournalEntry := { entryType, lines, paymentId := some payment.id }
  Prog.ofExcept AppError.ledger (validateJournalEntry entry.lines)
  let accountIds := entry.accountIds rt.order
  let versions ← getAccountVersions rt accountIds
  let _ ← insertJournalEntry entry
  let bumped ← bumpAccounts versions accountIds
  let moved ← if bumped then updatePaymentStatus paymentId payment.version toStatus else pure false
  if moved then
    recordStatusTransition paymentId (some payment.status) toStatus none
    let updated := payment.moved toStatus overrides
    enqueuePaymentWebhookEvent paymentId ("payment." ++ toStatus.value) (paymentResponseDict updated)
    Prog.commitTx
    return some updated
  else
    Prog.rollbackTx
    return none

def transitionWithLedgerEntry (rt : Runtime) (paymentId : Uuid) (toStatus : PaymentStatus)
    (buildLines : Payment → App BuildLinesResult) (maxAttempts : ℕ) : App Payment :=
  retry (transitionWithLedgerEntryAttempt rt paymentId toStatus buildLines)
    (.concurrentPaymentModification paymentId maxAttempts) maxAttempts

def settlePayment (rt : Runtime) (paymentId : Uuid) (maxAttempts : ℕ) : App Payment :=
  transitionWithLedgerEntry rt paymentId .settled settlementLines maxAttempts

def reversePayment (rt : Runtime) (paymentId : Uuid) (maxAttempts : ℕ) : App Payment :=
  transitionWithLedgerEntry rt paymentId .reversed reversalLines maxAttempts

end Transitions

section Reconciliation

def runReconciliationBlock (rt : Runtime) (batchId : Uuid) (settlementRecords : List SettlementRecord)
    (windowStart windowEnd : ℕ) : App (Uuid × ReconciliationResult) := do
  loadSettlementRecords batchId settlementRecords
  let ledgerPayments ← listSettledPayments windowStart windowEnd
  let result ← Prog.ofExcept AppError.signal (matchRecords rt.repr ledgerPayments settlementRecords)
  let runId ← recordRun batchId result
  Prog.commitTx
  return (runId, result)

def runReconciliation (rt : Runtime) (batchId : Uuid) (settlementRecords : List SettlementRecord)
    (windowStart windowEnd : ℕ) : App (Uuid × ReconciliationResult) :=
  (runReconciliationBlock rt batchId settlementRecords windowStart windowEnd).uow

end Reconciliation

inductive Call where
  | initiatePayment (req : NewPayment)
  | initiatePaymentIdempotent (key : String) (body : PyDict) (req : NewPayment)
  | authorisePayment (paymentId : Uuid) (maxAttempts : ℕ)
  | failPayment (paymentId : Uuid) (reason : Option PyStr) (maxAttempts : ℕ)
  | settlePayment (paymentId : Uuid) (maxAttempts : ℕ)
  | reversePayment (paymentId : Uuid) (maxAttempts : ℕ)
  | postJournalEntry (entry : JournalEntry) (maxAttempts : ℕ)
  | runReconciliation (batchId : Uuid) (settlementRecords : List SettlementRecord)
      (windowStart windowEnd : ℕ)

inductive Value where
  | payment (p : Payment)
  | response (code : ℕ) (body : PyDict)
  | entryId (id : Uuid)
  | run (runId : Uuid) (result : ReconciliationResult)
  deriving DecidableEq

def Call.prog (rt : Runtime) : Call → App Value
  | .initiatePayment req => do return .payment (← PaymentLedger.initiatePayment req)
  | .initiatePaymentIdempotent key body req => do
    let (code, response) ← PaymentLedger.initiatePaymentIdempotent rt key body req
    return .response code response
  | .authorisePayment paymentId maxAttempts => do
    return .payment (← PaymentLedger.authorisePayment paymentId maxAttempts)
  | .failPayment paymentId reason maxAttempts => do
    return .payment (← PaymentLedger.failPayment paymentId reason maxAttempts)
  | .settlePayment paymentId maxAttempts => do
    return .payment (← PaymentLedger.settlePayment rt paymentId maxAttempts)
  | .reversePayment paymentId maxAttempts => do
    return .payment (← PaymentLedger.reversePayment rt paymentId maxAttempts)
  | .postJournalEntry entry maxAttempts => do
    return .entryId (← PaymentLedger.postJournalEntry rt entry maxAttempts)
  | .runReconciliation batchId settlementRecords windowStart windowEnd => do
    let (runId, result) ← PaymentLedger.runReconciliation rt batchId settlementRecords windowStart windowEnd
    return .run runId result

end PaymentLedger
