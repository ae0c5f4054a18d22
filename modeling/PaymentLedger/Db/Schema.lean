import PaymentLedger.Db.Columns
import PaymentLedger.Domain.Reconciliation
import PaymentLedger.Math.Table

namespace PaymentLedger

structure JournalEntryRow where
  id : Uuid
  paymentId : Option Uuid
  entryType : String
  idempotencyKeyId : Option Uuid
  deriving DecidableEq

structure JournalLineRow where
  journalEntryId : Uuid
  accountId : Uuid
  direction : Direction
  amount : Amount
  currency : String
  deriving DecidableEq

structure PaymentRow where
  id : Uuid
  debtorAccountId : Uuid
  creditorAccountId : Uuid
  amount : Amount
  currency : String
  fxRateId : Option Uuid
  creditorAmount : Option (Numeric 2)
  status : PaymentStatus
  endToEndId : Option String
  version : ℕ
  deriving DecidableEq

structure StatusHistoryRow where
  paymentId : Uuid
  fromStatus : Option PaymentStatus
  toStatus : PaymentStatus
  transitionedAt : ℕ
  reason : Option String
  deriving DecidableEq

inductive IdempotencyStatus where
  | inProgress
  | completed
  deriving DecidableEq, Repr

structure IdempotencyKeyRow where
  id : Uuid
  key : String
  endpoint : String
  requestHash : String
  status : IdempotencyStatus
  responseStatusCode : Option ℕ
  responseBody : Option PyDict
  deriving DecidableEq

inductive DeliveryStatus where
  | pending
  | delivered
  | deadLetter
  deriving DecidableEq, Repr

structure WebhookDeliveryRow where
  id : Uuid
  subscriptionId : Uuid
  paymentId : Option Uuid
  eventType : String
  payload : PyDict
  status : DeliveryStatus
  attemptCount : ℕ
  nextAttemptAt : ℕ
  lastError : Option String
  deriving DecidableEq

structure SettlementFileRecordRow where
  batchId : Uuid
  externalRef : String
  amount : Numeric 2
  currency : String
  settledAt : ℕ
  rawLine : String
  deriving DecidableEq

structure ReconciliationRunRow where
  id : Uuid
  batchId : Uuid
  matchedCount : ℕ
  breakCount : ℕ
  status : String
  deriving DecidableEq

structure ReconciliationBreakRow where
  runId : Uuid
  paymentId : Option Uuid
  externalRef : String
  breakType : BreakType
  ledgerAmount : Option (Numeric 2)
  settlementAmount : Option (Numeric 2)
  details : String
  deriving DecidableEq

structure FxRateRow where
  id : Uuid
  baseCurrency : String
  quoteCurrency : String
  rate : Numeric 8
  bookedAt : ℕ
  source : String
  deriving DecidableEq

/-- The tables that only administration changes. -/
structure Feed where
  fxRates : Table FxRateRow.id
  webhookSubscriptions : Table WebhookSubscription.id

structure Store where
  accounts : Table Account.id
  journalEntries : Table JournalEntryRow.id
  journalLines : List JournalLineRow
  payments : Table PaymentRow.id
  statusHistory : List StatusHistoryRow
  idempotencyKeys : Table fun row : IdempotencyKeyRow => (row.endpoint, row.key)
  webhookDeliveries : Table WebhookDeliveryRow.id
  settlementFileRecords : List SettlementFileRecordRow
  reconciliationRuns : Table ReconciliationRunRow.id
  reconciliationBreaks : List ReconciliationBreakRow
  feed : Feed

/-- The rows that a write locks until its transaction ends. -/
inductive RowKey where
  | account (id : Uuid)
  | payment (id : Uuid)
  | entry (id : Uuid)
  | idempotencyKey (endpoint key : String)
  | delivery (id : Uuid)
  | run (id : Uuid)
  deriving DecidableEq

inductive Write where
  | bumpAccount (id : Uuid)
  | insertEntry (row : JournalEntryRow)
  | insertLine (row : JournalLineRow)
  | insertPayment (row : PaymentRow)
  | setStatus (id : Uuid) (status : PaymentStatus)
  | setFxDetails (id fxRateId : Uuid) (creditorAmount : Numeric 2)
  | insertHistory (row : StatusHistoryRow)
  | insertKey (row : IdempotencyKeyRow)
  | completeKey (endpoint key : String) (code : ℕ) (body : PyDict)
  | insertDelivery (row : WebhookDeliveryRow)
  | insertRecord (row : SettlementFileRecordRow)
  | insertRun (row : ReconciliationRunRow)
  | insertBreak (row : ReconciliationBreakRow)

namespace Write

def locked : Write → Option RowKey
  | bumpAccount id => some (.account id)
  | insertEntry row => some (.entry row.id)
  | insertPayment row => some (.payment row.id)
  | setStatus id _ => some (.payment id)
  | setFxDetails id _ _ => some (.payment id)
  | insertKey row => some (.idempotencyKey row.endpoint row.key)
  | completeKey endpoint key _ _ => some (.idempotencyKey endpoint key)
  | insertDelivery row => some (.delivery row.id)
  | insertRun row => some (.run row.id)
  | _ => none

def onAccounts (t : Table Account.id) : Write → Table Account.id
  | bumpAccount id => t.modify id (fun a => { a with version := a.version + 1 }) fun _ => rfl
  | _ => t

def onEntries (t : Table JournalEntryRow.id) : Write → Table JournalEntryRow.id
  | insertEntry row => t.insert row
  | _ => t

def onLines (l : List JournalLineRow) : Write → List JournalLineRow
  | insertLine row => l ++ [row]
  | _ => l

def onPayments (t : Table PaymentRow.id) : Write → Table PaymentRow.id
  | insertPayment row => t.insert row
  | setStatus id status =>
    t.modify id (fun row => { row with status := status, version := row.version + 1 }) fun _ => rfl
  | setFxDetails id fxRateId creditorAmount =>
    t.modify id (fun row => { row with fxRateId := some fxRateId, creditorAmount := some creditorAmount })
      fun _ => rfl
  | _ => t

def onHistory (l : List StatusHistoryRow) : Write → List StatusHistoryRow
  | insertHistory row => l ++ [row]
  | _ => l

def onKeys (t : Table fun row : IdempotencyKeyRow => (row.endpoint, row.key)) :
    Write → Table fun row : IdempotencyKeyRow => (row.endpoint, row.key)
  | insertKey row => t.insert row
  | completeKey endpoint key code body =>
    t.modify (endpoint, key)
      (fun row => { row with status := .completed, responseStatusCode := some code, responseBody := some body })
      fun _ => rfl
  | _ => t

def onDeliveries (t : Table WebhookDeliveryRow.id) : Write → Table WebhookDeliveryRow.id
  | insertDelivery row => t.insert row
  | _ => t

def onRecords (l : List SettlementFileRecordRow) : Write → List SettlementFileRecordRow
  | insertRecord row => l ++ [row]
  | _ => l

def onRuns (t : Table ReconciliationRunRow.id) : Write → Table ReconciliationRunRow.id
  | insertRun row => t.insert row
  | _ => t

def onBreaks (l : List ReconciliationBreakRow) : Write → List ReconciliationBreakRow
  | insertBreak row => l ++ [row]
  | _ => l

def apply (w : Write) (st : Store) : Store where
  accounts := w.onAccounts st.accounts
  journalEntries := w.onEntries st.journalEntries
  journalLines := w.onLines st.journalLines
  payments := w.onPayments st.payments
  statusHistory := w.onHistory st.statusHistory
  idempotencyKeys := w.onKeys st.idempotencyKeys
  webhookDeliveries := w.onDeliveries st.webhookDeliveries
  settlementFileRecords := w.onRecords st.settlementFileRecords
  reconciliationRuns := w.onRuns st.reconciliationRuns
  reconciliationBreaks := w.onBreaks st.reconciliationBreaks
  feed := st.feed

end Write
end PaymentLedger
