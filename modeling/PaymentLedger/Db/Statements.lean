import PaymentLedger.Db.Schema
import PaymentLedger.Transaction.History

namespace PaymentLedger

/-- The exceptions in which a call can end. -/
inductive AppError where
  | db (e : DbError)
  | ledger (e : LedgerError)
  | signal (s : DecimalSignal)
  | accountNotFound (identifier : Uuid ⊕ String)
  | paymentNotFound (paymentId : Uuid)
  | fxRateNotFound (baseCurrency quoteCurrency : String)
  | invalidPaymentAmount (amount : Decimal)
  | samePaymentAccount (accountId : Uuid)
  | paymentCurrencyMismatch (accountCurrency paymentCurrency : String)
  | invalidTransition (e : InvalidPaymentTransition)
  | idempotencyInProgress (key endpoint : String)
  | idempotencyKeyReused (key endpoint : String)
  | concurrentModification (accountIds : List Uuid) (attempts : ℕ)
  | concurrentPaymentModification (paymentId : Uuid) (attempts : ℕ)
  | noResultFound
  | keyError (id : Uuid)
  | assertion
  -- the `OverflowError` of a float or a date
  | overflow
  deriving DecidableEq

/-- What a statement leaves to the database: the generated id, the rate among the latest ones, and
the order of the rows of a query without `ORDER BY`. -/
structure Choice where
  id : Uuid := 0
  rate : Option FxRateRow := none
  subscriptions : List WebhookSubscription := []
  settled : List LedgerSettledPayment := []

inductive Stmt where
  | selectAccount (id : Uuid)
  | selectAccountByNumber (accountNumber : String)
  | selectAccountVersions (ids : List Uuid)
  | updateAccountVersion (id : Uuid) (expectedVersion : ℕ)
  | insertEntry (entryType : String) (paymentId idempotencyKeyId : Option Uuid)
  | insertLine (entryId : Uuid) (line : JournalLine)
  | insertPayment (debtorAccountId creditorAccountId : Uuid) (amount : Decimal) (currency : String)
      (endToEndId : Option String)
  | selectPayment (id : Uuid)
  | updatePaymentStatus (id : Uuid) (expectedVersion : ℕ) (newStatus : PaymentStatus)
  | updateFxDetails (id fxRateId : Uuid) (creditorAmount : Decimal)
  | insertHistory (paymentId : Uuid) (fromStatus : Option PaymentStatus) (toStatus : PaymentStatus)
      (reason : Option PyStr)
  | insertIdempotencyKey (key endpoint requestHash : String)
  | selectIdempotencyKey (key endpoint : String)
  | updateIdempotencyKey (key endpoint : String) (code : ℕ) (body : PyDict)
  | selectActiveSubscriptions
  | insertDelivery (subscriptionId : Uuid) (paymentId : Option Uuid) (eventType : String) (payload : PyDict)
  | selectLatestRate (baseCurrency quoteCurrency : String)
  | insertRecord (batchId : Uuid) (record : SettlementRecord)
  | selectSettled (windowStart windowEnd : ℕ)
  | insertRun (batchId : Uuid) (matchedCount breakCount : ℕ) (status : String)
  | insertBreak (runId : Uuid) (b : ReconciliationBreak)

@[reducible] def Stmt.Res : Stmt → Type
  | selectAccount _ => Option Account
  | selectAccountByNumber _ => Option Account
  | selectAccountVersions _ => List (Uuid × ℕ)
  | updateAccountVersion _ _ => Bool
  | insertEntry _ _ _ => Uuid
  | insertLine _ _ => Unit
  | insertPayment _ _ _ _ _ => Uuid
  | selectPayment _ => Option PaymentRow
  | updatePaymentStatus _ _ _ => Bool
  | updateFxDetails _ _ _ => Unit
  | insertHistory _ _ _ _ => Unit
  | insertIdempotencyKey _ _ _ => Bool
  | selectIdempotencyKey _ _ => Option IdempotencyKeyRow
  | updateIdempotencyKey _ _ _ _ => Unit
  | selectActiveSubscriptions => List WebhookSubscription
  | insertDelivery _ _ _ _ => Uuid
  | selectLatestRate _ _ => Option FxRateRow
  | insertRecord _ _ => Unit
  | selectSettled _ _ => List LedgerSettledPayment
  | insertRun _ _ _ _ => Uuid
  | insertBreak _ _ => Unit

section Rows

/-- A foreign key: the row it points at is there. -/
def references (present : Bool) : Except DbError Unit :=
  if present then .ok () else .error .foreignKeyViolation

def JournalEntryRow.new (id : Uuid) (entryType : String) (paymentId idempotencyKeyId : Option Uuid) :
    Except DbError JournalEntryRow := do
  let entryType ← varchar 30 entryType
  return ⟨id, paymentId, entryType, idempotencyKeyId⟩

def JournalLineRow.new (entryId : Uuid) (line : JournalLine) : Except DbError JournalLineRow := do
  let amount ← Numeric.ofDecimal 2 line.amount
  let currency ← varchar 3 line.currency
  -- the checks on a row come after the conversions of its columns
  let amount ← Amount.check amount
  return ⟨entryId, line.accountId, line.direction, amount, currency⟩

def PaymentRow.new (id debtorAccountId creditorAccountId : Uuid) (amount : Decimal) (currency : String)
    (endToEndId : Option String) : Except DbError PaymentRow := do
  let amount ← Numeric.ofDecimal 2 amount
  let currency ← varchar 3 currency
  let endToEndId ← nullable (varchar 35) endToEndId
  let amount ← Amount.check amount
  return { id, debtorAccountId, creditorAccountId, amount, currency, fxRateId := none,
           creditorAmount := none, status := .initiated, endToEndId, version := 0 }

def StatusHistoryRow.new (paymentId : Uuid) (fromStatus : Option PaymentStatus) (toStatus : PaymentStatus)
    (now : ℕ) (reason : Option PyStr) : Except DbError StatusHistoryRow := do
  let reason ← nullable pyText reason
  return ⟨paymentId, fromStatus, toStatus, now, reason⟩

def IdempotencyKeyRow.new (id : Uuid) (key endpoint requestHash : String) :
    Except DbError IdempotencyKeyRow := do
  let key ← varchar 255 key
  let endpoint ← varchar 100 endpoint
  let requestHash ← varchar 64 requestHash
  return ⟨id, key, endpoint, requestHash, .inProgress, none, none⟩

def WebhookDeliveryRow.new (id subscriptionId : Uuid) (paymentId : Option Uuid) (eventType : String)
    (payload : PyDict) (now : ℕ) : Except DbError WebhookDeliveryRow := do
  let eventType ← varchar 50 eventType
  return ⟨id, subscriptionId, paymentId, eventType, payload.json, .pending, 0, now, none⟩

def SettlementFileRecordRow.new (batchId : Uuid) (record : SettlementRecord) :
    Except DbError SettlementFileRecordRow := do
  let externalRef ← varchar 100 record.externalRef
  let amount ← Numeric.ofDecimal 2 record.amount
  let currency ← varchar 3 record.currency
  let rawLine ← text record.rawLine
  return ⟨batchId, externalRef, amount, currency, record.settledAt, rawLine⟩

def ReconciliationRunRow.new (id batchId : Uuid) (matchedCount breakCount : ℕ) (status : String) :
    Except DbError ReconciliationRunRow := do
  let status ← varchar 20 status
  return ⟨id, batchId, matchedCount, breakCount, status⟩

def ReconciliationBreakRow.new (runId : Uuid) (b : ReconciliationBreak) :
    Except DbError ReconciliationBreakRow := do
  let externalRef ← varchar 100 b.externalRef
  let ledgerAmount ← nullable (Numeric.ofDecimal 2) b.ledgerAmount
  let settlementAmount ← nullable (Numeric.ofDecimal 2) b.settlementAmount
  let details ← text b.details
  return ⟨runId, b.paymentId, externalRef, b.breakType, ledgerAmount, settlementAmount, details⟩

end Rows

namespace Store

variable (st : Store)

def hasAccount (id : Uuid) : Bool := (st.accounts.find id).isSome

def hasEntry (id : Uuid) : Bool := (st.journalEntries.find id).isSome

def hasPayment (id : Uuid) : Bool := (st.payments.find id).isSome

def hasDelivery (id : Uuid) : Bool := (st.webhookDeliveries.find id).isSome

def hasRun (id : Uuid) : Bool := (st.reconciliationRuns.find id).isSome

def hasKeyId (id : Uuid) : Bool := st.idempotencyKeys.rows.any fun row => row.id = id

def hasSubscription (id : Uuid) : Bool := (st.feed.webhookSubscriptions.find id).isSome

def hasRate (id : Uuid) : Bool := (st.feed.fxRates.find id).isSome

/-- The ids and versions of the rows of `accounts` with one of these ids; the result is used as a
dictionary, so its order is that of the request. -/
def accountVersions (ids : List Uuid) : List (Uuid × ℕ) :=
  ids.filterMap fun id => (st.accounts.find id).map fun a => (id, a.version)

def activeSubscriptions : List WebhookSubscription :=
  st.feed.webhookSubscriptions.rows.filter WebhookSubscription.active

def rates (baseCurrency quoteCurrency : String) : List FxRateRow :=
  st.feed.fxRates.rows.filter fun r => r.baseCurrency = baseCurrency ∧ r.quoteCurrency = quoteCurrency

/-- The join of payments with the history rows that settled them inside the window. -/
def settledIn (windowStart windowEnd : ℕ) : List LedgerSettledPayment :=
  (st.statusHistory.filter fun h =>
    h.toStatus = .settled ∧ windowStart ≤ h.transitionedAt ∧ h.transitionedAt < windowEnd).flatMap fun h =>
      (st.payments.find h.paymentId).toList.map fun row =>
        { paymentId := row.id
          externalRef := match row.endToEndId with
            | some ref => if ref = "" then row.id.str else ref
            | none => row.id.str
          amount := row.amount.toDecimal
          currency := row.currency }

end Store

/-- One statement on the rows it sees, at the start time of its transaction. There is no result
for a choice the database cannot make. -/
def Stmt.eval (st : Store) (now : ℕ) (c : Choice) :
    (s : Stmt) → Option (Except DbError (s.Res × List Write))
  | selectAccount id => some (.ok (st.accounts.find id, []))
  | selectAccountByNumber number =>
    some (.ok (st.accounts.rows.find? fun a => decide (a.accountNumber = number), []))
  | selectAccountVersions ids => some (.ok (st.accountVersions ids, []))
  | updateAccountVersion id expectedVersion =>
    match st.accounts.find id with
    | some a => if a.version = expectedVersion then some (.ok (true, [.bumpAccount id])) else some (.ok (false, []))
    | none => some (.ok (false, []))
  | insertEntry entryType paymentId idempotencyKeyId =>
    if st.hasEntry c.id then none else some do
      let row ← JournalEntryRow.new c.id entryType paymentId idempotencyKeyId
      references (paymentId.all st.hasPayment)
      references (idempotencyKeyId.all st.hasKeyId)
      return (c.id, [.insertEntry row])
  | insertLine entryId line => some do
      let row ← JournalLineRow.new entryId line
      references (st.hasEntry entryId)
      references (st.hasAccount line.accountId)
      return ((), [.insertLine row])
  | insertPayment debtorAccountId creditorAccountId amount currency endToEndId =>
    if st.hasPayment c.id then none else some do
      let row ← PaymentRow.new c.id debtorAccountId creditorAccountId amount currency endToEndId
      references (st.hasAccount debtorAccountId)
      references (st.hasAccount creditorAccountId)
      return (c.id, [.insertPayment row])
  | selectPayment id => some (.ok (st.payments.find id, []))
  | updatePaymentStatus id expectedVersion newStatus =>
    match st.payments.find id with
    | some row =>
      if row.version = expectedVersion then some (.ok (true, [.setStatus id newStatus])) else some (.ok (false, []))
    | none => some (.ok (false, []))
  | updateFxDetails id fxRateId creditorAmount => some do
      let amount ← Numeric.ofDecimal 2 creditorAmount
      match st.payments.find id with
      | some _ =>
        references (st.hasRate fxRateId)
        return ((), [.setFxDetails id fxRateId amount])
      | none => return ((), [])
  | insertHistory paymentId fromStatus toStatus reason => some do
      let row ← StatusHistoryRow.new paymentId fromStatus toStatus now reason
      references (st.hasPayment paymentId)
      return ((), [.insertHistory row])
  | insertIdempotencyKey key endpoint requestHash =>
    if st.hasKeyId c.id then none else some do
      let row ← IdempotencyKeyRow.new c.id key endpoint requestHash
      match st.idempotencyKeys.find (row.endpoint, row.key) with
      | some _ => return (false, [])
      | none => return (true, [.insertKey row])
  | selectIdempotencyKey key endpoint => some (.ok (st.idempotencyKeys.find (endpoint, key), []))
  | updateIdempotencyKey key endpoint code body =>
    match st.idempotencyKeys.find (endpoint, key) with
    | some _ => some (.ok ((), [.completeKey endpoint key code body.json]))
    | none => some (.ok ((), []))
  | selectActiveSubscriptions =>
    if c.subscriptions.Perm st.activeSubscriptions then some (.ok (c.subscriptions, [])) else none
  | insertDelivery subscriptionId paymentId eventType payload =>
    if st.hasDelivery c.id then none else some do
      let row ← WebhookDeliveryRow.new c.id subscriptionId paymentId eventType payload now
      references (st.hasSubscription subscriptionId)
      references (paymentId.all st.hasPayment)
      return (c.id, [.insertDelivery row])
  | selectLatestRate baseCurrency quoteCurrency =>
    match c.rate with
    | some r =>
      if r ∈ st.rates baseCurrency quoteCurrency ∧
          ∀ r' ∈ st.rates baseCurrency quoteCurrency, r'.bookedAt ≤ r.bookedAt then some (.ok (some r, []))
      else none
    | none => if st.rates baseCurrency quoteCurrency = [] then some (.ok (none, [])) else none
  | insertRecord batchId record => some do
      let row ← SettlementFileRecordRow.new batchId record
      return ((), [.insertRecord row])
  | selectSettled windowStart windowEnd =>
    if c.settled.Perm (st.settledIn windowStart windowEnd) then some (.ok (c.settled, [])) else none
  | insertRun batchId matchedCount breakCount status =>
    if st.hasRun c.id then none else some do
      let row ← ReconciliationRunRow.new c.id batchId matchedCount breakCount status
      return (c.id, [.insertRun row])
  | insertBreak runId b => some do
      let row ← ReconciliationBreakRow.new runId b
      references (st.hasRun runId)
      references (b.paymentId.all st.hasPayment)
      return ((), [.insertBreak row])

/-- The database under the application: READ COMMITTED, with row locks held to the end. -/
@[reducible] def postgres : Dbms where
  Store := Store
  Write := Write
  Row := RowKey
  Stmt := Stmt
  Res := Stmt.Res
  Err := AppError
  Choice := Choice
  apply := Write.apply
  locked := Write.locked
  eval := fun s st now c => (s.eval st now c).map fun r => r.mapError AppError.db

end PaymentLedger
