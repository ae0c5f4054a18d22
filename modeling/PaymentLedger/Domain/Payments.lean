import PaymentLedger.Domain.Ledger

namespace PaymentLedger

inductive PaymentStatus where
  | initiated
  | authorised
  | settled
  | reversed
  | failed
  deriving DecidableEq, Repr

def PaymentStatus.value : PaymentStatus → String
  | .initiated => "initiated"
  | .authorised => "authorised"
  | .settled => "settled"
  | .reversed => "reversed"
  | .failed => "failed"

structure Payment where
  id : Uuid
  debtorAccountId : Uuid
  creditorAccountId : Uuid
  amount : Decimal
  currency : String
  status : PaymentStatus
  version : ℕ
  endToEndId : Option String := none
  fxRateId : Option Uuid := none
  creditorAmount : Option Decimal := none
  deriving DecidableEq

/-- The only legal edges; the terminal states have none. -/
def allowedTransitions : PaymentStatus → List PaymentStatus
  | .initiated => [.authorised, .failed]
  | .authorised => [.settled, .failed]
  | .settled => [.reversed]
  | .reversed => []
  | .failed => []

structure InvalidPaymentTransition where
  fromStatus : PaymentStatus
  toStatus : PaymentStatus
  deriving DecidableEq

def assertTransitionAllowed (fromStatus toStatus : PaymentStatus) :
    Except InvalidPaymentTransition Unit :=
  if toStatus ∈ allowedTransitions fromStatus then .ok () else .error ⟨fromStatus, toStatus⟩

/-- The values that occur in response bodies and webhook payloads. -/
inductive PyValue where
  | none
  | int (n : ℕ)
  | str (s : String)
  | uuid (u : Uuid)
  | decimal (d : Decimal)
  | status (s : PaymentStatus)
  deriving DecidableEq

abbrev PyDict := List (String × PyValue)

/-- What is left of a value after JSON with `default=str`. -/
def PyValue.json : PyValue → PyValue
  | .uuid u => .str u.str
  | .decimal d => .str d.str
  | .status s => .str s.value
  | v => v

def PyDict.json (d : PyDict) : PyDict := d.map fun kv => (kv.1, kv.2.json)

def PyValue.ofOption {α : Type} (f : α → PyValue) : Option α → PyValue
  | .none => .none
  | .some a => f a

def paymentResponseDict (payment : Payment) : PyDict :=
  [("id", .uuid payment.id),
   ("debtor_account_id", .uuid payment.debtorAccountId),
   ("creditor_account_id", .uuid payment.creditorAccountId),
   ("amount", .decimal payment.amount),
   ("currency", .str payment.currency),
   ("status", .status payment.status),
   ("version", .int payment.version),
   ("end_to_end_id", .ofOption .str payment.endToEndId),
   ("fx_rate_id", .ofOption .uuid payment.fxRateId),
   ("creditor_amount", .ofOption .decimal payment.creditorAmount)]

structure FxRate where
  id : Uuid
  baseCurrency : String
  quoteCurrency : String
  rate : Decimal
  bookedAt : ℕ
  source : String
  deriving DecidableEq

/-- The rounded product, at two decimals. -/
def convertAmount (amount rate : Decimal) : Except DecimalSignal Decimal := do
  let product ← Decimal.mul defaultContext amount rate
  Decimal.quantize defaultContext (-2) product

structure WebhookSubscription where
  id : Uuid
  url : String
  secret : String
  eventTypes : List String
  active : Bool
  deriving DecidableEq

/-- A subscription with no event types listed wants every event. -/
def WebhookSubscription.wants (s : WebhookSubscription) (eventType : String) : Bool :=
  s.eventTypes.isEmpty || s.eventTypes.contains eventType

end PaymentLedger
