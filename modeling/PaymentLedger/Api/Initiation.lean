import PaymentLedger.Services.Calls
import PaymentLedger.Iso20022.Pain001

namespace PaymentLedger

/-- The JSON body of `POST /payments`. -/
structure InitiatePaymentRequest where
  debtorAccountId : Uuid
  creditorAccountId : Uuid
  amount : Decimal
  currency : String
  endToEndId : Option String := none
  deriving DecidableEq

namespace InitiatePaymentRequest

/-- What pydantic requires of the fields. -/
structure Valid (body : InitiatePaymentRequest) : Prop where
  finite : body.amount.IsFinite
  positive : body.amount.nonPositive = .ok false
  currency : body.currency.length = 3
  endToEndId : ∀ ref ∈ body.endToEndId, ref.length ≤ 35

instance (body : InitiatePaymentRequest) : Decidable body.Valid :=
  decidable_of_iff (body.amount.IsFinite ∧ body.amount.nonPositive = .ok false ∧ body.currency.length = 3 ∧
    ∀ ref ∈ body.endToEndId, ref.length ≤ 35)
    ⟨fun h => ⟨h.1, h.2.1, h.2.2.1, h.2.2.2⟩, fun h => ⟨h.finite, h.positive, h.currency, h.endToEndId⟩⟩

/-- `body.model_dump(mode="json")`. -/
def modelDump (body : InitiatePaymentRequest) : PyDict :=
  [("debtor_account_id", .str body.debtorAccountId.str),
   ("creditor_account_id", .str body.creditorAccountId.str),
   ("amount", .str body.amount.str),
   ("currency", .str body.currency),
   ("end_to_end_id", .ofOption .str body.endToEndId)]

def newPayment (body : InitiatePaymentRequest) : NewPayment where
  debtorAccountId := body.debtorAccountId
  creditorAccountId := body.creditorAccountId
  amount := body.amount
  currency := upper body.currency
  endToEndId := body.endToEndId

end InitiatePaymentRequest

/-- What `ingest_pain001` initiates, once the two accounts are resolved. -/
def Pain001CreditTransfer.newPayment (transfer : Pain001CreditTransfer) (debtor creditor : Account) :
    NewPayment where
  debtorAccountId := debtor.id
  creditorAccountId := creditor.id
  amount := transfer.amount
  currency := transfer.currency
  endToEndId := some transfer.endToEndId

section Endpoints

/-- How an endpoint answers: a payment, an error status, or an exception that it does not map. -/
inductive Answer where
  | created (payment : PyDict)
  | refused (status : ℕ)
  | unhandled (e : AppError)
  deriving DecidableEq

def Answer.ofError (status : AppError → Option ℕ) (e : AppError) : Answer :=
  match status e with
  | some code => .refused code
  | none => .unhandled e

/-- The statuses of `create_payment`. -/
def createPaymentStatus : AppError → Option ℕ
  | .invalidPaymentAmount _ => some 422
  | .samePaymentAccount _ => some 422
  | .paymentCurrencyMismatch _ _ => some 422
  | .idempotencyKeyReused _ _ => some 422
  | .idempotencyInProgress _ _ => some 409
  | .accountNotFound _ => some 404
  -- the two kinds of `IntegrityError`
  | .db .foreignKeyViolation => some 404
  | .db .checkViolation => some 404
  | _ => none

/-- The statuses of `ingest_pain001`. -/
def ingestPain001Status : AppError → Option ℕ
  -- an account number that the lookups do not find; the lookup by id is not mapped
  | .accountNotFound (.inr _) => some 404
  | .invalidPaymentAmount _ => some 422
  | .samePaymentAccount _ => some 422
  | .db .foreignKeyViolation => some 404
  | .db .checkViolation => some 404
  | _ => none

def createPaymentAnswer : Except AppError (ℕ × PyDict) → Answer
  | .ok (_, responseBody) => .created responseBody
  | .error e => .ofError createPaymentStatus e

def ingestPain001Answer : Except AppError Payment → Answer
  | .ok payment => .created (paymentResponseDict payment)
  | .error e => .ofError ingestPain001Status e

/-- `create_payment`, for a body that has passed pydantic; any other one is answered with 422. -/
def createPaymentCall (rt : Runtime) (key : String) (body : InitiatePaymentRequest) : App (ℕ × PyDict) :=
  initiatePaymentIdempotent rt key body.modelDump body.newPayment

/-- The two lookups, in the read session of the request. -/
def resolveAccounts (transfer : Pain001CreditTransfer) : App (Account × Account) := do
  let debtor ← getAccountByNumber transfer.debtorAccountNumber
  let creditor ← getAccountByNumber transfer.creditorAccountNumber
  return (debtor, creditor)

/-- `ingest_pain001`, for a document that has been parsed. -/
def ingestPain001 (transfer : Pain001CreditTransfer) : App Payment := do
  let (debtor, creditor) ← (resolveAccounts transfer).uow
  initiatePayment (transfer.newPayment debtor creditor)

end Endpoints
end PaymentLedger
