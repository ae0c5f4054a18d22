import PaymentLedger.Db.Drift
import PaymentLedger.Domain.Webhooks

namespace PaymentLedger

/-- What the dispatcher holds of a row it has read. -/
abbrev WebhookDelivery := WebhookDeliveryRow

/-- A PostgreSQL `integer`, for numbers that are not negative. -/
def integer (n : ℕ) : Except DbError ℕ := if n < 2 ^ 31 then .ok n else .error .numericOverflow

namespace Store

variable (st : Store)

/-- The rows the polling query selects. -/
def dueDeliveries (now : ℕ) : List WebhookDelivery :=
  st.webhookDeliveries.rows.filter fun d => d.status = .pending ∧ d.nextAttemptAt ≤ now

/-- The query orders by the attempt time only: among equal times any order is possible. -/
def listDueDeliveries (now limit : ℕ) (order : List WebhookDelivery) : Option (List WebhookDelivery) :=
  if order.Perm (st.dueDeliveries now) ∧ order.Pairwise fun d d' => d.nextAttemptAt ≤ d'.nextAttemptAt then
    some (order.take limit)
  else none

/-- A row fetched by its id, which has to be there, and rewritten. -/
def rewriteDelivery (id : Uuid) (f : WebhookDelivery → WebhookDelivery) (hf : ∀ d, (f d).id = d.id) :
    Except AppError Store :=
  match st.webhookDeliveries.find id with
  | none => .error .assertion
  | some _ => .ok { st with webhookDeliveries := st.webhookDeliveries.modify id f hf }

def markDelivered (deliveryId : Uuid) : Except AppError Store :=
  st.rewriteDelivery deliveryId (fun d => { d with status := .delivered }) fun _ => rfl

def markRetry (deliveryId : Uuid) (attemptCount nextAttemptAt : ℕ) (lastError : PyStr) :
    Except AppError Store := do
  let attemptCount ← (integer attemptCount).mapError .db
  let lastError ← (pyText lastError).mapError .db
  st.rewriteDelivery deliveryId
    (fun d => { d with attemptCount, nextAttemptAt, lastError := some lastError }) fun _ => rfl

def markDeadLetter (deliveryId : Uuid) (attemptCount : ℕ) (lastError : PyStr) : Except AppError Store := do
  let attemptCount ← (integer attemptCount).mapError .db
  let lastError ← (pyText lastError).mapError .db
  st.rewriteDelivery deliveryId
    (fun d => { d with status := .deadLetter, attemptCount, lastError := some lastError }) fun _ => rfl

/-- The transaction with which `dispatch_one_delivery` ends, when its clock has read `now`. -/
def recordOutcome (maxAttempts now : ℕ) (delivery : WebhookDelivery) (outcome : SendOutcome) :
    Except AppError Store :=
  let attempt := delivery.attemptCount + 1
  match outcome.error with
  | none => st.markDelivered delivery.id
  | some error =>
    if maxAttempts ≤ attempt then st.markDeadLetter delivery.id attempt error
    else
      match backoffSeconds (attempt - 1) with
      | none => .error .overflow
      | some seconds => st.markRetry delivery.id attempt (now + timedelta seconds) error

end Store

/-- `subscriptions_by_id.get(...)`. -/
def subscriptionById (subscriptions : List WebhookSubscription) (id : Uuid) : Option WebhookSubscription :=
  subscriptions.find? fun s => decide (s.id = id)

/-- Where `dispatch_due_deliveries` stands; `due` are the deliveries its loop has not passed. -/
inductive Phase where
  | idle
  | polling (now : ℕ)
  | listed (due : List WebhookDelivery)
  | dispatching (due : List WebhookDelivery) (subscriptions : List WebhookSubscription)
  | sending (delivery : WebhookDelivery) (subscription : WebhookSubscription) (sentAt : ℕ)
      (due : List WebhookDelivery) (subscriptions : List WebhookSubscription)
  | recording (delivery : WebhookDelivery) (sentAt : ℕ) (outcome : SendOutcome)
      (due : List WebhookDelivery) (subscriptions : List WebhookSubscription)
  | storing (delivery : WebhookDelivery) (sentAt : ℕ) (outcome : SendOutcome) (now : ℕ)
      (due : List WebhookDelivery) (subscriptions : List WebhookSubscription)

/-- A finished send. It is recorded when that is committed; there is no record when the transaction raised. -/
structure Sending where
  deliveryId : Uuid
  sentAt : ℕ
  outcome : SendOutcome
  recordedAt : Option ℕ
  deriving DecidableEq

/-- The dispatcher, the store it shares, and the sends whose recording has ended. -/
structure Dispatcher where
  store : Store
  clock : ℕ
  phase : Phase
  sends : List Sending

namespace Dispatcher

def sendsOf (σ : Dispatcher) (id : Uuid) : List Sending := σ.sends.filter fun s => decide (s.deliveryId = id)

variable (limit maxAttempts : ℕ)

/-- One step of `dispatch_due_deliveries`. The two queries of a cycle are statements of one
transaction, each on the rows committed when it runs. The transaction that records an outcome reads the clock first
and is committed later. -/
inductive Own : Dispatcher → Dispatcher → Prop
  | start {σ : Dispatcher} (hp : σ.phase = .idle) : Own σ { σ with phase := .polling σ.clock }
  | list {σ : Dispatcher} {now : ℕ} {due : List WebhookDelivery} (order : List WebhookDelivery)
      (hp : σ.phase = .polling now) (hd : σ.store.listDueDeliveries now limit order = some due) :
      Own σ { σ with phase := .listed due }
  | subscribe {σ : Dispatcher} {due : List WebhookDelivery} (hp : σ.phase = .listed due) :
      Own σ { σ with phase := .dispatching due σ.store.activeSubscriptions }
  | skip {σ : Dispatcher} {d : WebhookDelivery} {due : List WebhookDelivery} {subs : List WebhookSubscription}
      (hp : σ.phase = .dispatching (d :: due) subs) (hs : subscriptionById subs d.subscriptionId = none) :
      Own σ { σ with phase := .dispatching due subs }
  | send {σ : Dispatcher} {d : WebhookDelivery} {due : List WebhookDelivery} {subs : List WebhookSubscription}
      {sub : WebhookSubscription} (hp : σ.phase = .dispatching (d :: due) subs)
      (hs : subscriptionById subs d.subscriptionId = some sub) :
      Own σ { σ with phase := .sending d sub σ.clock due subs }
  | answer {σ : Dispatcher} {d : WebhookDelivery} {sub : WebhookSubscription} {sentAt : ℕ}
      {due : List WebhookDelivery} {subs : List WebhookSubscription} (outcome : SendOutcome)
      (hp : σ.phase = .sending d sub sentAt due subs) :
      Own σ { σ with phase := .recording d sentAt outcome due subs }
  | stamp {σ : Dispatcher} {d : WebhookDelivery} {sentAt : ℕ} {outcome : SendOutcome}
      {due : List WebhookDelivery} {subs : List WebhookSubscription}
      (hp : σ.phase = .recording d sentAt outcome due subs) :
      Own σ { σ with phase := .storing d sentAt outcome σ.clock due subs }
  | record {σ : Dispatcher} {d : WebhookDelivery} {sentAt now : ℕ} {outcome : SendOutcome}
      {due : List WebhookDelivery} {subs : List WebhookSubscription} {st : Store}
      (hp : σ.phase = .storing d sentAt outcome now due subs)
      (hr : σ.store.recordOutcome maxAttempts now d outcome = .ok st) :
      Own σ ⟨st, σ.clock, .dispatching due subs, σ.sends ++ [⟨d.id, sentAt, outcome, some σ.clock⟩]⟩
  | abort {σ : Dispatcher} {d : WebhookDelivery} {sentAt now : ℕ} {outcome : SendOutcome}
      {due : List WebhookDelivery} {subs : List WebhookSubscription} {e : AppError}
      (hp : σ.phase = .storing d sentAt outcome now due subs)
      (hr : σ.store.recordOutcome maxAttempts now d outcome = .error e) :
      Own σ { σ with phase := .idle, sends := σ.sends ++ [⟨d.id, sentAt, outcome, none⟩] }
  | stop {σ : Dispatcher} {subs : List WebhookSubscription} (hp : σ.phase = .dispatching [] subs) :
      Own σ { σ with phase := .idle }

end Dispatcher

/-- Deliveries are enqueued as new rows. -/
def Enqueues (ws : List Write) : Prop :=
  ∀ row, .insertDelivery row ∈ ws → ∃ id subscriptionId paymentId eventType payload now,
    WebhookDeliveryRow.new id subscriptionId paymentId eventType payload now = .ok row

namespace Dispatcher

/-- What happens beside it: time passes, other transactions commit, subscriptions change. -/
inductive Env : Dispatcher → Dispatcher → Prop
  | tick {σ : Dispatcher} {t : ℕ} (ht : σ.clock ≤ t) : Env σ { σ with clock := t }
  | commit {σ : Dispatcher} {ws : List Write} (hw : Enqueues ws) : Env σ { σ with store := σ.store.after ws }
  | admin {σ : Dispatcher} (feed : Feed) : Env σ { σ with store := { σ.store with feed := feed } }

end Dispatcher
end PaymentLedger
