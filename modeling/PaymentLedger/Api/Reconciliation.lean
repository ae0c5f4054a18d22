import PaymentLedger.Reconciliation.Reports
import PaymentLedger.Reconciliation.SettlementFile

namespace PaymentLedger

/-- `ReconciliationRunResponse`; a break of it has the fields of a domain break. -/
structure ReconciliationRunResponse where
  id : Uuid
  batchId : Uuid
  matchedCount : ℕ
  breakCount : ℕ
  status : String
  breaks : List ReconciliationBreak
  deriving DecidableEq

/-- What pydantic requires of the amounts of a break. -/
def ReconciliationBreak.Valid (b : ReconciliationBreak) : Prop :=
  (∀ a ∈ b.ledgerAmount, a.IsFinite) ∧ ∀ a ∈ b.settlementAmount, a.IsFinite

instance (b : ReconciliationBreak) : Decidable b.Valid := by
  unfold ReconciliationBreak.Valid
  infer_instance

section Endpoints

/-- How an endpoint answers: with a run, an error status and its detail, or an exception that it does not map. -/
inductive RunAnswer where
  | run (status : ℕ) (response : ReconciliationRunResponse)
  | refused (status : ℕ) (detail : String)
  | unhandled
  deriving DecidableEq

/-- A response whose amounts pydantic refuses is not sent. -/
def RunAnswer.respond (status : ℕ) (response : ReconciliationRunResponse) : RunAnswer :=
  if ∀ b ∈ response.breaks, b.Valid then .run status response else .unhandled

/-- `run_reconciliation_endpoint` up to its call, for the batch id that it has drawn and the window before the time
of the request; a file that is refused is answered at once. -/
def runReconciliationEndpoint (fromisoformat : String → Except String ℕ) (rt : Runtime)
    (body : String) (batchId : Uuid)
    (windowStart windowEnd : ℕ) : Except RunAnswer Call :=
  match parseSettlementCsv fromisoformat rt.repr body with
  | .ok records => .ok (.runReconciliation batchId records windowStart windowEnd)
  | .error (.settlementCsv message) => .error (.refused 400 message)
  | .error _ => .error .unhandled

/-- The answer from what the call has ended in. -/
def runReconciliationAnswer (batchId : Uuid) : Except AppError Value → RunAnswer
  | .ok (.run runId result) =>
    .respond 201 ⟨runId, batchId, result.matchedCount, result.breakCount, "completed", result.breaks⟩
  | _ => .unhandled

def ReconciliationBreakRow.toDomain (row : ReconciliationBreakRow) : ReconciliationBreak where
  breakType := row.breakType
  externalRef := row.externalRef
  paymentId := row.paymentId
  ledgerAmount := row.ledgerAmount.map Numeric.toDecimal
  settlementAmount := row.settlementAmount.map Numeric.toDecimal
  details := row.details

/-- `get_reconciliation_run`, for the rows that `get_run` and `list_breaks_for_run` have read. -/
def getReconciliationRun (run : Option ReconciliationRunRow) (breaks : List ReconciliationBreakRow) : RunAnswer :=
  match run with
  | none => .refused 404 "reconciliation run not found"
  | some run => .respond 200 ⟨run.id, run.batchId, run.matchedCount, run.breakCount, run.status,
      breaks.map ReconciliationBreakRow.toDomain⟩

/-- The answer of `get_reconciliation_run` when the run is read from one committed store and its breaks, in any
order, from another. -/
def Gets (st st' : Store) (runId : Uuid) (answer : RunAnswer) : Prop :=
  ∃ breaks, breaks.Perm (st'.breaksOf runId) ∧
  answer = getReconciliationRun (st.reconciliationRuns.find runId) breaks

end Endpoints
end PaymentLedger
