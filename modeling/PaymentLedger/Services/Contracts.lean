import PaymentLedger.Services.Calls

namespace PaymentLedger

/-- The event of a statement with this result. -/
def Did (s : Stmt) (r : s.Res) (e : Event postgres) : Prop := ∃ ws n, e = ⟨s, r, ws, n⟩

theorem path_query {s : Stmt} {t : List (Event postgres)} {r : s.Res} :
    Path (query s) t (.ret r) ↔ ∃ e, t = [e] ∧ Did s r e := by
  rw [query, path_stmt]
  constructor
  · intro h
    obtain ⟨ws, n, rfl⟩ := h
    exact ⟨_, rfl, ws, n, rfl⟩
  · intro h
    obtain ⟨e, rfl, ws, n, rfl⟩ := h
    exact ⟨ws, n, rfl⟩

theorem path_ofExcept {ε α : Type} {f : ε → AppError} {x : Except ε α} {t : List (Event postgres)} {a : α} :
    Path (Prog.ofExcept f x : App α) t (.ret a) ↔ t = [] ∧ x = .ok a := by
  cases x with
  | ok b => simp [Prog.ofExcept]
  | error e => simp [Prog.ofExcept]

section Queries

variable {Q : Stmt → Prop} {P : AppError → Prop}

theorem queries_query {s : Stmt} (h : Q s) : Queries Q P (query s) := queries_stmt (D := postgres) h

theorem queries_ofExcept {ε α : Type} {f : ε → AppError} (h : ∀ e, P (f e)) (x : Except ε α) :
    Queries Q P (Prog.ofExcept f x : App α) := by
  cases x with
  | ok a => trivial
  | error e => exact h e

theorem queries_getAccount {id : Uuid} (hs : Q (.selectAccount id)) (he : P (.accountNotFound (.inl id))) :
    Queries Q P (getAccount id) := by
  apply (queries_query hs).bind
  intro r
  cases r with
  | none => exact he
  | some row => trivial

theorem queries_getAccountByNumber {number : String} (hs : Q (.selectAccountByNumber number))
    (he : P (.accountNotFound (.inr number))) : Queries Q P (getAccountByNumber number) := by
  apply (queries_query hs).bind
  intro r
  cases r with
  | none => exact he
  | some row => trivial

theorem queries_getAccountVersions {rt : Runtime} {ids : List Uuid} (hs : Q (.selectAccountVersions ids))
    (he : ∀ id, P (.accountNotFound (.inl id))) : Queries Q P (getAccountVersions rt ids) := by
  apply (queries_query hs).bind
  intro r
  split
  · trivial
  · exact he _

theorem queries_insertLines {entryId : Uuid} (hs : ∀ line, Q (.insertLine entryId line))
    (lines : List JournalLine) :
    Queries Q P (insertLines entryId lines) := by
  induction lines with
  | nil => trivial
  | cons line lines ih =>
    apply (queries_query (hs line)).bind
    intro _
    exact ih

theorem queries_insertJournalEntry {entry : JournalEntry}
    (hs : Q (.insertEntry entry.entryType entry.paymentId entry.idempotencyKeyId))
    (hl : ∀ id line, Q (.insertLine id line)) :
    Queries Q P (insertJournalEntry entry) := by
  apply (queries_query hs).bind
  intro entryId
  apply (queries_insertLines (hl entryId) entry.lines).bind
  intro _
  trivial

theorem queries_getPayment {id : Uuid} (hs : Q (.selectPayment id)) (he : P (.paymentNotFound id)) :
    Queries Q P (getPayment id) := by
  apply (queries_query hs).bind
  intro r
  cases r with
  | none => exact he
  | some row => trivial

theorem queries_createPayment {d c : Uuid} {amount : Decimal} {currency : String} {ref : Option String}
    (hs : Q (.insertPayment d c amount currency ref)) (hr : ∀ id, Q (.selectPayment id)) (he : P .noResultFound) :
    Queries Q P (createPayment d c amount currency ref) := by
  apply (queries_query hs).bind
  intro id
  apply (queries_query (hr id)).bind
  intro r
  cases r with
  | none => exact he
  | some row => trivial

theorem queries_getLatestRate {base quote : String} (hs : Q (.selectLatestRate base quote))
    (he : P (.fxRateNotFound base quote)) :
    Queries Q P (getLatestRate base quote) := by
  apply (queries_query hs).bind
  intro r
  cases r with
  | none => exact he
  | some row => trivial

theorem queries_bumpAccounts {versions : List (Uuid × ℕ)} (hs : ∀ id v, Q (.updateAccountVersion id v))
    (he : ∀ id, P (.keyError id)) (ids : List Uuid) : Queries Q P (bumpAccounts versions ids) := by
  induction ids with
  | nil => trivial
  | cons id ids ih =>
    rw [bumpAccounts]
    split
    · exact he id
    · apply (queries_query (hs _ _)).bind
      intro bumped
      cases bumped
      · trivial
      · exact ih

theorem queries_enqueueDeliveries {id : Uuid} {eventType : String} {payload : PyDict}
    (hs : ∀ subId, Q (.insertDelivery subId (some id) eventType payload)) (subs : List WebhookSubscription) :
    Queries Q P (enqueueDeliveries id eventType payload subs) := by
  induction subs with
  | nil => trivial
  | cons sub subs ih =>
    rw [enqueueDeliveries]
    split
    · apply (queries_query (hs sub.id)).bind
      intro _
      exact ih
    · exact ih

theorem queries_enqueuePaymentWebhookEvent {id : Uuid} {eventType : String} {payload : PyDict}
    (hs : Q .selectActiveSubscriptions)
    (hd : ∀ subId, Q (.insertDelivery subId (some id) eventType payload)) :
    Queries Q P (enqueuePaymentWebhookEvent id eventType payload) := by
  apply (queries_query hs).bind
  intro subs
  exact queries_enqueueDeliveries hd subs

theorem queries_assertDebtorCurrencyMatches {id : Uuid} {currency : String} (hs : Q (.selectAccount id))
    (he : P (.accountNotFound (.inl id))) (hm : ∀ c, P (.paymentCurrencyMismatch c currency)) :
    Queries Q P (assertDebtorCurrencyMatches id currency) := by
  apply (queries_getAccount hs he).bind
  intro account
  split
  · exact hm _
  · trivial

theorem queries_beginAttempt {key endpoint hash : String} (hi : Q (.insertIdempotencyKey key endpoint hash))
    (hs : Q (.selectIdempotencyKey key endpoint)) (he : P .noResultFound) :
    Queries Q P (beginAttempt key endpoint hash) := by
  apply (queries_query hi).bind
  intro inserted
  cases inserted
  · apply (queries_query hs).bind
    intro existing
    cases existing with
    | none => exact he
    | some row =>
      dsimp only
      split
      · trivial
      · split <;> trivial
  · trivial

theorem queries_settlementLines {payment : Payment} (ha : ∀ id, Q (.selectAccount id))
    (hr : ∀ b q, Q (.selectLatestRate b q))
    (hn : ∀ number, Q (.selectAccountByNumber number))
    (hx : ∀ id rateId amount, Q (.updateFxDetails id rateId amount))
    (he : ∀ x, P (.accountNotFound x)) (hf : ∀ b q, P (.fxRateNotFound b q)) (hc : ∀ s, P (.signal s)) :
    Queries Q P (settlementLines payment) := by
  apply (queries_getAccount (ha _) (he _)).bind
  intro debtor
  apply (queries_getAccount (ha _) (he _)).bind
  intro creditor
  split
  · trivial
  · apply (queries_getLatestRate (hr _ _) (hf _ _)).bind
    intro rate
    apply (queries_ofExcept hc _).bind
    intro creditorAmount
    apply (queries_getAccountByNumber (hn _) (he _)).bind
    intro suspense
    apply (queries_query (hx _ _ _)).bind
    intro _
    trivial

theorem queries_reversalLines {payment : Payment} (ha : ∀ id, Q (.selectAccount id))
    (hn : ∀ number, Q (.selectAccountByNumber number)) (he : ∀ x, P (.accountNotFound x)) :
    Queries Q P (reversalLines payment) := by
  rw [reversalLines]
  split
  · trivial
  · apply (queries_getAccount (ha _) (he _)).bind
    intro debtor
    apply (queries_getAccount (ha _) (he _)).bind
    intro creditor
    apply (queries_getAccountByNumber (hn _) (he _)).bind
    intro suspense
    trivial

theorem queries_loadSettlementRecords {batchId : Uuid} (hs : ∀ record, Q (.insertRecord batchId record))
    (records : List SettlementRecord) : Queries Q P (loadSettlementRecords batchId records) := by
  induction records with
  | nil => trivial
  | cons record records ih =>
    apply (queries_query (hs record)).bind
    intro _
    exact ih

theorem queries_recordRun {batchId : Uuid} {result : ReconciliationResult}
    (hs : ∀ matched broken status, Q (.insertRun batchId matched broken status))
    (hb : ∀ runId b, Q (.insertBreak runId b)) :
    Queries Q P (recordRun batchId result) := by
  have hbreaks (runId : Uuid) (breaks : List ReconciliationBreak) : Queries Q P (insertBreaks runId breaks) := by
    induction breaks with
    | nil => trivial
    | cons b breaks ih =>
      apply (queries_query (hb runId b)).bind
      intro _
      exact ih
  apply (queries_query (hs _ _ _)).bind
  intro runId
  apply (hbreaks runId _).bind
  intro _
  trivial

end Queries

section Plain

theorem plain_query (s : Stmt) : Plain (query s) := plain_stmt (D := postgres) s

theorem plain_ofExcept {ε α : Type} (f : ε → AppError) (x : Except ε α) : Plain (Prog.ofExcept f x : App α) :=
  Queries.plain (queries_ofExcept (fun _ => trivial) x)

theorem plain_getAccountVersions (rt : Runtime) (ids : List Uuid) : Plain (getAccountVersions rt ids) :=
  Queries.plain (queries_getAccountVersions trivial fun _ => trivial)

theorem plain_insertJournalEntry (entry : JournalEntry) : Plain (insertJournalEntry entry) :=
  Queries.plain (queries_insertJournalEntry trivial fun _ _ => trivial)

theorem plain_getPayment (id : Uuid) : Plain (getPayment id) := Queries.plain (queries_getPayment trivial trivial)

theorem plain_createPayment (d c : Uuid) (amount : Decimal) (currency : String) (endToEndId : Option String) :
    Plain (createPayment d c amount currency endToEndId) :=
  Queries.plain (queries_createPayment trivial (fun _ => trivial) trivial)

theorem plain_bumpAccounts (versions : List (Uuid × ℕ)) (ids : List Uuid) : Plain (bumpAccounts versions ids) :=
  Queries.plain (queries_bumpAccounts (fun _ _ => trivial) (fun _ => trivial) ids)

theorem plain_enqueuePaymentWebhookEvent (id : Uuid) (eventType : String) (payload : PyDict) :
    Plain (enqueuePaymentWebhookEvent id eventType payload) :=
  Queries.plain (queries_enqueuePaymentWebhookEvent trivial fun _ => trivial)

theorem plain_assertDebtorCurrencyMatches (id : Uuid) (currency : String) :
    Plain (assertDebtorCurrencyMatches id currency) :=
  Queries.plain (queries_assertDebtorCurrencyMatches trivial trivial fun _ => trivial)

theorem plain_createPaymentWithin (req : NewPayment) : Plain (createPaymentWithin req) := by
  apply (plain_assertDebtorCurrencyMatches _ _).bind
  intro _
  apply (plain_createPayment _ _ _ _ _).bind
  intro payment
  apply (plain_query _).bind
  intro _
  apply (plain_enqueuePaymentWebhookEvent _ _ _).bind
  intro _
  trivial

theorem plain_beginAttempt (key endpoint hash : String) : Plain (beginAttempt key endpoint hash) :=
  Queries.plain (queries_beginAttempt trivial trivial trivial)

theorem plain_settlementLines (payment : Payment) : Plain (settlementLines payment) :=
  Queries.plain
    (queries_settlementLines (fun _ => trivial) (fun _ _ => trivial) (fun _ => trivial) (fun _ _ _ => trivial)
    (fun _ => trivial) (fun _ _ => trivial) fun _ => trivial)

theorem plain_reversalLines (payment : Payment) : Plain (reversalLines payment) :=
  Queries.plain (queries_reversalLines (fun _ => trivial) (fun _ => trivial) fun _ => trivial)

theorem plain_loadSettlementRecords (batchId : Uuid) (records : List SettlementRecord) :
    Plain (loadSettlementRecords batchId records) :=
  Queries.plain (queries_loadSettlementRecords (fun _ => trivial) records)

theorem plain_recordRun (batchId : Uuid) (result : ReconciliationResult) : Plain (recordRun batchId result) :=
  Queries.plain (queries_recordRun (fun _ _ _ => trivial) fun _ _ => trivial)

end Plain

section Closes

theorem closes_postJournalEntryAttempt (rt : Runtime) (entry : JournalEntry) :
    Closes (·.isSome) (· = none) (postJournalEntryAttempt rt entry) := by
  apply closes_bind (plain_getAccountVersions _ _)
  intro versions
  apply closes_bind (plain_insertJournalEntry _)
  intro entryId
  apply closes_bind (plain_bumpAccounts _ _)
  intro bumped
  cases bumped
  · exact ⟨none, rfl, rfl⟩
  · exact ⟨some entryId, rfl, rfl⟩

theorem closes_initiatePaymentBlock (req : NewPayment) :
    Closes (fun _ => True) (fun _ => False) (initiatePaymentBlock req) := by
  apply closes_bind (plain_createPaymentWithin req)
  intro payment
  exact ⟨payment, rfl, trivial⟩

theorem closes_claimBlock (rt : Runtime) (key : String) (body : PyDict) (req : NewPayment) :
    Closes (fun _ => True) (fun _ => False) (claimBlock rt key body req) := by
  apply closes_bind (plain_assertDebtorCurrencyMatches _ _)
  intro _
  apply closes_bind (plain_beginAttempt _ _ _)
  intro outcome
  exact ⟨outcome, rfl, trivial⟩

theorem closes_completeBlock (key : String) (req : NewPayment) :
    Closes (fun _ => True) (fun _ => False) (completeBlock key req) := by
  apply closes_bind (plain_createPaymentWithin req)
  intro payment
  apply closes_bind (plain_query _)
  intro _
  exact ⟨_, rfl, trivial⟩

theorem closes_transitionStatusOnlyAttempt (id : Uuid) (toStatus : PaymentStatus) (reason : Option PyStr) :
    Closes (·.isSome) (· = none) (transitionStatusOnlyAttempt id toStatus reason) := by
  apply closes_bind (plain_getPayment id)
  intro payment
  apply closes_bind (plain_ofExcept _ _)
  intro _
  apply closes_bind (plain_query _)
  intro bumped
  cases bumped
  · exact ⟨none, rfl, rfl⟩
  · apply closes_bind (plain_query _)
    intro _
    apply closes_bind (plain_enqueuePaymentWebhookEvent _ _ _)
    intro _
    exact ⟨_, rfl, rfl⟩

theorem closes_transitionWithLedgerEntryAttempt (rt : Runtime) (id : Uuid) (toStatus : PaymentStatus)
    {buildLines : Payment → App BuildLinesResult} (hb : ∀ p, Plain (buildLines p)) :
    Closes (·.isSome) (· = none) (transitionWithLedgerEntryAttempt rt id toStatus buildLines) := by
  apply closes_bind (plain_getPayment id)
  intro payment
  apply closes_bind (plain_ofExcept _ _)
  intro _
  apply closes_bind (hb payment)
  intro built
  apply closes_bind (plain_ofExcept _ _)
  intro _
  apply closes_bind (plain_getAccountVersions _ _)
  intro versions
  apply closes_bind (plain_insertJournalEntry _)
  intro entryId
  apply closes_bind (plain_bumpAccounts _ _)
  intro bumped
  have finish (moved : Bool) : Closes (·.isSome) (· = none)
      (if moved then
        recordStatusTransition id (some payment.status) toStatus none >>= fun _ =>
          enqueuePaymentWebhookEvent id ("payment." ++ toStatus.value)
            (paymentResponseDict (payment.moved toStatus built.2.2)) >>= fun _ =>
            Prog.commitTx >>= fun _ => (return some (payment.moved toStatus built.2.2) : App (Option Payment))
      else Prog.rollbackTx >>= fun _ => return none) := by
    cases moved
    · exact ⟨none, rfl, rfl⟩
    · apply closes_bind (plain_query _)
      intro _
      apply closes_bind (plain_enqueuePaymentWebhookEvent _ _ _)
      intro _
      exact ⟨_, rfl, rfl⟩
  cases bumped
  · exact finish false
  · apply closes_bind (plain_query _)
    intro moved
    exact finish moved

theorem closes_runReconciliationBlock (rt : Runtime) (batchId : Uuid) (records : List SettlementRecord)
    (windowStart windowEnd : ℕ) :
    Closes (fun _ => True) (fun _ => False) (runReconciliationBlock rt batchId records windowStart windowEnd) := by
  apply closes_bind (plain_loadSettlementRecords _ _)
  intro _
  apply closes_bind (plain_query _)
  intro ledgerPayments
  apply closes_bind (plain_ofExcept _ _)
  intro result
  apply closes_bind (plain_recordRun _ _)
  intro runId
  exact ⟨_, rfl, trivial⟩

end Closes

/-- The transactions that a call commits, with the value it returns after each. The idempotent
initiation has two of them. -/
def Call.Commits (rt : Runtime) : Call → List (Event postgres) → Value → Prop
  | .initiatePayment req, tx, v => ∃ p, v = .payment p ∧
    validateNewPayment req.amount req.debtorAccountId req.creditorAccountId = .ok () ∧
    Path (initiatePaymentBlock req) tx (.commit (.ret p))
  | .initiatePaymentIdempotent _ _ _, _, _ => False
  | .authorisePayment id _, tx, v =>
    ∃ p, v = .payment p ∧ Path (transitionStatusOnlyAttempt id .authorised none) tx (.commit (.ret (some p)))
  | .failPayment id reason _, tx, v =>
    ∃ p, v = .payment p ∧ Path (transitionStatusOnlyAttempt id .failed reason) tx (.commit (.ret (some p)))
  | .settlePayment id _, tx, v => ∃ p, v = .payment p ∧
    Path (transitionWithLedgerEntryAttempt rt id .settled settlementLines) tx (.commit (.ret (some p)))
  | .reversePayment id _, tx, v => ∃ p, v = .payment p ∧
    Path (transitionWithLedgerEntryAttempt rt id .reversed reversalLines) tx (.commit (.ret (some p)))
  | .postJournalEntry entry _, tx, v => ∃ u, v = .entryId u ∧ validateJournalEntry entry.lines = .ok () ∧
    Path (postJournalEntryAttempt rt entry) tx (.commit (.ret (some u)))
  | .runReconciliation batchId records windowStart windowEnd, tx, v => ∃ r, v = .run r.1 r.2 ∧
    Path (runReconciliationBlock rt batchId records windowStart windowEnd) tx (.commit (.ret r))

/-- The statement that an open transaction of the call executes next. -/
def Call.Next (rt : Runtime) : Call → List (Event postgres) → Stmt → Prop
  | .initiatePayment req, tx, s => ∃ k, Path (initiatePaymentBlock req) tx (.exec s k)
  | .initiatePaymentIdempotent key body req, tx, s =>
    (∃ k, Path (claimBlock rt key body req) tx (.exec s k)) ∨ ∃ k, Path (completeBlock key req) tx (.exec s k)
  | .authorisePayment id _, tx, s => ∃ k, Path (transitionStatusOnlyAttempt id .authorised none) tx (.exec s k)
  | .failPayment id reason _, tx, s => ∃ k, Path (transitionStatusOnlyAttempt id .failed reason) tx (.exec s k)
  | .settlePayment id _, tx, s =>
    ∃ k, Path (transitionWithLedgerEntryAttempt rt id .settled settlementLines) tx (.exec s k)
  | .reversePayment id _, tx, s =>
    ∃ k, Path (transitionWithLedgerEntryAttempt rt id .reversed reversalLines) tx (.exec s k)
  | .postJournalEntry entry _, tx, s => ∃ k, Path (postJournalEntryAttempt rt entry) tx (.exec s k)
  | .runReconciliation batchId records windowStart windowEnd, tx, s =>
    ∃ k, Path (runReconciliationBlock rt batchId records windowStart windowEnd) tx (.exec s k)

section Once

variable {α β : Type} {pre : List (Event postgres) → Stmt → Prop} {P : List (Event postgres) → α → Prop}

/-- A loop of attempts commits at most once. -/
theorem meets_retry {attempt : App (Option β)} (hcl : Closes (·.isSome) (· = none) attempt)
    (exhausted : AppError) (wrap : β → α) (hp : ∀ t s k, Path attempt t (.exec s k) → pre t s)
    (hc : ∀ t v, Path attempt t (.commit (.ret (some v))) → P t (wrap v)) (attempts : ℕ)
    {done : List (Attempt postgres)} (hd : committedOf done = []) :
    (Contract.once (D := postgres) pre P).Meets ((retry attempt exhausted attempts).bind fun v => .ret (wrap v))
      done [] := by
  induction attempts generalizing done with
  | zero => exact hd
  | succ attempts ih =>
    rw [retry, Prog.bind_eq, Prog.bind_assoc]
    apply Contract.meets_block hcl
    · exact hp
    · intro t v hv h
      obtain ⟨w, rfl⟩ := Option.isSome_iff_exists.mp hv
      have hw := hc t w h
      exact ⟨⟨hd, wrap w, hw⟩, t, by simp [hd], hw⟩
    · intro t v hv h
      subst hv
      apply ih
      simp [hd]
    · intro t e
      simp [Contract.once, hd]

/-- A single block commits at most once. -/
theorem meets_single {body : App β} (hcl : Closes (fun _ => True) (fun _ => False) body) (wrap : β → α)
    (hp : ∀ t s k, Path body t (.exec s k) → pre t s)
    (hc : ∀ t v, Path body t (.commit (.ret v)) → P t (wrap v)) :
    (Contract.once (D := postgres) pre P).Meets (body.uow.bind fun v => .ret (wrap v)) [] [] := by
  apply Contract.meets_block hcl
  · exact hp
  · intro t v _ h
    exact ⟨⟨rfl, wrap v, hc t v h⟩, t, rfl, hc t v h⟩
  · intro t v hv
    exact hv.elim
  · intro t e
    rfl

end Once

/-- Every call but the idempotent initiation commits at most one transaction. -/
theorem call_once (rt : Runtime) (call : Call)
    (hc : ∀ key body req, call ≠ .initiatePaymentIdempotent key body req) :
    (Contract.once (call.Next rt) (call.Commits rt)).Meets (call.prog rt) [] [] := by
  cases call with
  | initiatePayment req =>
    rw [Call.prog, initiatePayment, Prog.bind_eq, Prog.bind_eq, Prog.bind_assoc]
    cases hv : validateNewPayment req.amount req.debtorAccountId req.creditorAccountId with
    | error e => rfl
    | ok u =>
      apply meets_single (closes_initiatePaymentBlock req) Value.payment
      · intro t s k h
        exact ⟨k, h⟩
      · intro t v h
        exact ⟨v, rfl, hv, h⟩
  | initiatePaymentIdempotent key body req => exact absurd rfl (hc key body req)
  | authorisePayment id n =>
    apply meets_retry (closes_transitionStatusOnlyAttempt id .authorised none) _ Value.payment _ _ n rfl
    · intro t s k h
      exact ⟨k, h⟩
    · intro t v h
      exact ⟨v, rfl, h⟩
  | failPayment id reason n =>
    apply meets_retry (closes_transitionStatusOnlyAttempt id .failed reason) _ Value.payment _ _ n rfl
    · intro t s k h
      exact ⟨k, h⟩
    · intro t v h
      exact ⟨v, rfl, h⟩
  | settlePayment id n =>
    apply meets_retry (closes_transitionWithLedgerEntryAttempt rt id .settled plain_settlementLines) _
      Value.payment _ _ n rfl
    · intro t s k h
      exact ⟨k, h⟩
    · intro t v h
      exact ⟨v, rfl, h⟩
  | reversePayment id n =>
    apply meets_retry (closes_transitionWithLedgerEntryAttempt rt id .reversed plain_reversalLines) _
      Value.payment _ _ n rfl
    · intro t s k h
      exact ⟨k, h⟩
    · intro t v h
      exact ⟨v, rfl, h⟩
  | postJournalEntry entry n =>
    rw [Call.prog, postJournalEntry, Prog.bind_eq, Prog.bind_eq, Prog.bind_assoc]
    cases hv : validateJournalEntry entry.lines with
    | error e => rfl
    | ok u =>
      apply meets_retry (closes_postJournalEntryAttempt rt entry) _ Value.entryId _ _ n rfl
      · intro t s k h
        exact ⟨k, h⟩
      · intro t v h
        exact ⟨v, rfl, hv, h⟩
  | runReconciliation batchId records windowStart windowEnd =>
    apply meets_single (closes_runReconciliationBlock rt batchId records windowStart windowEnd)
      fun r => Value.run r.1 r.2
    · intro t s k h
      exact ⟨k, h⟩
    · intro t v h
      exact ⟨v, rfl, h⟩

/-- The idempotent initiation commits a claim and, when it has won the key, the payment. -/
def idempotentContract (rt : Runtime) (key : String) (body : PyDict) (req : NewPayment) :
    Contract postgres Value where
  pre := (Call.initiatePaymentIdempotent key body req).Next rt
  commit := fun done tx =>
    (committedOf done = [] ∧ ∃ outcome, Path (claimBlock rt key body req) tx (.commit (.ret outcome))) ∨
      ∃ t r, committedOf done = [t] ∧ Path (claimBlock rt key body req) t (.commit (.ret .started)) ∧
        Path (completeBlock key req) tx (.commit (.ret r))
  ret := fun v done =>
    (∃ t code response, committedOf done = [t] ∧ v = .response code response ∧
      Path (claimBlock rt key body req) t (.commit (.ret (.replay (some code) (some response))))) ∨
    ∃ t t' r, committedOf done = [t, t'] ∧ v = .response r.1 r.2 ∧
      Path (claimBlock rt key body req) t (.commit (.ret .started)) ∧
      Path (completeBlock key req) t' (.commit (.ret r))
  raise := fun _ done => committedOf done = [] ∨
    ∃ t outcome, committedOf done = [t] ∧ Path (claimBlock rt key body req) t (.commit (.ret outcome))

theorem call_idempotent (rt : Runtime) (key : String) (body : PyDict) (req : NewPayment) :
    (idempotentContract rt key body req).Meets ((Call.initiatePaymentIdempotent key body req).prog rt) [] [] := by
  rw [Call.prog, initiatePaymentIdempotent, Prog.bind_eq, Prog.bind_eq, Prog.bind_assoc]
  cases validateNewPayment req.amount req.debtorAccountId req.creditorAccountId with
  | error e => exact .inl rfl
  | ok u =>
    show (idempotentContract rt key body req).Meets (Prog.bind (Prog.bind _ _) _) [] []
    rw [Prog.bind_assoc]
    apply Contract.meets_block (closes_claimBlock rt key body req)
    · intro t s k h
      exact .inl ⟨k, h⟩
    · intro t outcome _ h
      refine ⟨.inl ⟨rfl, outcome, h⟩, ?_⟩
      have lost : (idempotentContract rt key body req).raise .noResultFound [⟨t, true⟩, ⟨[], false⟩] :=
        .inr ⟨t, outcome, rfl, h⟩
      cases outcome with
      | replay code response =>
        cases code with
        | none => exact lost
        | some code =>
          cases response with
          | none => exact lost
          | some response => exact .inl ⟨t, code, response, rfl, rfl, h⟩
      | inProgressConflict => exact lost
      | hashMismatch => exact lost
      | started =>
        apply Contract.meets_block (closes_completeBlock key req) fun r => .ret (Value.response r.1 r.2)
        · intro t' s k h'
          exact .inr ⟨k, h'⟩
        · intro t' r _ h'
          exact ⟨.inr ⟨t, r, rfl, h, h'⟩, .inr ⟨t, t', r, rfl, rfl, h, h'⟩⟩
        · intro t' r hv
          exact hv.elim
        · intro t' e
          exact .inr ⟨t, .started, rfl, h⟩
    · intro t outcome hv
      exact hv.elim
    · intro t e
      exact .inl rfl

end PaymentLedger
