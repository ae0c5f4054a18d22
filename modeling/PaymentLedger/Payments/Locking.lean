import PaymentLedger.Payments.Races

namespace PaymentLedger

/-- The statement may lock a row of `accounts` or of `payments`. -/
def Stmt.locking : Stmt → Bool
  | updateAccountVersion _ _ => true
  | insertPayment _ _ _ _ _ => true
  | updatePaymentStatus _ _ _ => true
  | updateFxDetails _ _ _ => true
  | _ => false

def Stmt.Quiet (s : Stmt) : Prop := s.locking = false

def Stmt.Bumps (s : Stmt) : Prop := ∃ id v, s = .updateAccountVersion id v

def Stmt.Books (id : Uuid) (s : Stmt) : Prop := ∃ rateId amount, s = .updateFxDetails id rateId amount

theorem quiet_query {s : Stmt} (h : s.locking = false) : Only Stmt.Quiet (query s) := only_stmt (D := postgres) h

theorem onlyButOne_query (s : Stmt) : OnlyButOne Stmt.Quiet (query s) := onlyButOne_stmt (D := postgres) s

section Quiet

theorem quiet_getAccount (id : Uuid) : Only Stmt.Quiet (getAccount id) :=
  Queries.only (queries_getAccount rfl trivial)

theorem quiet_getAccountVersions (rt : Runtime) (ids : List Uuid) : Only Stmt.Quiet (getAccountVersions rt ids) :=
  Queries.only (queries_getAccountVersions rfl fun _ => trivial)

theorem quiet_insertJournalEntry (entry : JournalEntry) : Only Stmt.Quiet (insertJournalEntry entry) :=
  Queries.only (queries_insertJournalEntry rfl fun _ _ => rfl)

theorem quiet_getPayment (id : Uuid) : Only Stmt.Quiet (getPayment id) :=
  Queries.only (queries_getPayment rfl trivial)

theorem quiet_ofExcept {ε α : Type} (f : ε → AppError) (x : Except ε α) :
    Only Stmt.Quiet (Prog.ofExcept f x : App α) :=
  Queries.only (queries_ofExcept (fun _ => trivial) x)

theorem quiet_enqueuePaymentWebhookEvent (id : Uuid) (eventType : String) (payload : PyDict) :
    Only Stmt.Quiet (enqueuePaymentWebhookEvent id eventType payload) :=
  Queries.only (queries_enqueuePaymentWebhookEvent rfl fun _ => rfl)

theorem quiet_assertDebtorCurrencyMatches (id : Uuid) (currency : String) :
    Only Stmt.Quiet (assertDebtorCurrencyMatches id currency) :=
  Queries.only (queries_assertDebtorCurrencyMatches rfl trivial fun _ => trivial)

theorem quiet_reversalLines (payment : Payment) : Only Stmt.Quiet (reversalLines payment) :=
  Queries.only (queries_reversalLines (fun _ => rfl) (fun _ => rfl) fun _ => trivial)

theorem quiet_runReconciliationBlock (rt : Runtime) (batchId : Uuid) (records : List SettlementRecord)
    (windowStart windowEnd : ℕ) :
    Only Stmt.Quiet (runReconciliationBlock rt batchId records windowStart windowEnd) := by
  apply Only.bind (Queries.only (queries_loadSettlementRecords (fun _ => rfl) records))
  intro _
  apply (quiet_query rfl).bind
  intro settled
  apply (quiet_ofExcept _ _).bind
  intro result
  apply Only.bind (Queries.only (queries_recordRun (fun _ _ _ => rfl) fun _ _ => rfl))
  intro runId
  trivial

theorem bumps_bumpAccounts (versions : List (Uuid × ℕ)) (ids : List Uuid) :
    Only Stmt.Bumps (bumpAccounts versions ids) :=
  Queries.only (queries_bumpAccounts (fun id v => ⟨id, v, rfl⟩) (fun _ => trivial) ids)

end Quiet

section Single

theorem single_createPaymentWithin (req : NewPayment) : OnlyButOne Stmt.Quiet (createPaymentWithin req) := by
  apply OnlyButOne.before (quiet_assertDebtorCurrencyMatches _ _)
  intro _
  have hcreate :
    OnlyButOne Stmt.Quiet (createPayment req.debtorAccountId req.creditorAccountId req.amount req.currency
      req.endToEndId) := by
    apply (onlyButOne_query _).bind
    intro id
    apply (quiet_query rfl).bind
    intro r
    cases r <;> trivial
  apply hcreate.bind
  intro payment
  apply (quiet_query rfl).bind
  intro _
  apply (quiet_enqueuePaymentWebhookEvent _ _ _).bind
  intro _
  trivial

theorem single_initiatePaymentBlock (req : NewPayment) : OnlyButOne Stmt.Quiet (initiatePaymentBlock req) := by
  apply (single_createPaymentWithin req).bind
  intro payment
  trivial

theorem single_claimBlock (rt : Runtime) (key : String) (body : PyDict) (req : NewPayment) :
    OnlyButOne Stmt.Quiet (claimBlock rt key body req) := by
  apply OnlyButOne.before (quiet_assertDebtorCurrencyMatches _ _)
  intro _
  apply OnlyButOne.before (Queries.only (Q := Stmt.Quiet) (queries_beginAttempt rfl rfl trivial))
  intro outcome
  trivial

theorem single_completeBlock (key : String) (req : NewPayment) : OnlyButOne Stmt.Quiet (completeBlock key req) := by
  apply (single_createPaymentWithin req).bind
  intro payment
  apply (quiet_query rfl).bind
  intro _
  trivial

theorem single_transitionStatusOnlyAttempt (id : Uuid) (toStatus : PaymentStatus) (reason : Option PyStr) :
    OnlyButOne Stmt.Quiet (transitionStatusOnlyAttempt id toStatus reason) := by
  apply OnlyButOne.before (quiet_getPayment id)
  intro payment
  apply OnlyButOne.before (quiet_ofExcept _ _)
  intro _
  apply (onlyButOne_query _).bind
  intro moved
  cases moved
  · trivial
  · apply (quiet_query rfl).bind
    intro _
    apply (quiet_enqueuePaymentWebhookEvent _ _ _).bind
    intro _
    trivial

theorem single_settlementLines (payment : Payment) : OnlyButOne Stmt.Quiet (settlementLines payment) := by
  apply OnlyButOne.before (quiet_getAccount _)
  intro debtor
  apply OnlyButOne.before (quiet_getAccount _)
  intro creditor
  split
  · trivial
  · apply OnlyButOne.before (Queries.only (Q := Stmt.Quiet) (queries_getLatestRate rfl trivial))
    intro rate
    apply OnlyButOne.before (quiet_ofExcept _ _)
    intro creditorAmount
    apply OnlyButOne.before (Queries.only (Q := Stmt.Quiet) (queries_getAccountByNumber rfl trivial))
    intro suspense
    apply (onlyButOne_query _).bind
    intro _
    trivial

end Single

/-- The payment and its accounts, as the transaction has read them. -/
structure HasRead (tx : List (Event postgres)) (id : Uuid) (row : PaymentRow)
    (debtor creditor : Account) : Prop where
  payment : ∃ e ∈ tx, Did (.selectPayment id) (some row) e
  debtor : ∃ e ∈ tx, Did (.selectAccount row.debtorAccountId) (some debtor) e
  creditor : ∃ e ∈ tx, Did (.selectAccount row.creditorAccountId) (some creditor) e

/-- The transaction has locked accounts only. -/
def Posts (tx : List (Event postgres)) : Prop := ∀ e ∈ tx, e.stmt.Quiet ∨ e.stmt.Bumps

/-- The transaction settles the payment by a conversion: it has locked the payment, and then accounts. -/
structure Exchanges (tx : List (Event postgres)) (id : Uuid) : Prop where
  read : ∃ row debtor creditor, HasRead tx id row debtor creditor ∧ debtor.currency ≠ creditor.currency ∧
    (∃ pre e post, tx = pre ++ e :: post ∧ e.stmt.Books row.id ∧ ∃ e' ∈ pre,
      Did (.selectPayment id) (some row) e') ∧
    ∀ e ∈ tx, e.stmt.Quiet ∨ e.stmt.Bumps ∨ e.stmt.Books row.id

/-- The transaction moves the payment without a conversion: it settles it between accounts of one currency, or
reverses it. -/
def MovesDirectly (tx : List (Event postgres)) (id : Uuid) : Prop :=
  (∃ row debtor creditor, HasRead tx id row debtor creditor ∧ debtor.currency = creditor.currency) ∨
    ∃ row, row.status = .settled ∧ ∃ e ∈ tx, Did (.selectPayment id) (some row) e

/-- What a transaction has locked of the shared rows when it comes to a statement: nothing if the statement is its
first that locks one, and else what its posting needs. -/
inductive Arrives (tx : List (Event postgres)) : Stmt → Prop
  | quiet {s : Stmt} (hs : s.Quiet) : Arrives tx s
  | first {s : Stmt} (htx : ∀ e ∈ tx, e.stmt.Quiet) : Arrives tx s
  | bump {accountId : Uuid} {v : ℕ} (htx : Posts tx ∨ ∃ id, Exchanges tx id) :
      Arrives tx (.updateAccountVersion accountId v)
  | move {id : Uuid} {v : ℕ} {toStatus : PaymentStatus} (htx : (Posts tx ∧ MovesDirectly tx id) ∨ Exchanges tx id) :
      Arrives tx (.updatePaymentStatus id v toStatus)

theorem OnlyButOne.arrives {α : Type} {p : App α} {tx : List (Event postgres)} {s : Stmt} {k : s.Res → App α}
    (hp : OnlyButOne Stmt.Quiet p) (h : Path p tx (.exec s k)) : Arrives tx s := by
  rcases hp.path h with hs | htx
  · exact .quiet hs
  · exact .first htx

section Posting

variable {tx t : List (Event postgres)} {s : Stmt} {rt : Runtime}

/-- The lines of a posting have been built by these statements; what follows them only bumps accounts. -/
def Prepared (id : Uuid) (t : List (Event postgres)) : Prop :=
  ∀ rest, Posts rest → (Posts (t ++ rest) ∧ MovesDirectly (t ++ rest) id) ∨ Exchanges (t ++ rest) id

theorem posts_append {t' : List (Event postgres)} (h : Posts t) (h' : Posts t') : Posts (t ++ t') := by
  intro e he
  rcases List.mem_append.mp he with he | he
  · exact h e he
  · exact h' e he

theorem Did.quiet {r : s.Res} {e : Event postgres} (h : Did s r e) (hs : s.Quiet) : e.stmt.Quiet := by
  rw [h.stmt]
  exact hs

theorem prepared_settlementLines {id : Uuid} {row : PaymentRow} {e : Event postgres} {built : BuildLinesResult}
    (he : Did (.selectPayment id) (some row) e) (h : Path (settlementLines row.toDomain) t (.ret built)) :
    Prepared id (e :: t) := by
  obtain ⟨d, c, e₁, e₂, tr, rfl, h₁, h₂, hcase⟩ := path_settlementLines h
  intro rest hrest
  have hread : HasRead (e :: e₁ :: e₂ :: tr ++ rest) id row d c := by
    refine ⟨⟨e, by simp, he⟩, ⟨e₁, by simp, h₁⟩, e₂, by simp, h₂⟩
  have hq : e.stmt.Quiet := he.quiet rfl
  have hq₁ : e₁.stmt.Quiet := h₁.quiet rfl
  have hq₂ : e₂.stmt.Quiet := h₂.quiet rfl
  rcases hcase with ⟨hcur, rfl, -⟩ | ⟨hcur, rate, amount, suspense, e₃, e₄, e₅, rfl, h₃, -, h₄, h₅, -⟩
  · refine .inl ⟨posts_append ?_ hrest, .inl ⟨row, d, c, hread, hcur⟩⟩
    intro e' he'
    simp only [List.mem_cons, List.not_mem_nil, or_false] at he'
    rcases he' with rfl | rfl | rfl
    · exact .inl hq
    · exact .inl hq₁
    · exact .inl hq₂
  · have hbooks : e₅.stmt.Books row.id := by
      rw [h₅.stmt]
      exact ⟨rate.id, amount, rfl⟩
    refine .inr ⟨row, d, c, hread, hcur, ⟨[e, e₁, e₂, e₃, e₄], e₅, rest, rfl, hbooks, e, by simp, he⟩, ?_⟩
    intro e' he'
    rcases List.mem_append.mp he' with he' | he'
    · simp only [List.mem_cons, List.not_mem_nil, or_false] at he'
      rcases he' with rfl | rfl | rfl | rfl | rfl | rfl
      · exact .inl hq
      · exact .inl hq₁
      · exact .inl hq₂
      · exact .inl (h₃.quiet rfl)
      · exact .inl (h₄.quiet rfl)
      · exact .inr (.inr hbooks)
    · rcases hrest e' he' with hquiet | hbumps
      · exact .inl hquiet
      · exact .inr (.inl hbumps)

theorem prepared_reversalLines {id : Uuid} {row : PaymentRow} {e : Event postgres} {built : BuildLinesResult}
    (he : Did (.selectPayment id) (some row) e) (hs : row.status = .settled)
    (h : Path (reversalLines row.toDomain) t (.ret built)) : Prepared id (e :: t) := by
  intro rest hrest
  refine .inl ⟨posts_append ?_ hrest, .inr ⟨row, hs, e, by simp, he⟩⟩
  intro e' he'
  rcases List.mem_cons.mp he' with rfl | he'
  · exact .inl (he.quiet rfl)
  · exact .inl (((quiet_reversalLines row.toDomain).path h).1 e' he')

theorem posts_of_quiet (h : ∀ e ∈ t, e.stmt.Quiet) : Posts t := fun e he => .inl (h e he)

theorem posts_of_bumps (h : ∀ e ∈ t, e.stmt.Bumps) : Posts t := fun e he => .inr (h e he)

theorem arrives_transitionWithLedgerEntryAttempt {id : Uuid} {toStatus : PaymentStatus}
    {buildLines : Payment → App BuildLinesResult}
    {k : s.Res → App (Option Payment)} (hsingle : ∀ p, OnlyButOne Stmt.Quiet (buildLines p))
    (hbuilt : ∀ {row e t built}, Did (.selectPayment id) (some row) e →
      assertTransitionAllowed row.status toStatus = .ok () →
      Path (buildLines row.toDomain) t (.ret built) → Prepared id (e :: t))
    (h : Path (transitionWithLedgerEntryAttempt rt id toStatus buildLines) tx (.exec s k)) : Arrives tx s := by
  rcases path_bind_exec h with ⟨k₁, hread⟩ | ⟨t₁, p, t₂, rfl, hread, q₁⟩
  · exact .quiet ((quiet_getPayment id).path hread).2.1
  obtain ⟨e, row, rfl, he, rfl⟩ := path_getPayment hread
  rcases path_bind_exec q₁ with ⟨k₁, hcheck⟩ | ⟨t₁, u, t₃, rfl, hcheck, q₂⟩
  · exact absurd hcheck path_ofExcept_exec
  obtain ⟨rfl, hallowed⟩ := path_ofExcept.mp hcheck
  rcases path_bind_exec q₂ with ⟨k₁, hlines⟩ | ⟨t₁, built, t₄, rfl, hlines, q₃⟩
  · rcases (hsingle row.toDomain).path hlines with hs | hquiet
    · exact .quiet hs
    · exact .first (List.forall_mem_cons.mpr ⟨he.quiet rfl, hquiet⟩)
  have hposting := hbuilt he hallowed hlines
  rcases path_bind_exec q₃ with ⟨k₁, hvalid⟩ | ⟨t₂, u, t₅, rfl, hvalid, q₄⟩
  · exact absurd hvalid path_ofExcept_exec
  obtain ⟨rfl, -⟩ := path_ofExcept.mp hvalid
  rcases path_bind_exec q₄ with ⟨k₁, hversions⟩ | ⟨t₂, versions, t₆, rfl, hversions, q₅⟩
  · exact .quiet ((quiet_getAccountVersions rt _).path hversions).2.1
  rcases path_bind_exec q₅ with ⟨k₁, hentry⟩ | ⟨t₃, entryId, t₇, rfl, hentry, q₆⟩
  · exact .quiet ((quiet_insertJournalEntry _).path hentry).2.1
  have hbefore : Posts (t₂ ++ t₃) :=
    posts_append (posts_of_quiet ((quiet_getAccountVersions rt _).path hversions).1)
    (posts_of_quiet ((quiet_insertJournalEntry _).path hentry).1)
  have htx (rest : List (Event postgres)) :
      [e] ++ ([] ++ (t₁ ++ ([] ++ (t₂ ++ (t₃ ++ rest))))) = e :: t₁ ++ (t₂ ++ t₃ ++ rest) := by simp
  rcases path_bind_exec q₆ with ⟨k₁, hbump⟩ | ⟨t₄, bumped, t₈, rfl, hbump, q₇⟩
  · obtain ⟨hbumps, ⟨accountId, v, rfl⟩, -⟩ := (bumps_bumpAccounts versions _).path hbump
    rw [htx]
    rcases hposting _ (posts_append hbefore (posts_of_bumps hbumps)) with ⟨hposts, -⟩ | hexchanges
    · exact .bump (.inl hposts)
    · exact .bump (.inr ⟨id, hexchanges⟩)
  have hbumps := ((bumps_bumpAccounts versions _).path hbump).1
  have hrest (moved : Bool) : Only Stmt.Quiet
      (if moved then
        recordStatusTransition id (some row.status) toStatus none >>= fun _ =>
          enqueuePaymentWebhookEvent id ("payment." ++ toStatus.value)
            (paymentResponseDict (row.toDomain.moved toStatus built.2.2)) >>= fun _ =>
            Prog.commitTx >>= fun _ => (return some (row.toDomain.moved toStatus built.2.2) : App (Option Payment))
      else Prog.rollbackTx >>= fun _ => return none) := by
    cases moved
    · trivial
    · apply (quiet_query rfl).bind
      intro _
      apply (quiet_enqueuePaymentWebhookEvent _ _ _).bind
      intro _
      trivial
  cases bumped with
  | false => exact .quiet ((hrest false).path q₇).2.1
  | true =>
    rcases path_bind_exec q₇ with ⟨k₁, hmove⟩ | ⟨t₅, moved, t₉, rfl, -, q₈⟩
    · obtain ⟨rfl, rfl⟩ := path_query_exec hmove
      rw [htx]
      exact .move (hposting _
        (posts_append hbefore (posts_append (posts_of_bumps hbumps) (posts_of_quiet (by simp)))))
    · exact .quiet ((hrest moved).path q₈).2.1

theorem arrives_postJournalEntryAttempt {entry : JournalEntry} {k : s.Res → App (Option Uuid)}
    (h : Path (postJournalEntryAttempt rt entry) tx (.exec s k)) : Arrives tx s := by
  rcases path_bind_exec h with ⟨k₁, hversions⟩ | ⟨t₁, versions, t₂, rfl, hversions, q₁⟩
  · exact .quiet ((quiet_getAccountVersions rt _).path hversions).2.1
  rcases path_bind_exec q₁ with ⟨k₁, hentry⟩ | ⟨t₃, entryId, t₄, rfl, hentry, q₂⟩
  · exact .quiet ((quiet_insertJournalEntry entry).path hentry).2.1
  have hbefore : Posts (t₁ ++ t₃) :=
    posts_append (posts_of_quiet ((quiet_getAccountVersions rt _).path hversions).1)
    (posts_of_quiet ((quiet_insertJournalEntry entry).path hentry).1)
  rcases path_bind_exec q₂ with ⟨k₁, hbump⟩ | ⟨t₅, bumped, t₆, rfl, -, q₃⟩
  · obtain ⟨hbumps, ⟨accountId, v, rfl⟩, -⟩ := (bumps_bumpAccounts versions _).path hbump
    rw [← List.append_assoc]
    exact .bump (.inl (posts_append hbefore (posts_of_bumps hbumps)))
  · cases bumped
    · exact absurd q₃ path_rollback_exec
    · exact absurd q₃ path_commit_exec

/-- Every open transaction arrives so when it comes to its next statement. -/
theorem Call.Next.arrives {call : Call} (h : call.Next rt tx s) : Arrives tx s := by
  cases call with
  | initiatePayment req =>
    obtain ⟨k, h⟩ := h
    exact (single_initiatePaymentBlock req).arrives h
  | initiatePaymentIdempotent key body req =>
    rcases h with ⟨k, h⟩ | ⟨k, h⟩
    · exact (single_claimBlock rt key body req).arrives h
    · exact (single_completeBlock key req).arrives h
  | authorisePayment id n =>
    obtain ⟨k, h⟩ := h
    exact (single_transitionStatusOnlyAttempt id .authorised none).arrives h
  | failPayment id reason n =>
    obtain ⟨k, h⟩ := h
    exact (single_transitionStatusOnlyAttempt id .failed reason).arrives h
  | settlePayment id n =>
    obtain ⟨k, h⟩ := h
    exact arrives_transitionWithLedgerEntryAttempt single_settlementLines
      (fun he _ hl => prepared_settlementLines he hl) h
  | reversePayment id n =>
    obtain ⟨k, h⟩ := h
    apply arrives_transitionWithLedgerEntryAttempt (fun p => (quiet_reversalLines p).butOne) _ h
    intro row e t built he hallowed hl
    refine prepared_reversalLines he ?_ hl
    cases hs : row.status <;> rw [hs] at hallowed <;> first | rfl | cases hallowed
  | postJournalEntry entry n =>
    obtain ⟨k, h⟩ := h
    exact arrives_postJournalEntryAttempt h
  | runReconciliation batchId records windowStart windowEnd =>
    obtain ⟨k, h⟩ := h
    exact .quiet ((quiet_runReconciliationBlock rt batchId records windowStart windowEnd).path h).2.1

end Posting

section Keys

/-- The statement may lock an idempotency key. -/
def Stmt.keying : Stmt → Bool
  | insertIdempotencyKey _ _ _ => true
  | updateIdempotencyKey _ _ _ _ => true
  | _ => false

def Stmt.Keyless (s : Stmt) : Prop := s.keying = false

theorem keyless_query {s : Stmt} (h : s.keying = false) : Only Stmt.Keyless (query s) := only_stmt (D := postgres) h

theorem keyless_assertDebtorCurrencyMatches (id : Uuid) (currency : String) :
    Only Stmt.Keyless (assertDebtorCurrencyMatches id currency) :=
  Queries.only (queries_assertDebtorCurrencyMatches rfl trivial fun _ => trivial)

theorem keyless_getPayment (id : Uuid) : Only Stmt.Keyless (getPayment id) :=
  Queries.only (queries_getPayment rfl trivial)

theorem keyless_ofExcept {ε α : Type} (f : ε → AppError) (x : Except ε α) :
    Only Stmt.Keyless (Prog.ofExcept f x : App α) :=
  Queries.only (queries_ofExcept (fun _ => trivial) x)

theorem keyless_getAccountVersions (rt : Runtime) (ids : List Uuid) :
    Only Stmt.Keyless (getAccountVersions rt ids) :=
  Queries.only (queries_getAccountVersions rfl fun _ => trivial)

theorem keyless_insertJournalEntry (entry : JournalEntry) : Only Stmt.Keyless (insertJournalEntry entry) :=
  Queries.only (queries_insertJournalEntry rfl fun _ _ => rfl)

theorem keyless_bumpAccounts (versions : List (Uuid × ℕ)) (ids : List Uuid) :
    Only Stmt.Keyless (bumpAccounts versions ids) :=
  Queries.only (queries_bumpAccounts (fun _ _ => rfl) (fun _ => trivial) ids)

theorem keyless_createPayment (debtor creditor : Uuid) (amount : Decimal) (currency : String)
    (ref : Option String) :
    Only Stmt.Keyless (createPayment debtor creditor amount currency ref) :=
  Queries.only (queries_createPayment rfl (fun _ => rfl) trivial)

theorem keyless_enqueuePaymentWebhookEvent (id : Uuid) (eventType : String) (payload : PyDict) :
    Only Stmt.Keyless (enqueuePaymentWebhookEvent id eventType payload) :=
  Queries.only (queries_enqueuePaymentWebhookEvent rfl fun _ => rfl)

/-- What follows the change of a payment: its history and its event. -/
theorem keyless_record {α : Type} (id : Uuid) (fromStatus : Option PaymentStatus) (toStatus : PaymentStatus)
    (reason : Option PyStr) (eventType : String) (payload : PyDict) {q : App α} (hq : Only Stmt.Keyless q) :
    Only Stmt.Keyless (recordStatusTransition id fromStatus toStatus reason >>= fun _ =>
      enqueuePaymentWebhookEvent id eventType payload >>= fun _ => q) := by
  apply (keyless_query rfl).bind
  intro _
  apply (keyless_enqueuePaymentWebhookEvent _ _ _).bind
  intro _
  exact hq

theorem keyless_createPaymentWithin (req : NewPayment) : Only Stmt.Keyless (createPaymentWithin req) := by
  apply (keyless_assertDebtorCurrencyMatches _ _).bind
  intro _
  apply (keyless_createPayment _ _ _ _ _).bind
  intro payment
  exact keyless_record _ _ _ _ _ _ trivial

theorem keyless_transitionStatusOnlyAttempt (id : Uuid) (toStatus : PaymentStatus) (reason : Option PyStr) :
    Only Stmt.Keyless (transitionStatusOnlyAttempt id toStatus reason) := by
  apply (keyless_getPayment id).bind
  intro payment
  apply (keyless_ofExcept _ _).bind
  intro _
  apply (keyless_query rfl).bind
  intro moved
  cases moved
  · trivial
  · exact keyless_record _ _ _ _ _ _ trivial

theorem keyless_transitionWithLedgerEntryAttempt (rt : Runtime) (id : Uuid) (toStatus : PaymentStatus)
    {buildLines : Payment → App BuildLinesResult} (h : ∀ p, Only Stmt.Keyless (buildLines p)) :
    Only Stmt.Keyless (transitionWithLedgerEntryAttempt rt id toStatus buildLines) := by
  apply (keyless_getPayment id).bind
  intro payment
  apply (keyless_ofExcept _ _).bind
  intro _
  apply (h payment).bind
  rintro ⟨entryType, lines, overrides⟩
  apply (keyless_ofExcept _ _).bind
  intro _
  apply (keyless_getAccountVersions rt _).bind
  intro versions
  apply (keyless_insertJournalEntry _).bind
  intro _
  apply (keyless_bumpAccounts versions _).bind
  intro bumped
  have hfinish (moved : Bool) : Only Stmt.Keyless
      (if moved then
        recordStatusTransition id (some payment.status) toStatus none >>= fun _ =>
          enqueuePaymentWebhookEvent id ("payment." ++ toStatus.value)
            (paymentResponseDict (payment.moved toStatus overrides)) >>= fun _ =>
            Prog.commitTx >>= fun _ => (return some (payment.moved toStatus overrides) : App (Option Payment))
      else Prog.rollbackTx >>= fun _ => return none) := by
    cases moved
    · trivial
    · exact keyless_record _ _ _ _ _ _ trivial
  cases bumped
  · exact hfinish false
  · apply (keyless_query rfl).bind
    exact hfinish

theorem keyless_postJournalEntryAttempt (rt : Runtime) (entry : JournalEntry) :
    Only Stmt.Keyless (postJournalEntryAttempt rt entry) := by
  apply (keyless_getAccountVersions rt _).bind
  intro versions
  apply (keyless_insertJournalEntry entry).bind
  intro entryId
  apply (keyless_bumpAccounts versions _).bind
  intro bumped
  cases bumped <;> trivial

theorem keyless_runReconciliationBlock (rt : Runtime) (batchId : Uuid) (records : List SettlementRecord)
    (windowStart windowEnd : ℕ) :
    Only Stmt.Keyless (runReconciliationBlock rt batchId records windowStart windowEnd) := by
  apply Only.bind (Queries.only (queries_loadSettlementRecords (fun _ => rfl) records))
  intro _
  apply (keyless_query rfl).bind
  intro settled
  apply (keyless_ofExcept _ _).bind
  intro result
  apply Only.bind (Queries.only (queries_recordRun (fun _ _ _ => rfl) fun _ _ => rfl))
  intro runId
  trivial

variable {tx : List (Event postgres)} {s : Stmt} {rt : Runtime}

/-- After the claim of a key there is nothing left to lock. -/
theorem claimBlock_keyed {key : String} {body : PyDict} {req : NewPayment} {k : s.Res → App IdempotencyOutcome}
    (h : Path (claimBlock rt key body req) tx (.exec s k)) (hkey : ¬∀ e ∈ tx, e.stmt.Keyless) :
    s.Quiet ∧ s.Keyless := by
  have hquiet : Only Stmt.Quiet (claimBlock rt key body req) := by
    apply (quiet_assertDebtorCurrencyMatches _ _).bind
    intro _
    apply Only.bind (Queries.only (Q := Stmt.Quiet) (queries_beginAttempt rfl rfl trivial))
    intro outcome
    trivial
  have hsingle : OnlyButOne Stmt.Keyless (claimBlock rt key body req) := by
    apply OnlyButOne.before (keyless_assertDebtorCurrencyMatches _ _)
    intro _
    have hbegin : OnlyButOne Stmt.Keyless (beginAttempt key idempotencyEndpointInitiatePayment
        (rt.hashRequestBody body)) := by
      apply (onlyButOne_stmt (D := postgres) _).bind
      intro inserted
      cases inserted
      · apply (keyless_query rfl).bind
        intro existing
        cases existing with
        | none => trivial
        | some row =>
          dsimp only
          split
          · trivial
          · split <;> trivial
      · trivial
    apply hbegin.bind
    intro outcome
    trivial
  refine ⟨(hquiet.path h).2.1, ?_⟩
  rcases hsingle.path h with hs | htx
  · exact hs
  · exact absurd htx hkey

/-- The completion of a key is the last statement of its transaction. -/
theorem completeBlock_keyless {key : String} {req : NewPayment} {k : s.Res → App (ℕ × PyDict)}
    (h : Path (completeBlock key req) tx (.exec s k)) : ∀ e ∈ tx, e.stmt.Keyless := by
  rcases path_bind_exec h with ⟨k₁, hcreate⟩ | ⟨t₁, payment, t₂, rfl, hcreate, q₁⟩
  · exact ((keyless_createPaymentWithin req).path hcreate).1
  have ht₁ := ((keyless_createPaymentWithin req).path hcreate).1
  rcases path_bind_exec q₁ with ⟨k₁, hcomplete⟩ | ⟨t₃, u, t₄, rfl, -, q₂⟩
  · obtain ⟨rfl, -⟩ := path_query_exec hcomplete
    rw [List.append_nil]
    exact ht₁
  · exact absurd q₂ path_commit_exec

/-- A transaction that has locked a key has nothing left to lock. -/
theorem Call.Next.keyed {call : Call} (h : call.Next rt tx s) (hkey : ¬∀ e ∈ tx, e.stmt.Keyless) :
    s.Quiet ∧ s.Keyless := by
  cases call with
  | initiatePayment req =>
    obtain ⟨k, h⟩ := h
    have hblock : Only Stmt.Keyless (initiatePaymentBlock req) := by
      apply (keyless_createPaymentWithin req).bind
      intro payment
      trivial
    exact absurd (hblock.path h).1 hkey
  | initiatePaymentIdempotent key body req =>
    rcases h with ⟨k, h⟩ | ⟨k, h⟩
    · exact claimBlock_keyed h hkey
    · exact absurd (completeBlock_keyless h) hkey
  | authorisePayment id n =>
    obtain ⟨k, h⟩ := h
    exact absurd ((keyless_transitionStatusOnlyAttempt id .authorised none).path h).1 hkey
  | failPayment id reason n =>
    obtain ⟨k, h⟩ := h
    exact absurd ((keyless_transitionStatusOnlyAttempt id .failed reason).path h).1 hkey
  | settlePayment id n =>
    obtain ⟨k, h⟩ := h
    have hlines (p : Payment) : Only Stmt.Keyless (settlementLines p) :=
      Queries.only (queries_settlementLines (fun _ => rfl) (fun _ _ => rfl) (fun _ => rfl) (fun _ _ _ => rfl)
        (fun _ => trivial) (fun _ _ => trivial) fun _ => trivial)
    exact absurd ((keyless_transitionWithLedgerEntryAttempt rt id .settled hlines).path h).1 hkey
  | reversePayment id n =>
    obtain ⟨k, h⟩ := h
    have hlines (p : Payment) : Only Stmt.Keyless (reversalLines p) :=
      Queries.only (queries_reversalLines (fun _ => rfl) (fun _ => rfl) fun _ => trivial)
    exact absurd ((keyless_transitionWithLedgerEntryAttempt rt id .reversed hlines).path h).1 hkey
  | postJournalEntry entry n =>
    obtain ⟨k, h⟩ := h
    exact absurd ((keyless_postJournalEntryAttempt rt entry).path h).1 hkey
  | runReconciliation batchId records windowStart windowEnd =>
    obtain ⟨k, h⟩ := h
    exact absurd ((keyless_runReconciliationBlock rt batchId records windowStart windowEnd).path h).1 hkey

end Keys
end PaymentLedger
