import PaymentLedger.Db.Statements

namespace PaymentLedger

theorem references_ok {b : Bool} {u : Unit} : references b = .ok u ↔ b = true := by
  cases b <;> simp [references]

theorem ok_iff {α : Type} {a r : α} {w ws : List Write} :
    (Except.ok (a, w) : Except DbError (α × List Write)) = .ok (r, ws) ↔ r = a ∧ ws = w := by
  constructor
  · intro h
    cases h
    exact ⟨rfl, rfl⟩
  · intro h
    obtain ⟨rfl, rfl⟩ := h
    rfl

theorem some_ok_iff {α : Type} {a r : α} {w ws : List Write} :
    (some (Except.ok (a, w)) : Option (Except DbError (α × List Write))) = some (.ok (r, ws)) ↔
      r = a ∧ ws = w := by
  rw [Option.some.injEq, ok_iff]

section Rows

theorem JournalEntryRow.new_ok {id : Uuid} {entryType : String} {paymentId keyId : Option Uuid}
    {row : JournalEntryRow} : JournalEntryRow.new id entryType paymentId keyId = .ok row ↔
      ∃ t, varchar 30 entryType = .ok t ∧ row = ⟨id, paymentId, t, keyId⟩ := by
  simp only [JournalEntryRow.new, except_bind_ok, except_pure_ok]

theorem JournalLineRow.new_ok {entryId : Uuid} {line : JournalLine} {row : JournalLineRow} :
    JournalLineRow.new entryId line = .ok row ↔ ∃ a, Amount.ofDecimal line.amount = .ok a ∧
      ∃ cur, varchar 3 line.currency = .ok cur ∧ row = ⟨entryId, line.accountId, line.direction, a, cur⟩ := by
  simp only [JournalLineRow.new, Amount.ofDecimal_bind, except_bind_ok, except_pure_ok]
  constructor
  · rintro ⟨n, hn, cur, hcur, a, ha, rfl⟩
    exact ⟨a, ⟨n, hn, ha⟩, cur, hcur, rfl⟩
  · rintro ⟨a, ⟨n, hn, ha⟩, cur, hcur, rfl⟩
    exact ⟨n, hn, cur, hcur, a, ha, rfl⟩

theorem PaymentRow.new_ok {id debtor creditor : Uuid} {amount : Decimal} {currency : String}
    {endToEndId : Option String} {row : PaymentRow} :
    PaymentRow.new id debtor creditor amount currency endToEndId = .ok row ↔
      ∃ a, Amount.ofDecimal amount = .ok a ∧ ∃ cur, varchar 3 currency = .ok cur ∧
        ∃ ref, nullable (varchar 35) endToEndId = .ok ref ∧
          row = ⟨id, debtor, creditor, a, cur, none, none, .initiated, ref, 0⟩ := by
  simp only [PaymentRow.new, Amount.ofDecimal_bind, except_bind_ok, except_pure_ok]
  constructor
  · rintro ⟨n, hn, cur, hcur, ref, href, a, ha, rfl⟩
    exact ⟨a, ⟨n, hn, ha⟩, cur, hcur, ref, href, rfl⟩
  · rintro ⟨a, ⟨n, hn, ha⟩, cur, hcur, ref, href, rfl⟩
    exact ⟨n, hn, cur, hcur, ref, href, a, ha, rfl⟩

theorem StatusHistoryRow.new_ok {id : Uuid} {fromStatus : Option PaymentStatus} {toStatus : PaymentStatus}
    {now : ℕ} {reason : Option PyStr} {row : StatusHistoryRow} :
    StatusHistoryRow.new id fromStatus toStatus now reason = .ok row ↔
      ∃ r, nullable pyText reason = .ok r ∧ row = ⟨id, fromStatus, toStatus, now, r⟩ := by
  simp only [StatusHistoryRow.new, except_bind_ok, except_pure_ok]

theorem IdempotencyKeyRow.new_ok {id : Uuid} {key endpoint hash : String} {row : IdempotencyKeyRow} :
    IdempotencyKeyRow.new id key endpoint hash = .ok row ↔ ∃ k, varchar 255 key = .ok k ∧
      ∃ e, varchar 100 endpoint = .ok e ∧ ∃ h, varchar 64 hash = .ok h ∧
        row = ⟨id, k, e, h, .inProgress, none, none⟩ := by
  simp only [IdempotencyKeyRow.new, except_bind_ok, except_pure_ok]

theorem WebhookDeliveryRow.new_ok {id subscriptionId : Uuid} {paymentId : Option Uuid} {eventType : String}
    {payload : PyDict} {now : ℕ} {row : WebhookDeliveryRow} :
    WebhookDeliveryRow.new id subscriptionId paymentId eventType payload now = .ok row ↔
      ∃ t, varchar 50 eventType = .ok t ∧
        row = ⟨id, subscriptionId, paymentId, t, payload.json, .pending, 0, now, none⟩ := by
  simp only [WebhookDeliveryRow.new, except_bind_ok, except_pure_ok]

end Rows

section Eval

variable {st : Store} {now : ℕ} {c : Choice} {ws : List Write}

theorem eval_selectAccount {id : Uuid} {r : Option Account} :
    Stmt.eval st now c (.selectAccount id) = some (.ok (r, ws)) ↔ r = st.accounts.find id ∧ ws = [] := by
  exact some_ok_iff

theorem eval_selectAccountByNumber {number : String} {r : Option Account} :
    Stmt.eval st now c (.selectAccountByNumber number) = some (.ok (r, ws)) ↔
      r = st.accounts.rows.find? (fun a => decide (a.accountNumber = number)) ∧ ws = [] := by
  exact some_ok_iff

theorem eval_selectAccountVersions {ids : List Uuid} {r : List (Uuid × ℕ)} :
    Stmt.eval st now c (.selectAccountVersions ids) = some (.ok (r, ws)) ↔
      r = st.accountVersions ids ∧ ws = [] := by
  exact some_ok_iff

theorem eval_updateAccountVersion {id : Uuid} {v : ℕ} {r : Bool} :
    Stmt.eval st now c (.updateAccountVersion id v) = some (.ok (r, ws)) ↔
      (r = true ∧ ws = [.bumpAccount id] ∧ ∃ a, st.accounts.find id = some a ∧ a.version = v) ∨
      (r = false ∧ ws = [] ∧ ∀ a, st.accounts.find id = some a → a.version ≠ v) := by
  cases ha : st.accounts.find id with
  | none =>
    have he : Stmt.eval st now c (.updateAccountVersion id v) = some (.ok (false, [])) := by
      simp only [Stmt.eval, ha]
    rw [he, some_ok_iff]
    simp
  | some a =>
    by_cases hv : a.version = v
    · have he : Stmt.eval st now c (.updateAccountVersion id v) = some (.ok (true, [.bumpAccount id])) := by
        simp only [Stmt.eval, ha, hv, if_true]
      rw [he, some_ok_iff]
      simp [hv]
    · have he : Stmt.eval st now c (.updateAccountVersion id v) = some (.ok (false, [])) := by
        simp only [Stmt.eval, ha, hv, if_false]
      rw [he, some_ok_iff]
      simp [hv]

theorem eval_insertEntry {entryType : String} {paymentId keyId : Option Uuid} {r : Uuid} :
    Stmt.eval st now c (.insertEntry entryType paymentId keyId) = some (.ok (r, ws)) ↔
      r = c.id ∧ st.hasEntry c.id = false ∧ paymentId.all st.hasPayment = true ∧
        keyId.all st.hasKeyId = true ∧
        ∃ row, JournalEntryRow.new c.id entryType paymentId keyId = .ok row ∧ ws = [.insertEntry row] := by
  cases hf : st.hasEntry c.id with
  | true => simp [Stmt.eval, hf]
  | false =>
    simp only [Stmt.eval, hf, Bool.false_eq_true, if_false, Option.some.injEq, except_bind_ok, references_ok]
    constructor
    · intro h
      obtain ⟨row, hrow, _, hp, _, hk, he⟩ := h
      cases he
      exact ⟨rfl, trivial, hp, hk, row, hrow, rfl⟩
    · intro h
      obtain ⟨rfl, _, hp, hk, row, hrow, rfl⟩ := h
      exact ⟨row, hrow, (), hp, (), hk, rfl⟩

theorem eval_insertLine {entryId : Uuid} {line : JournalLine} {r : Unit} :
    Stmt.eval st now c (.insertLine entryId line) = some (.ok (r, ws)) ↔
      st.hasEntry entryId = true ∧ st.hasAccount line.accountId = true ∧
        ∃ row, JournalLineRow.new entryId line = .ok row ∧ ws = [.insertLine row] := by
  simp only [Stmt.eval, Option.some.injEq, except_bind_ok, references_ok]
  constructor
  · intro h
    obtain ⟨row, hrow, _, he, _, ha, h⟩ := h
    cases h
    exact ⟨he, ha, row, hrow, rfl⟩
  · intro h
    obtain ⟨he, ha, row, hrow, rfl⟩ := h
    exact ⟨row, hrow, (), he, (), ha, rfl⟩

theorem eval_insertPayment {debtor creditor : Uuid} {amount : Decimal} {currency : String}
    {endToEndId : Option String} {r : Uuid} :
    Stmt.eval st now c (.insertPayment debtor creditor amount currency endToEndId) = some (.ok (r, ws)) ↔
      r = c.id ∧ st.hasPayment c.id = false ∧ st.hasAccount debtor = true ∧ st.hasAccount creditor = true ∧
        ∃ row, PaymentRow.new c.id debtor creditor amount currency endToEndId = .ok row ∧
          ws = [.insertPayment row] := by
  cases hf : st.hasPayment c.id with
  | true => simp [Stmt.eval, hf]
  | false =>
    simp only [Stmt.eval, hf, Bool.false_eq_true, if_false, Option.some.injEq, except_bind_ok, references_ok]
    constructor
    · intro h
      obtain ⟨row, hrow, _, hd, _, hc, he⟩ := h
      cases he
      exact ⟨rfl, trivial, hd, hc, row, hrow, rfl⟩
    · intro h
      obtain ⟨rfl, _, hd, hc, row, hrow, rfl⟩ := h
      exact ⟨row, hrow, (), hd, (), hc, rfl⟩

theorem eval_selectPayment {id : Uuid} {r : Option PaymentRow} :
    Stmt.eval st now c (.selectPayment id) = some (.ok (r, ws)) ↔ r = st.payments.find id ∧ ws = [] := by
  exact some_ok_iff

theorem eval_updatePaymentStatus {id : Uuid} {v : ℕ} {s : PaymentStatus} {r : Bool} :
    Stmt.eval st now c (.updatePaymentStatus id v s) = some (.ok (r, ws)) ↔
      (r = true ∧ ws = [.setStatus id s] ∧ ∃ row, st.payments.find id = some row ∧ row.version = v) ∨
      (r = false ∧ ws = [] ∧ ∀ row, st.payments.find id = some row → row.version ≠ v) := by
  cases ha : st.payments.find id with
  | none =>
    have he : Stmt.eval st now c (.updatePaymentStatus id v s) = some (.ok (false, [])) := by
      simp only [Stmt.eval, ha]
    rw [he, some_ok_iff]
    simp
  | some row =>
    by_cases hv : row.version = v
    · have he : Stmt.eval st now c (.updatePaymentStatus id v s) = some (.ok (true, [.setStatus id s])) := by
        simp only [Stmt.eval, ha, hv, if_true]
      rw [he, some_ok_iff]
      simp [hv]
    · have he : Stmt.eval st now c (.updatePaymentStatus id v s) = some (.ok (false, [])) := by
        simp only [Stmt.eval, ha, hv, if_false]
      rw [he, some_ok_iff]
      simp [hv]

theorem eval_updateFxDetails {id rateId : Uuid} {amount : Decimal} {r : Unit} :
    Stmt.eval st now c (.updateFxDetails id rateId amount) = some (.ok (r, ws)) ↔
      ∃ n, Numeric.ofDecimal 2 amount = .ok n ∧
        ((st.hasPayment id = true ∧ st.hasRate rateId = true ∧ ws = [.setFxDetails id rateId n]) ∨
          (st.hasPayment id = false ∧ ws = [])) := by
  simp only [Stmt.eval, Option.some.injEq, except_bind_ok]
  apply exists_congr
  intro n
  apply and_congr_right
  intro _
  cases hp : st.payments.find id with
  | none =>
    simp only [Store.hasPayment, hp, pure, Except.pure, ok_iff]
    simp
  | some row =>
    simp only [Store.hasPayment, hp, except_bind_ok, references_ok, pure, Except.pure, ok_iff]
    simp

theorem eval_insertHistory {id : Uuid} {fromStatus : Option PaymentStatus} {toStatus : PaymentStatus}
    {reason : Option PyStr} {r : Unit} :
    Stmt.eval st now c (.insertHistory id fromStatus toStatus reason) = some (.ok (r, ws)) ↔
      st.hasPayment id = true ∧
        ∃ row, StatusHistoryRow.new id fromStatus toStatus now reason = .ok row ∧ ws = [.insertHistory row] := by
  simp only [Stmt.eval, Option.some.injEq, except_bind_ok, references_ok]
  constructor
  · intro h
    obtain ⟨row, hrow, _, hp, h⟩ := h
    cases h
    exact ⟨hp, row, hrow, rfl⟩
  · intro h
    obtain ⟨hp, row, hrow, rfl⟩ := h
    exact ⟨row, hrow, (), hp, rfl⟩

theorem eval_insertIdempotencyKey {key endpoint hash : String} {r : Bool} :
    Stmt.eval st now c (.insertIdempotencyKey key endpoint hash) = some (.ok (r, ws)) ↔
      st.hasKeyId c.id = false ∧ ∃ row, IdempotencyKeyRow.new c.id key endpoint hash = .ok row ∧
        ((r = true ∧ st.idempotencyKeys.find (row.endpoint, row.key) = none ∧ ws = [.insertKey row]) ∨
          (r = false ∧ (st.idempotencyKeys.find (row.endpoint, row.key)).isSome ∧ ws = [])) := by
  cases hf : st.hasKeyId c.id with
  | true => simp [Stmt.eval, hf]
  | false =>
    simp only [Stmt.eval, hf, Bool.false_eq_true, if_false, Option.some.injEq, except_bind_ok, true_and]
    apply exists_congr
    intro row
    apply and_congr_right
    intro _
    cases hk : st.idempotencyKeys.find (row.endpoint, row.key) with
    | none =>
      simp only [pure, Except.pure, ok_iff]
      simp
    | some existing =>
      simp only [pure, Except.pure, ok_iff]
      simp

theorem eval_selectIdempotencyKey {key endpoint : String} {r : Option IdempotencyKeyRow} :
    Stmt.eval st now c (.selectIdempotencyKey key endpoint) = some (.ok (r, ws)) ↔
      r = st.idempotencyKeys.find (endpoint, key) ∧ ws = [] := by
  exact some_ok_iff

theorem eval_updateIdempotencyKey {key endpoint : String} {code : ℕ} {body : PyDict} {r : Unit} :
    Stmt.eval st now c (.updateIdempotencyKey key endpoint code body) = some (.ok (r, ws)) ↔
      ((st.idempotencyKeys.find (endpoint, key)).isSome ∧ ws = [.completeKey endpoint key code body.json]) ∨
      (st.idempotencyKeys.find (endpoint, key) = none ∧ ws = []) := by
  cases hk : st.idempotencyKeys.find (endpoint, key) with
  | none =>
    simp only [Stmt.eval, hk, some_ok_iff]
    simp
  | some existing =>
    simp only [Stmt.eval, hk, some_ok_iff]
    simp

theorem eval_selectActiveSubscriptions {r : List WebhookSubscription} :
    Stmt.eval st now c .selectActiveSubscriptions = some (.ok (r, ws)) ↔
      r = c.subscriptions ∧ r.Perm st.activeSubscriptions ∧ ws = [] := by
  by_cases hp : c.subscriptions.Perm st.activeSubscriptions
  · simp only [Stmt.eval, hp, if_true, Option.some.injEq, Except.ok.injEq, Prod.mk.injEq]
    constructor
    · intro h
      obtain ⟨rfl, rfl⟩ := h
      exact ⟨rfl, hp, rfl⟩
    · intro h
      obtain ⟨rfl, _, rfl⟩ := h
      exact ⟨rfl, rfl⟩
  · simp only [Stmt.eval, hp, if_false]
    constructor
    · intro h
      cases h
    · intro h
      obtain ⟨rfl, h, _⟩ := h
      exact absurd h hp

theorem eval_insertDelivery {subscriptionId : Uuid} {paymentId : Option Uuid} {eventType : String}
    {payload : PyDict} {r : Uuid} :
    Stmt.eval st now c (.insertDelivery subscriptionId paymentId eventType payload) = some (.ok (r, ws)) ↔
      r = c.id ∧ st.hasDelivery c.id = false ∧ st.hasSubscription subscriptionId = true ∧
        paymentId.all st.hasPayment = true ∧
        ∃ row, WebhookDeliveryRow.new c.id subscriptionId paymentId eventType payload now = .ok row ∧
          ws = [.insertDelivery row] := by
  cases hf : st.hasDelivery c.id with
  | true => simp [Stmt.eval, hf]
  | false =>
    simp only [Stmt.eval, hf, Bool.false_eq_true, if_false, Option.some.injEq, except_bind_ok, references_ok]
    constructor
    · intro h
      obtain ⟨row, hrow, _, hs, _, hp, he⟩ := h
      cases he
      exact ⟨rfl, trivial, hs, hp, row, hrow, rfl⟩
    · intro h
      obtain ⟨rfl, _, hs, hp, row, hrow, rfl⟩ := h
      exact ⟨row, hrow, (), hs, (), hp, rfl⟩

theorem eval_selectLatestRate {base quote : String} {r : Option FxRateRow} :
    Stmt.eval st now c (.selectLatestRate base quote) = some (.ok (r, ws)) ↔ r = c.rate ∧ ws = [] ∧
      ((∃ row, r = some row ∧ row ∈ st.rates base quote ∧
          ∀ row' ∈ st.rates base quote, row'.bookedAt ≤ row.bookedAt) ∨
        (r = none ∧ st.rates base quote = [])) := by
  cases hr : c.rate with
  | none =>
    by_cases h : st.rates base quote = []
    · simp only [Stmt.eval, hr, h, if_true, some_ok_iff]
      constructor
      · intro h'
        exact ⟨h'.1, h'.2, .inr ⟨h'.1, trivial⟩⟩
      · intro h'
        exact ⟨h'.1, h'.2.1⟩
    · simp only [Stmt.eval, hr, h, if_false]
      constructor
      · intro h'
        cases h'
      · intro h'
        obtain ⟨rfl, _, ⟨_, h', _⟩ | ⟨_, h'⟩⟩ := h'
        · cases h'
        · exact h'.elim
  | some row =>
    simp only [Stmt.eval, hr]
    split
    · rename_i h
      rw [some_ok_iff]
      constructor
      · intro h'
        exact ⟨h'.1, h'.2, .inl ⟨row, h'.1, h⟩⟩
      · intro h'
        exact ⟨h'.1, h'.2.1⟩
    · rename_i h
      constructor
      · intro h'
        cases h'
      · intro h'
        obtain ⟨rfl, _, ⟨row', h₁, h₂⟩ | ⟨h', _⟩⟩ := h'
        · cases h₁
          exact absurd h₂ h
        · cases h'

theorem eval_insertRecord {batchId : Uuid} {record : SettlementRecord} {r : Unit} :
    Stmt.eval st now c (.insertRecord batchId record) = some (.ok (r, ws)) ↔
      ∃ row, SettlementFileRecordRow.new batchId record = .ok row ∧ ws = [.insertRecord row] := by
  simp only [Stmt.eval, Option.some.injEq, except_bind_ok]
  apply exists_congr
  intro row
  apply and_congr_right
  intro _
  simp only [pure, Except.pure, ok_iff]
  simp

theorem eval_selectSettled {windowStart windowEnd : ℕ} {r : List LedgerSettledPayment} :
    Stmt.eval st now c (.selectSettled windowStart windowEnd) = some (.ok (r, ws)) ↔
      r = c.settled ∧ r.Perm (st.settledIn windowStart windowEnd) ∧ ws = [] := by
  by_cases hp : c.settled.Perm (st.settledIn windowStart windowEnd)
  · simp only [Stmt.eval, hp, if_true, Option.some.injEq, Except.ok.injEq, Prod.mk.injEq]
    constructor
    · intro h
      obtain ⟨rfl, rfl⟩ := h
      exact ⟨rfl, hp, rfl⟩
    · intro h
      obtain ⟨rfl, _, rfl⟩ := h
      exact ⟨rfl, rfl⟩
  · simp only [Stmt.eval, hp, if_false]
    constructor
    · intro h
      cases h
    · intro h
      obtain ⟨rfl, h, _⟩ := h
      exact absurd h hp

theorem eval_insertRun {batchId : Uuid} {matched broken : ℕ} {status : String} {r : Uuid} :
    Stmt.eval st now c (.insertRun batchId matched broken status) = some (.ok (r, ws)) ↔
      r = c.id ∧ st.hasRun c.id = false ∧
        ∃ row, ReconciliationRunRow.new c.id batchId matched broken status = .ok row ∧ ws = [.insertRun row] := by
  cases hf : st.hasRun c.id with
  | true => simp [Stmt.eval, hf]
  | false =>
    simp only [Stmt.eval, hf, Bool.false_eq_true, if_false, Option.some.injEq, except_bind_ok]
    constructor
    · intro h
      obtain ⟨row, hrow, he⟩ := h
      cases he
      exact ⟨rfl, trivial, row, hrow, rfl⟩
    · intro h
      obtain ⟨rfl, _, row, hrow, rfl⟩ := h
      exact ⟨row, hrow, rfl⟩

theorem eval_insertBreak {runId : Uuid} {b : ReconciliationBreak} {r : Unit} :
    Stmt.eval st now c (.insertBreak runId b) = some (.ok (r, ws)) ↔
      st.hasRun runId = true ∧ b.paymentId.all st.hasPayment = true ∧
        ∃ row, ReconciliationBreakRow.new runId b = .ok row ∧ ws = [.insertBreak row] := by
  simp only [Stmt.eval, Option.some.injEq, except_bind_ok, references_ok]
  constructor
  · intro h
    obtain ⟨row, hrow, _, he, _, ha, h⟩ := h
    cases h
    exact ⟨he, ha, row, hrow, rfl⟩
  · intro h
    obtain ⟨he, ha, row, hrow, rfl⟩ := h
    exact ⟨row, hrow, (), he, (), ha, rfl⟩

/-- The writes that a statement can make. -/
def Stmt.Writes : Stmt → Write → Prop
  | updateAccountVersion id _, w => w = .bumpAccount id
  | insertEntry _ paymentId _, w => ∃ row, w = .insertEntry row ∧ row.paymentId = paymentId
  | insertLine entryId _, w => ∃ row, w = .insertLine row ∧ row.journalEntryId = entryId
  | insertPayment _ _ _ _ _, w => ∃ row, w = .insertPayment row
  | updatePaymentStatus id _ status, w => w = .setStatus id status
  | updateFxDetails id rateId _, w => ∃ n, w = .setFxDetails id rateId n
  | insertHistory id _ _ _, w => ∃ row, w = .insertHistory row ∧ row.paymentId = id
  | insertIdempotencyKey _ _ _, w => ∃ row, w = .insertKey row
  | updateIdempotencyKey key endpoint code body, w => w = .completeKey endpoint key code body.json
  | insertDelivery _ _ _ _, w => ∃ row, w = .insertDelivery row
  | insertRecord _ _, w => ∃ row, w = .insertRecord row
  | insertRun _ _ _ _, w => ∃ row, w = .insertRun row
  | insertBreak _ _, w => ∃ row, w = .insertBreak row
  | _, _ => False

theorem eval_writes {s : Stmt} {r : s.Res} (h : Stmt.eval st now c s = some (.ok (r, ws))) :
    ∀ w ∈ ws, s.Writes w := by
  have single {w₀ : Write} (hw₀ : s.Writes w₀) : ∀ w ∈ [w₀], s.Writes w := by
    intro w hw
    rw [List.mem_singleton.mp hw]
    exact hw₀
  have none : ∀ w ∈ ([] : List Write), s.Writes w := by
    intro w hw
    simp at hw
  cases s with
  | selectAccount id =>
    obtain ⟨-, rfl⟩ := eval_selectAccount.mp h
    exact none
  | selectAccountByNumber number =>
    obtain ⟨-, rfl⟩ := eval_selectAccountByNumber.mp h
    exact none
  | selectAccountVersions ids =>
    obtain ⟨-, rfl⟩ := eval_selectAccountVersions.mp h
    exact none
  | updateAccountVersion id v =>
    rcases eval_updateAccountVersion.mp h with ⟨-, rfl, -⟩ | ⟨-, rfl, -⟩
    · exact single rfl
    · exact none
  | insertEntry entryType paymentId keyId =>
    obtain ⟨-, -, -, -, row, hrow, rfl⟩ := eval_insertEntry.mp h
    obtain ⟨t, -, rfl⟩ := JournalEntryRow.new_ok.mp hrow
    exact single ⟨_, rfl, rfl⟩
  | insertLine entryId line =>
    obtain ⟨-, -, row, hrow, rfl⟩ := eval_insertLine.mp h
    obtain ⟨a, -, cur, -, rfl⟩ := JournalLineRow.new_ok.mp hrow
    exact single ⟨_, rfl, rfl⟩
  | insertPayment debtor creditor amount currency endToEndId =>
    obtain ⟨-, -, -, -, row, -, rfl⟩ := eval_insertPayment.mp h
    exact single ⟨row, rfl⟩
  | selectPayment id =>
    obtain ⟨-, rfl⟩ := eval_selectPayment.mp h
    exact none
  | updatePaymentStatus id v status =>
    rcases eval_updatePaymentStatus.mp h with ⟨-, rfl, -⟩ | ⟨-, rfl, -⟩
    · exact single rfl
    · exact none
  | updateFxDetails id rateId amount =>
    obtain ⟨n, -, ⟨-, -, rfl⟩ | ⟨-, rfl⟩⟩ := eval_updateFxDetails.mp h
    · exact single ⟨n, rfl⟩
    · exact none
  | insertHistory id fromStatus toStatus reason =>
    obtain ⟨-, row, hrow, rfl⟩ := eval_insertHistory.mp h
    obtain ⟨t, -, rfl⟩ := StatusHistoryRow.new_ok.mp hrow
    exact single ⟨_, rfl, rfl⟩
  | insertIdempotencyKey key endpoint hash =>
    obtain ⟨-, row, -, ⟨-, -, rfl⟩ | ⟨-, -, rfl⟩⟩ := eval_insertIdempotencyKey.mp h
    · exact single ⟨row, rfl⟩
    · exact none
  | selectIdempotencyKey key endpoint =>
    obtain ⟨-, rfl⟩ := eval_selectIdempotencyKey.mp h
    exact none
  | updateIdempotencyKey key endpoint code body =>
    rcases eval_updateIdempotencyKey.mp h with ⟨-, rfl⟩ | ⟨-, rfl⟩
    · exact single rfl
    · exact none
  | selectActiveSubscriptions =>
    obtain ⟨-, -, rfl⟩ := eval_selectActiveSubscriptions.mp h
    exact none
  | insertDelivery subscriptionId paymentId eventType payload =>
    obtain ⟨-, -, -, -, row, -, rfl⟩ := eval_insertDelivery.mp h
    exact single ⟨row, rfl⟩
  | selectLatestRate base quote =>
    obtain ⟨-, rfl, -⟩ := eval_selectLatestRate.mp h
    exact none
  | insertRecord batchId record =>
    obtain ⟨row, -, rfl⟩ := eval_insertRecord.mp h
    exact single ⟨row, rfl⟩
  | selectSettled windowStart windowEnd =>
    obtain ⟨-, -, rfl⟩ := eval_selectSettled.mp h
    exact none
  | insertRun batchId matched broken status =>
    obtain ⟨-, -, row, -, rfl⟩ := eval_insertRun.mp h
    exact single ⟨row, rfl⟩
  | insertBreak runId b =>
    obtain ⟨-, -, row, -, rfl⟩ := eval_insertBreak.mp h
    exact single ⟨row, rfl⟩

end Eval
end PaymentLedger
