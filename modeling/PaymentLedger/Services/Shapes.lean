import PaymentLedger.Services.Contracts

namespace PaymentLedger

section Methods

variable {t : List (Event postgres)}

theorem path_getAccount {id : Uuid} {a : Account} (h : Path (getAccount id) t (.ret a)) :
    ∃ e, t = [e] ∧ Did (.selectAccount id) (some a) e := by
  obtain ⟨t₁, r, t₂, rfl, q₁, k₁⟩ := path_bind_ret.mp h
  obtain ⟨e, rfl, he⟩ := path_query.mp q₁
  cases r with
  | none => exact absurd k₁ path_raise_ret
  | some a' =>
    obtain ⟨rfl, rfl⟩ := path_ret.mp k₁
    exact ⟨e, rfl, he⟩

theorem path_getAccountByNumber {number : String} {a : Account}
    (h : Path (getAccountByNumber number) t (.ret a)) :
    ∃ e, t = [e] ∧ Did (.selectAccountByNumber number) (some a) e := by
  obtain ⟨t₁, r, t₂, rfl, q₁, k₁⟩ := path_bind_ret.mp h
  obtain ⟨e, rfl, he⟩ := path_query.mp q₁
  cases r with
  | none => exact absurd k₁ path_raise_ret
  | some a' =>
    obtain ⟨rfl, rfl⟩ := path_ret.mp k₁
    exact ⟨e, rfl, he⟩

theorem path_getLatestRate {base quote : String} {r : FxRate} (h : Path (getLatestRate base quote) t (.ret r)) :
    ∃ e row, t = [e] ∧ Did (.selectLatestRate base quote) (some row) e ∧ r = row.toDomain := by
  obtain ⟨t₁, r', t₂, rfl, q₁, k₁⟩ := path_bind_ret.mp h
  obtain ⟨e, rfl, he⟩ := path_query.mp q₁
  cases r' with
  | none => exact absurd k₁ path_raise_ret
  | some row =>
    obtain ⟨rfl, rfl⟩ := path_ret.mp k₁
    exact ⟨e, row, rfl, he, rfl⟩

theorem path_getPayment {id : Uuid} {p : Payment} (h : Path (getPayment id) t (.ret p)) :
    ∃ e row, t = [e] ∧ Did (.selectPayment id) (some row) e ∧ p = row.toDomain := by
  obtain ⟨t₁, r, t₂, rfl, q₁, k₁⟩ := path_bind_ret.mp h
  obtain ⟨e, rfl, he⟩ := path_query.mp q₁
  cases r with
  | none => exact absurd k₁ path_raise_ret
  | some row =>
    obtain ⟨rfl, rfl⟩ := path_ret.mp k₁
    exact ⟨e, row, rfl, he, rfl⟩

theorem path_createPayment {d c : Uuid} {amount : Decimal} {currency : String} {endToEndId : Option String}
    {p : Payment} (h : Path (createPayment d c amount currency endToEndId) t (.ret p)) :
    ∃ e₁ e₂ id row, t = [e₁, e₂] ∧ Did (.insertPayment d c amount currency endToEndId) id e₁ ∧
      Did (.selectPayment id) (some row) e₂ ∧ p = row.toDomain := by
  obtain ⟨t₁, id, t₂, rfl, q₁, k₁⟩ := path_bind_ret.mp h
  obtain ⟨e₁, rfl, he₁⟩ := path_query.mp q₁
  obtain ⟨t₁, r, t₃, rfl, q₂, k₂⟩ := path_bind_ret.mp k₁
  obtain ⟨e₂, rfl, he₂⟩ := path_query.mp q₂
  cases r with
  | none => exact absurd k₂ path_raise_ret
  | some row =>
    obtain ⟨rfl, rfl⟩ := path_ret.mp k₂
    exact ⟨e₁, e₂, id, row, rfl, he₁, he₂, rfl⟩

theorem path_getAccountVersions {rt : Runtime} {ids : List Uuid} {versions : List (Uuid × ℕ)}
    (h : Path (getAccountVersions rt ids) t (.ret versions)) :
    ∃ e, t = [e] ∧ Did (.selectAccountVersions ids) versions e ∧
      ∀ id ∈ ids, (versions.lookup id).isSome := by
  obtain ⟨t₁, r, t₂, rfl, q₁, k₁⟩ := path_bind_ret.mp h
  obtain ⟨e, rfl, he⟩ := path_query.mp q₁
  cases hm : rt.order.iter (ids.filter fun a => (List.lookup a r).isNone) with
  | nil =>
    simp only [hm] at k₁
    obtain ⟨rfl, rfl⟩ := path_ret.mp k₁
    refine ⟨e, rfl, he, ?_⟩
    intro id hid
    by_contra hn
    have hnone : (List.lookup id r).isNone = true :=
      Option.isNone_iff_eq_none.mpr (Option.not_isSome_iff_eq_none.mp hn)
    have hmem : id ∈ ids.filter fun a => (List.lookup a r).isNone := List.mem_filter.mpr ⟨hid, hnone⟩
    rw [← rt.order.mem_iter, hm] at hmem
    exact absurd hmem (List.not_mem_nil)
  | cons a l =>
    simp only [hm] at k₁
    exact absurd k₁ path_raise_ret

theorem path_insertLines {entryId : Uuid} {lines : List JournalLine} {u : Unit}
    (h : Path (insertLines entryId lines) t (.ret u)) :
    List.Forall₂ (fun line e => Did (.insertLine entryId line) () e) lines t := by
  induction lines generalizing t with
  | nil =>
    obtain ⟨rfl, _⟩ := path_ret.mp h
    exact .nil
  | cons line lines ih =>
    obtain ⟨t₁, r, t₂, rfl, q₁, k₁⟩ := path_bind_ret.mp h
    obtain ⟨e, rfl, he⟩ := path_query.mp q₁
    exact .cons he (ih k₁)

theorem path_insertJournalEntry {entry : JournalEntry} {id : Uuid}
    (h : Path (insertJournalEntry entry) t (.ret id)) :
    ∃ e tl, t = e :: tl ∧ Did (.insertEntry entry.entryType entry.paymentId entry.idempotencyKeyId) id e ∧
      List.Forall₂ (fun line e => Did (.insertLine id line) () e) entry.lines tl := by
  obtain ⟨t₁, r, t₂, rfl, q₁, k₁⟩ := path_bind_ret.mp h
  obtain ⟨e, rfl, he⟩ := path_query.mp q₁
  obtain ⟨t₁, u, t₃, rfl, q₂, k₂⟩ := path_bind_ret.mp k₁
  obtain ⟨rfl, rfl⟩ := path_ret.mp k₂
  exact ⟨e, t₁, by simp, he, path_insertLines q₂⟩

/-- The bumps of a loop that ran to its end. -/
def Bumped (versions : List (Uuid × ℕ)) (ids : List Uuid) (t : List (Event postgres)) : Prop :=
  List.Forall₂ (fun id e => ∃ v, versions.lookup id = some v ∧ Did (.updateAccountVersion id v) true e) ids t

theorem path_bumpAccounts {versions : List (Uuid × ℕ)} {ids : List Uuid}
    (h : Path (bumpAccounts versions ids) t (.ret true)) : Bumped versions ids t := by
  induction ids generalizing t with
  | nil =>
    obtain ⟨rfl, _⟩ := path_ret.mp h
    exact .nil
  | cons id ids ih =>
    rw [bumpAccounts] at h
    cases hv : versions.lookup id with
    | none =>
      simp only [hv] at h
      exact absurd h path_raise_ret
    | some v =>
      simp only [hv] at h
      obtain ⟨t₁, r, t₂, rfl, q₁, k₁⟩ := path_bind_ret.mp h
      obtain ⟨e, rfl, he⟩ := path_query.mp q₁
      cases r with
      | false => simp [Prog.pure_eq] at k₁
      | true => exact .cons ⟨v, hv, he⟩ (ih k₁)

/-- The statements of `enqueue_payment_webhook_event`: one delivery for each active subscription
that wants the event. -/
def Enqueued (paymentId : Uuid) (eventType : String) (payload : PyDict) (t : List (Event postgres)) : Prop :=
  ∃ subs e td, t = e :: td ∧ Did .selectActiveSubscriptions subs e ∧
    List.Forall₂ (fun sub e => ∃ id, Did (.insertDelivery (WebhookSubscription.id sub) (some paymentId)
      eventType payload) id e) (subs.filter (·.wants eventType)) td

theorem path_enqueueDeliveries {id : Uuid} {eventType : String} {payload : PyDict}
    {subs : List WebhookSubscription} {u : Unit}
    (h : Path (enqueueDeliveries id eventType payload subs) t (.ret u)) :
    List.Forall₂ (fun sub e => ∃ i, Did (.insertDelivery (WebhookSubscription.id sub) (some id)
      eventType payload) i e) (subs.filter (·.wants eventType)) t := by
  induction subs generalizing t with
  | nil =>
    obtain ⟨rfl, _⟩ := path_ret.mp h
    exact .nil
  | cons sub subs ih =>
    rw [enqueueDeliveries] at h
    cases hw : sub.wants eventType with
    | false =>
      simp only [hw, Bool.false_eq_true, if_false] at h
      rw [List.filter_cons_of_neg (by simp [hw])]
      exact ih h
    | true =>
      simp only [hw, if_true] at h
      rw [List.filter_cons_of_pos (by simp [hw])]
      obtain ⟨t₁, i, t₂, rfl, q₁, k₁⟩ := path_bind_ret.mp h
      obtain ⟨e, rfl, he⟩ := path_query.mp q₁
      exact .cons ⟨i, he⟩ (ih k₁)

theorem path_enqueuePaymentWebhookEvent {id : Uuid} {eventType : String} {payload : PyDict} {u : Unit}
    (h : Path (enqueuePaymentWebhookEvent id eventType payload) t (.ret u)) :
    Enqueued id eventType payload t := by
  obtain ⟨t₁, subs, t₂, rfl, q₁, k₁⟩ := path_bind_ret.mp h
  obtain ⟨e, rfl, he⟩ := path_query.mp q₁
  exact ⟨subs, e, t₂, rfl, he, path_enqueueDeliveries k₁⟩

theorem path_assertDebtorCurrencyMatches {id : Uuid} {currency : String} {u : Unit}
    (h : Path (assertDebtorCurrencyMatches id currency) t (.ret u)) :
    ∃ e a, t = [e] ∧ Did (.selectAccount id) (some a) e ∧ a.currency = currency := by
  obtain ⟨t₁, a, t₂, rfl, q₁, k₁⟩ := path_bind_ret.mp h
  obtain ⟨e, rfl, he⟩ := path_getAccount q₁
  by_cases hc : a.currency = currency
  · simp only [hc, ne_eq, not_true_eq_false, if_false] at k₁
    obtain ⟨rfl, _⟩ := path_ret.mp k₁
    exact ⟨e, a, rfl, he, hc⟩
  · simp only [hc, ne_eq, not_false_eq_true, if_true] at k₁
    exact absurd k₁ path_raise_ret

end Methods

section Transactions

variable {tx : List (Event postgres)}

/-- The statements that create a payment. -/
def Created (req : NewPayment) (p : Payment) (tx : List (Event postgres)) : Prop :=
  ∃ a id row e₁ e₂ e₃ e₄ te, tx = e₁ :: e₂ :: e₃ :: e₄ :: te ∧
    Did (.selectAccount req.debtorAccountId) (some a) e₁ ∧ a.currency = req.currency ∧
    Did (.insertPayment req.debtorAccountId req.creditorAccountId req.amount req.currency req.endToEndId) id e₂ ∧
    Did (.selectPayment id) (some row) e₃ ∧ p = row.toDomain ∧
    Did (.insertHistory p.id none .initiated none) () e₄ ∧
    Enqueued p.id "payment.initiated" (paymentResponseDict p) te

theorem path_createPaymentWithin {req : NewPayment} {p : Payment}
    (h : Path (createPaymentWithin req) tx (.ret p)) : Created req p tx := by
  obtain ⟨t₁, u, t₂, rfl, q₁, k₁⟩ := path_bind_ret.mp h
  obtain ⟨e₁, a, rfl, he₁, ha⟩ := path_assertDebtorCurrencyMatches q₁
  obtain ⟨t₁, p', t₃, rfl, q₂, k₂⟩ := path_bind_ret.mp k₁
  obtain ⟨e₂, e₃, id, row, rfl, he₂, he₃, rfl⟩ := path_createPayment q₂
  obtain ⟨t₁, u, t₄, rfl, q₃, k₃⟩ := path_bind_ret.mp k₂
  obtain ⟨e₄, rfl, he₄⟩ := path_query.mp q₃
  obtain ⟨te, u, t₅, rfl, q₄, k₄⟩ := path_bind_ret.mp k₃
  obtain ⟨rfl, rfl⟩ := path_ret.mp k₄
  exact ⟨a, id, row, e₁, e₂, e₃, e₄, te, by simp, he₁, ha, he₂, he₃, rfl, he₄,
    path_enqueuePaymentWebhookEvent q₄⟩

theorem path_initiatePaymentBlock {req : NewPayment} {p : Payment}
    (h : Path (initiatePaymentBlock req) tx (.commit (.ret p))) : Created req p tx := by
  obtain ⟨t₁, p', t₂, rfl, q₁, k₁⟩ := (path_bind_commit (plain_createPaymentWithin req)).mp h
  obtain ⟨rfl, hp⟩ := path_commit.mp k₁
  obtain rfl : p' = p := (path_ret.mp (path_nil.mpr hp)).2
  simpa using path_createPaymentWithin q₁

/-- The statements of a transition that moves no money. -/
def Transitioned (id : Uuid) (toStatus : PaymentStatus) (reason : Option PyStr) (p : Payment)
    (tx : List (Event postgres)) : Prop :=
  ∃ row e₁ e₂ e₃ te, tx = e₁ :: e₂ :: e₃ :: te ∧ Did (.selectPayment id) (some row) e₁ ∧
    toStatus ∈ allowedTransitions row.status ∧ Did (.updatePaymentStatus id row.version toStatus) true e₂ ∧
    Did (.insertHistory id (some row.status) toStatus reason) () e₃ ∧ p = row.toDomain.moved toStatus none ∧
    Enqueued id ("payment." ++ toStatus.value) (paymentResponseDict p) te

theorem assertTransitionAllowed_ok {a b : PaymentStatus} {u : Unit}
    (h : assertTransitionAllowed a b = .ok u) : b ∈ allowedTransitions a := by
  by_contra hn
  simp [assertTransitionAllowed, hn] at h

theorem path_transitionStatusOnlyAttempt {id : Uuid} {toStatus : PaymentStatus} {reason : Option PyStr}
    {p : Payment}
    (h : Path (transitionStatusOnlyAttempt id toStatus reason) tx (.commit (.ret (some p)))) :
    Transitioned id toStatus reason p tx := by
  obtain ⟨t₁, p', t₂, rfl, q₁, k₁⟩ := (path_bind_commit (plain_getPayment id)).mp h
  obtain ⟨e₁, row, rfl, he₁, rfl⟩ := path_getPayment q₁
  obtain ⟨t₁, u, t₃, rfl, q₂, k₂⟩ := (path_bind_commit (plain_ofExcept _ _)).mp k₁
  obtain ⟨rfl, hallowed⟩ := path_ofExcept.mp q₂
  obtain ⟨t₁, b, t₄, rfl, q₃, k₃⟩ := (path_bind_commit (plain_query _)).mp k₂
  obtain ⟨e₂, rfl, he₂⟩ := path_query.mp q₃
  cases b with
  | false =>
    simp only [Bool.false_eq_true, if_false] at k₃
    exact absurd k₃ path_rollback_commit
  | true =>
    simp only [if_true] at k₃
    obtain ⟨t₁, u, t₅, rfl, q₄, k₄⟩ := (path_bind_commit (plain_query _)).mp k₃
    obtain ⟨e₃, rfl, he₃⟩ := path_query.mp q₄
    obtain ⟨te, u, t₆, rfl, q₅, k₅⟩ :=
      (path_bind_commit (plain_enqueuePaymentWebhookEvent _ _ _)).mp k₄
    obtain ⟨rfl, hp⟩ := path_commit.mp k₅
    have hp' := (path_ret.mp (path_nil.mpr hp)).2
    refine ⟨row, e₁, e₂, e₃, te, by simp, he₁, assertTransitionAllowed_ok hallowed, he₂, he₃, ?_, ?_⟩
    · exact (Option.some.inj hp').symm
    · rw [← Option.some.inj hp']
      exact path_enqueuePaymentWebhookEvent q₅

/-- The statements that post an entry: versions, the entry with its lines, and a bump for each
account. -/
def Posted (rt : Runtime) (entry : JournalEntry) (entryId : Uuid) (t : List (Event postgres)) : Prop :=
  ∃ versions e₁ e₂ tl tb, t = e₁ :: e₂ :: (tl ++ tb) ∧
    Did (.selectAccountVersions (entry.accountIds rt.order)) versions e₁ ∧
    Did (.insertEntry entry.entryType entry.paymentId entry.idempotencyKeyId) entryId e₂ ∧
    List.Forall₂ (fun line e => Did (.insertLine entryId line) () e) entry.lines tl ∧
    Bumped versions (entry.accountIds rt.order) tb

theorem path_postJournalEntryAttempt {rt : Runtime} {entry : JournalEntry} {entryId : Uuid}
    (h : Path (postJournalEntryAttempt rt entry) tx (.commit (.ret (some entryId)))) :
    Posted rt entry entryId tx := by
  obtain ⟨t₁, versions, t₂, rfl, q₁, k₁⟩ := (path_bind_commit (plain_getAccountVersions _ _)).mp h
  obtain ⟨e₁, rfl, he₁, -⟩ := path_getAccountVersions q₁
  obtain ⟨t₁, id, t₃, rfl, q₂, k₂⟩ := (path_bind_commit (plain_insertJournalEntry _)).mp k₁
  obtain ⟨e₂, tl, rfl, he₂, hl⟩ := path_insertJournalEntry q₂
  obtain ⟨tb, b, t₄, rfl, q₃, k₃⟩ := (path_bind_commit (plain_bumpAccounts _ _)).mp k₂
  cases b with
  | false =>
    simp only [Bool.false_eq_true, if_false] at k₃
    exact absurd k₃ path_rollback_commit
  | true =>
    simp only [if_true] at k₃
    obtain ⟨rfl, hp⟩ := path_commit.mp k₃
    obtain rfl : id = entryId := Option.some.inj (path_ret.mp (path_nil.mpr hp)).2
    exact ⟨versions, e₁, e₂, tl, tb, by simp, he₁, he₂, hl, path_bumpAccounts q₃⟩

/-- The statements of a transition that moves money. -/
def Moved (rt : Runtime) (id : Uuid) (toStatus : PaymentStatus) (buildLines : Payment → App BuildLinesResult)
    (p : Payment) (tx : List (Event postgres)) : Prop :=
  ∃ row built entryId e₁ tb tp e₂ e₃ te, tx = e₁ :: (tb ++ (tp ++ e₂ :: e₃ :: te)) ∧
    Did (.selectPayment id) (some row) e₁ ∧ toStatus ∈ allowedTransitions row.status ∧
    Path (buildLines row.toDomain) tb (.ret built) ∧ validateJournalEntry built.2.1 = .ok () ∧
    Posted rt { entryType := built.1, lines := built.2.1, paymentId := some row.id } entryId tp ∧
    Did (.updatePaymentStatus id row.version toStatus) true e₂ ∧
    Did (.insertHistory id (some row.status) toStatus none) () e₃ ∧
    p = row.toDomain.moved toStatus built.2.2 ∧
    Enqueued id ("payment." ++ toStatus.value) (paymentResponseDict p) te

theorem path_transitionWithLedgerEntryAttempt {rt : Runtime} {id : Uuid} {toStatus : PaymentStatus}
    {buildLines : Payment → App BuildLinesResult} (hb : ∀ p, Plain (buildLines p)) {p : Payment}
    (h : Path (transitionWithLedgerEntryAttempt rt id toStatus buildLines) tx (.commit (.ret (some p)))) :
    Moved rt id toStatus buildLines p tx := by
  obtain ⟨t₁, p', t₂, rfl, q₁, k₁⟩ := (path_bind_commit (plain_getPayment id)).mp h
  obtain ⟨e₁, row, rfl, he₁, rfl⟩ := path_getPayment q₁
  obtain ⟨t₁, u, t₃, rfl, q₂, k₂⟩ := (path_bind_commit (plain_ofExcept _ _)).mp k₁
  obtain ⟨rfl, hallowed⟩ := path_ofExcept.mp q₂
  obtain ⟨tb, ⟨entryType, lines, overrides⟩, t₄, rfl, hbuilt, kb⟩ := (path_bind_commit (hb _)).mp k₂
  obtain ⟨t₁, u, t₅, rfl, q₃, k₃⟩ := (path_bind_commit (plain_ofExcept _ _)).mp kb
  obtain ⟨rfl, hvalid⟩ := path_ofExcept.mp q₃
  obtain ⟨t₁, versions, t₆, rfl, q₄, k₄⟩ := (path_bind_commit (plain_getAccountVersions _ _)).mp k₃
  obtain ⟨e₄, rfl, he₄, -⟩ := path_getAccountVersions q₄
  obtain ⟨t₁, entryId, t₇, rfl, q₅, k₅⟩ := (path_bind_commit (plain_insertJournalEntry _)).mp k₄
  obtain ⟨e₅, tl, rfl, he₅, hl⟩ := path_insertJournalEntry q₅
  obtain ⟨tv, b, t₈, rfl, q₆, k₆⟩ := (path_bind_commit (plain_bumpAccounts _ _)).mp k₅
  cases b with
  | false => exact absurd k₆ path_rollback_commit
  | true =>
    have hbumped := path_bumpAccounts q₆
    obtain ⟨t₁, b, t₉, rfl, q₇, k₇⟩ := (path_bind_commit (plain_query _)).mp k₆
    obtain ⟨e₂, rfl, he₂⟩ := path_query.mp q₇
    cases b with
    | false => exact absurd k₇ path_rollback_commit
    | true =>
      obtain ⟨t₁, u, t₁₀, rfl, q₈, k₈⟩ := (path_bind_commit (plain_query _)).mp k₇
      obtain ⟨e₃, rfl, he₃⟩ := path_query.mp q₈
      obtain ⟨te, u, t₁₁, rfl, q₉, k₉⟩ :=
        (path_bind_commit (plain_enqueuePaymentWebhookEvent _ _ _)).mp k₈
      obtain ⟨rfl, hp⟩ := path_commit.mp k₉
      have hp' := Option.some.inj (path_ret.mp (path_nil.mpr hp)).2
      refine ⟨row, (entryType, lines, overrides), entryId, e₁, tb, e₄ :: e₅ :: (tl ++ tv), e₂, e₃, te, by simp, he₁,
        assertTransitionAllowed_ok hallowed, hbuilt, hvalid, ?_, he₂, he₃, hp'.symm, ?_⟩
      · exact ⟨versions, e₄, e₅, tl, tv, rfl, he₄, he₅, hl, hbumped⟩
      · rw [← hp']
        exact path_enqueuePaymentWebhookEvent q₉

/-- A settlement inside one currency, or through the suspense account. -/
theorem path_settlementLines {p : Payment} {built : BuildLinesResult} {t : List (Event postgres)}
    (h : Path (settlementLines p) t (.ret built)) : ∃ d c e₁ e₂ tr, t = e₁ :: e₂ :: tr ∧
      Did (.selectAccount p.debtorAccountId) (some d) e₁ ∧
      Did (.selectAccount p.creditorAccountId) (some c) e₂ ∧
      ((d.currency = c.currency ∧ tr = [] ∧ built = ("transfer",
          [⟨p.debtorAccountId, .debit, p.amount, p.currency⟩,
           ⟨p.creditorAccountId, .credit, p.amount, p.currency⟩], none)) ∨
        (d.currency ≠ c.currency ∧ ∃ rate creditorAmount suspense e₃ e₄ e₅, tr = [e₃, e₄, e₅] ∧
          Did (.selectLatestRate d.currency c.currency) (some rate) e₃ ∧
          convertAmount p.amount rate.rate.toDecimal = .ok creditorAmount ∧
          Did (.selectAccountByNumber fxSuspenseAccountNumber) (some suspense) e₄ ∧
          Did (.updateFxDetails p.id rate.id creditorAmount) () e₅ ∧
          built = ("fx_conversion",
            [⟨p.debtorAccountId, .debit, p.amount, d.currency⟩,
             ⟨suspense.id, .credit, p.amount, d.currency⟩,
             ⟨suspense.id, .debit, creditorAmount, c.currency⟩,
             ⟨p.creditorAccountId, .credit, creditorAmount, c.currency⟩],
            some (rate.id, creditorAmount)))) := by
  obtain ⟨t₁, d, t₂, rfl, q₁, k₁⟩ := path_bind_ret.mp h
  obtain ⟨e₁, rfl, he₁⟩ := path_getAccount q₁
  obtain ⟨t₁, c, t₃, rfl, q₂, k₂⟩ := path_bind_ret.mp k₁
  obtain ⟨e₂, rfl, he₂⟩ := path_getAccount q₂
  by_cases hcur : d.currency = c.currency
  · simp only [hcur, if_true] at k₂
    obtain ⟨rfl, rfl⟩ := path_ret.mp k₂
    exact ⟨d, c, e₁, e₂, [], rfl, he₁, he₂, .inl ⟨hcur, rfl, rfl⟩⟩
  · simp only [hcur, if_false] at k₂
    obtain ⟨t₁, rate, t₄, rfl, q₃, k₃⟩ := path_bind_ret.mp k₂
    obtain ⟨e₃, row, rfl, he₃, rfl⟩ := path_getLatestRate q₃
    obtain ⟨t₁, creditorAmount, t₅, rfl, q₄, k₄⟩ := path_bind_ret.mp k₃
    obtain ⟨rfl, hconv⟩ := path_ofExcept.mp q₄
    obtain ⟨t₁, suspense, t₆, rfl, q₅, k₅⟩ := path_bind_ret.mp k₄
    obtain ⟨e₄, rfl, he₄⟩ := path_getAccountByNumber q₅
    obtain ⟨t₁, u, t₇, rfl, q₆, k₆⟩ := path_bind_ret.mp k₅
    obtain ⟨e₅, rfl, he₅⟩ := path_query.mp q₆
    obtain ⟨rfl, rfl⟩ := path_ret.mp k₆
    exact ⟨d, c, e₁, e₂, [e₃, e₄, e₅], rfl, he₁, he₂,
      .inr ⟨hcur, row, creditorAmount, suspense, e₃, e₄, e₅, rfl, he₃, hconv, he₄, he₅, rfl⟩⟩

/-- A reversal mirrors what was booked. -/
theorem path_reversalLines {p : Payment} {built : BuildLinesResult} {t : List (Event postgres)}
    (h : Path (reversalLines p) t (.ret built)) :
    (p.creditorAmount = none ∧ t = [] ∧ built = ("reversal",
        [⟨p.creditorAccountId, .debit, p.amount, p.currency⟩,
         ⟨p.debtorAccountId, .credit, p.amount, p.currency⟩], none)) ∨
      ∃ creditorAmount d c suspense e₁ e₂ e₃, p.creditorAmount = some creditorAmount ∧ t = [e₁, e₂, e₃] ∧
        Did (.selectAccount p.debtorAccountId) (some d) e₁ ∧
        Did (.selectAccount p.creditorAccountId) (some c) e₂ ∧
        Did (.selectAccountByNumber fxSuspenseAccountNumber) (some suspense) e₃ ∧
        built = ("fx_conversion_reversal",
          [⟨suspense.id, .debit, p.amount, d.currency⟩,
           ⟨p.debtorAccountId, .credit, p.amount, d.currency⟩,
           ⟨p.creditorAccountId, .debit, creditorAmount, c.currency⟩,
           ⟨suspense.id, .credit, creditorAmount, c.currency⟩], none) := by
  rw [reversalLines] at h
  cases hc : p.creditorAmount with
  | none =>
    simp only [hc] at h
    obtain ⟨rfl, rfl⟩ := path_ret.mp h
    exact .inl ⟨rfl, rfl, rfl⟩
  | some creditorAmount =>
    simp only [hc] at h
    obtain ⟨t₁, d, t₂, rfl, q₁, k₁⟩ := path_bind_ret.mp h
    obtain ⟨e₁, rfl, he₁⟩ := path_getAccount q₁
    obtain ⟨t₁, c, t₃, rfl, q₂, k₂⟩ := path_bind_ret.mp k₁
    obtain ⟨e₂, rfl, he₂⟩ := path_getAccount q₂
    obtain ⟨t₁, suspense, t₄, rfl, q₃, k₃⟩ := path_bind_ret.mp k₂
    obtain ⟨e₃, rfl, he₃⟩ := path_getAccountByNumber q₃
    obtain ⟨rfl, rfl⟩ := path_ret.mp k₃
    exact .inr ⟨creditorAmount, d, c, suspense, e₁, e₂, e₃, rfl, rfl, he₁, he₂, he₃, rfl⟩

/-- The statements that claim a key. -/
def Claimed (key hash : String) (req : NewPayment) (outcome : IdempotencyOutcome)
    (tx : List (Event postgres)) : Prop :=
  ∃ a e₁ e₂ tr, tx = e₁ :: e₂ :: tr ∧ Did (.selectAccount req.debtorAccountId) (some a) e₁ ∧
    ((outcome = .started ∧ tr = [] ∧
        Did (.insertIdempotencyKey key idempotencyEndpointInitiatePayment hash) true e₂) ∨
      ∃ e₃ existing, tr = [e₃] ∧
        Did (.insertIdempotencyKey key idempotencyEndpointInitiatePayment hash) false e₂ ∧
        Did (.selectIdempotencyKey key idempotencyEndpointInitiatePayment) (some existing) e₃ ∧
        outcome = if existing.status = .inProgress then .inProgressConflict
          else if existing.requestHash ≠ hash then .hashMismatch
          else .replay existing.responseStatusCode existing.responseBody)

theorem path_claimBlock {rt : Runtime} {key : String} {body : PyDict} {req : NewPayment}
    {outcome : IdempotencyOutcome}
    (h : Path (claimBlock rt key body req) tx (.commit (.ret outcome))) :
    Claimed key (rt.hashRequestBody body) req outcome tx := by
  obtain ⟨t₁, u, t₂, rfl, q₁, k₁⟩ := (path_bind_commit (plain_assertDebtorCurrencyMatches _ _)).mp h
  obtain ⟨e₁, a, rfl, he₁, -⟩ := path_assertDebtorCurrencyMatches q₁
  obtain ⟨t₃, outcome', t₄, rfl, q₂, k₂⟩ := (path_bind_commit (plain_beginAttempt _ _ _)).mp k₁
  obtain ⟨rfl, hp⟩ := path_commit.mp k₂
  obtain rfl : outcome' = outcome := (path_ret.mp (path_nil.mpr hp)).2
  obtain ⟨t₅, inserted, t₆, rfl, q₃, k₃⟩ := path_bind_ret.mp q₂
  obtain ⟨e₂, rfl, he₂⟩ := path_query.mp q₃
  cases inserted with
  | true =>
    simp only [if_true] at k₃
    obtain ⟨rfl, rfl⟩ := path_ret.mp k₃
    exact ⟨a, e₁, e₂, [], rfl, he₁, .inl ⟨rfl, rfl, he₂⟩⟩
  | false =>
    simp only [Bool.false_eq_true, if_false] at k₃
    obtain ⟨t₇, r, t₈, rfl, q₄, k₄⟩ := path_bind_ret.mp k₃
    obtain ⟨e₃, rfl, he₃⟩ := path_query.mp q₄
    cases r with
    | none => exact absurd k₄ path_raise_ret
    | some existing =>
      have hout : t₈ = [] ∧ outcome' = if existing.status = .inProgress then .inProgressConflict
          else if existing.requestHash ≠ rt.hashRequestBody body then .hashMismatch
          else .replay existing.responseStatusCode existing.responseBody := by
        dsimp only at k₄
        split at k₄
        · rename_i hs
          rw [if_pos hs]
          exact ⟨(path_ret.mp k₄).1, (path_ret.mp k₄).2.symm⟩
        · rename_i hs
          rw [if_neg hs]
          split at k₄
          · rename_i hh
            rw [if_pos hh]
            exact ⟨(path_ret.mp k₄).1, (path_ret.mp k₄).2.symm⟩
          · rename_i hh
            rw [if_neg hh]
            exact ⟨(path_ret.mp k₄).1, (path_ret.mp k₄).2.symm⟩
      obtain ⟨rfl, hout⟩ := hout
      exact ⟨a, e₁, e₂, [e₃], rfl, he₁, .inr ⟨e₃, existing, rfl, he₂, he₃, hout⟩⟩

/-- The statements that create the payment of a claimed key and complete the claim. -/
def Completed (key : String) (req : NewPayment) (p : Payment) (tx : List (Event postgres)) : Prop :=
  ∃ tc e, tx = tc ++ [e] ∧ Created req p tc ∧
    Did (.updateIdempotencyKey key idempotencyEndpointInitiatePayment 201 (paymentResponseDict p)) () e

theorem path_completeBlock {key : String} {req : NewPayment} {v : ℕ × PyDict}
    (h : Path (completeBlock key req) tx (.commit (.ret v))) :
    ∃ p, v = (201, paymentResponseDict p) ∧ Completed key req p tx := by
  obtain ⟨tc, p, t₂, rfl, q₁, k₁⟩ := (path_bind_commit (plain_createPaymentWithin req)).mp h
  obtain ⟨t₃, u, t₄, rfl, q₂, k₂⟩ := (path_bind_commit (plain_query _)).mp k₁
  obtain ⟨e, rfl, he⟩ := path_query.mp q₂
  obtain ⟨rfl, hp⟩ := path_commit.mp k₂
  have hv := (path_ret.mp (path_nil.mpr hp)).2
  exact ⟨p, hv.symm, tc, e, by simp, path_createPaymentWithin q₁, he⟩

theorem forall₂_mem_right {α β : Type} {R : α → β → Prop} {l : List α} {l' : List β}
    (h : List.Forall₂ R l l') {b : β} (hb : b ∈ l') : ∃ a ∈ l, R a b := by
  induction h with
  | nil => simp at hb
  | cons hr _ ih =>
    rcases List.mem_cons.mp hb with rfl | hb
    · exact ⟨_, List.mem_cons_self, hr⟩
    · obtain ⟨a, ha, hr'⟩ := ih hb
      exact ⟨a, List.mem_cons_of_mem _ ha, hr'⟩

/-- The statements of a reconciliation run. -/
def Reconciled (batchId : Uuid) (windowStart windowEnd : ℕ)
    (tx : List (Event postgres)) : Prop :=
  ∃ settled tr e₁ e₂ tb, tx = tr ++ e₁ :: e₂ :: tb ∧
    (∀ e ∈ tr, ∃ record, Did (.insertRecord batchId record) () e) ∧
    Did (.selectSettled windowStart windowEnd) settled e₁ ∧
    (∃ matched broken runId, Did (.insertRun batchId matched broken "completed") runId e₂) ∧
    ∀ e ∈ tb, ∃ runId b, Did (.insertBreak runId b) () e

/-- A reconciliation run with what it reports: the records of the file, the settled payments, and the run with
its breaks. -/
def Reported (rt : Runtime) (batchId : Uuid) (records : List SettlementRecord) (windowStart windowEnd : ℕ)
    (v : Uuid × ReconciliationResult) (tx : List (Event postgres)) : Prop :=
  ∃ settled tr e₁ e₂ tb, tx = tr ++ e₁ :: e₂ :: tb ∧
    List.Forall₂ (fun record e => Did (.insertRecord batchId record) () e) records tr ∧
    Did (.selectSettled windowStart windowEnd) settled e₁ ∧ matchRecords rt.repr settled records = .ok v.2 ∧
    Did (.insertRun batchId v.2.matchedCount v.2.breakCount "completed") v.1 e₂ ∧
    List.Forall₂ (fun b e => Did (.insertBreak v.1 b) () e) v.2.breaks tb

theorem path_loadSettlementRecords {batchId : Uuid} {records : List SettlementRecord} {u : Unit}
    (h : Path (loadSettlementRecords batchId records) tx (.ret u)) :
    List.Forall₂ (fun record e => Did (.insertRecord batchId record) () e) records tx := by
  induction records generalizing tx with
  | nil =>
    obtain ⟨rfl, _⟩ := path_ret.mp h
    exact .nil
  | cons record records ih =>
    obtain ⟨t₁, r, t₂, rfl, q₁, k₁⟩ := path_bind_ret.mp h
    obtain ⟨e, rfl, he⟩ := path_query.mp q₁
    exact .cons he (ih k₁)

theorem path_insertBreaks {runId : Uuid} {breaks : List ReconciliationBreak} {u : Unit}
    (h : Path (insertBreaks runId breaks) tx (.ret u)) :
    List.Forall₂ (fun b e => Did (.insertBreak runId b) () e) breaks tx := by
  induction breaks generalizing tx with
  | nil =>
    obtain ⟨rfl, _⟩ := path_ret.mp h
    exact .nil
  | cons b breaks ih =>
    obtain ⟨t₁, r, t₂, rfl, q₁, k₁⟩ := path_bind_ret.mp h
    obtain ⟨e, rfl, he⟩ := path_query.mp q₁
    exact .cons he (ih k₁)

theorem path_runReconciliationBlock {rt : Runtime} {batchId : Uuid} {records : List SettlementRecord}
    {windowStart windowEnd : ℕ} {v : Uuid × ReconciliationResult}
    (h : Path (runReconciliationBlock rt batchId records windowStart windowEnd) tx (.commit (.ret v))) :
    Reported rt batchId records windowStart windowEnd v tx := by
  obtain ⟨tr, u, t₂, rfl, q₁, k₁⟩ := (path_bind_commit (plain_loadSettlementRecords _ _)).mp h
  obtain ⟨t₃, settled, t₄, rfl, q₂, k₂⟩ := (path_bind_commit (plain_query _)).mp k₁
  obtain ⟨e₁, rfl, he₁⟩ := path_query.mp q₂
  obtain ⟨t₅, result, t₆, rfl, q₃, k₃⟩ := (path_bind_commit (plain_ofExcept _ _)).mp k₂
  obtain ⟨rfl, hresult⟩ := path_ofExcept.mp q₃
  obtain ⟨t₇, runId, t₈, rfl, q₄, k₄⟩ := (path_bind_commit (plain_recordRun _ _)).mp k₃
  obtain ⟨rfl, hp⟩ := path_commit.mp k₄
  have hv : (runId, result) = v := (path_ret.mp (path_nil.mpr hp)).2
  obtain ⟨t₉, id, t₁₀, rfl, q₅, k₅⟩ := path_bind_ret.mp q₄
  obtain ⟨e₂, rfl, he₂⟩ := path_query.mp q₅
  obtain ⟨tb, u', t₁₁, rfl, q₆, k₆⟩ := path_bind_ret.mp k₅
  obtain ⟨rfl, rfl⟩ := path_ret.mp k₆
  rw [← hv]
  exact ⟨settled, tr, e₁, e₂, tb, by simp, path_loadSettlementRecords q₁, he₁, hresult, he₂, path_insertBreaks q₆⟩

theorem Reported.reconciled {rt : Runtime} {batchId : Uuid} {records : List SettlementRecord}
    {windowStart windowEnd : ℕ} {v : Uuid × ReconciliationResult}
    (h : Reported rt batchId records windowStart windowEnd v tx) : Reconciled batchId windowStart windowEnd tx := by
  obtain ⟨settled, tr, e₁, e₂, tb, rfl, hr, h₁, -, h₂, hb⟩ := h
  refine ⟨settled, tr, e₁, e₂, tb, rfl, ?_, h₁, ⟨_, _, v.1, h₂⟩, ?_⟩
  · intro e he
    obtain ⟨record, -, hd⟩ := forall₂_mem_right hr he
    exact ⟨record, hd⟩
  · intro e he
    obtain ⟨b, -, hd⟩ := forall₂_mem_right hb he
    exact ⟨v.1, b, hd⟩

/-- The statements of a transaction that a call commits, and the value the call then returns, if
that transaction is its last one. -/
def Call.Shape (rt : Runtime) : Call → List (Event postgres) → Option Value → Prop
  | .initiatePayment req, tx, v => ∃ p, v = some (.payment p) ∧ Created req p tx
  | .initiatePaymentIdempotent key body req, tx, v =>
    (∃ outcome, v = none ∧ Claimed key (rt.hashRequestBody body) req outcome tx) ∨
      ∃ p, v = some (.response 201 (paymentResponseDict p)) ∧ Completed key req p tx
  | .authorisePayment id _, tx, v => ∃ p, v = some (.payment p) ∧ Transitioned id .authorised none p tx
  | .failPayment id reason _, tx, v => ∃ p, v = some (.payment p) ∧ Transitioned id .failed reason p tx
  | .settlePayment id _, tx, v => ∃ p, v = some (.payment p) ∧ Moved rt id .settled settlementLines p tx
  | .reversePayment id _, tx, v => ∃ p, v = some (.payment p) ∧ Moved rt id .reversed reversalLines p tx
  | .postJournalEntry entry _, tx, v =>
    ∃ u, v = some (.entryId u) ∧ validateJournalEntry entry.lines = .ok () ∧ Posted rt entry u tx
  | .runReconciliation batchId _ windowStart windowEnd, tx, v =>
    ∃ runId result, v = some (.run runId result) ∧ Reconciled batchId windowStart windowEnd tx

theorem Call.Commits.shape {rt : Runtime} {call : Call} {v : Value} (h : call.Commits rt tx v) :
    call.Shape rt tx (some v) := by
  cases call with
  | initiatePayment req =>
    obtain ⟨p, rfl, -, hp⟩ := h
    exact ⟨p, rfl, path_initiatePaymentBlock hp⟩
  | initiatePaymentIdempotent key body req => exact h.elim
  | authorisePayment id n =>
    obtain ⟨p, rfl, hp⟩ := h
    exact ⟨p, rfl, path_transitionStatusOnlyAttempt hp⟩
  | failPayment id reason n =>
    obtain ⟨p, rfl, hp⟩ := h
    exact ⟨p, rfl, path_transitionStatusOnlyAttempt hp⟩
  | settlePayment id n =>
    obtain ⟨p, rfl, hp⟩ := h
    exact ⟨p, rfl, path_transitionWithLedgerEntryAttempt plain_settlementLines hp⟩
  | reversePayment id n =>
    obtain ⟨p, rfl, hp⟩ := h
    exact ⟨p, rfl, path_transitionWithLedgerEntryAttempt plain_reversalLines hp⟩
  | postJournalEntry entry n =>
    obtain ⟨u, rfl, hv, hp⟩ := h
    exact ⟨u, rfl, hv, path_postJournalEntryAttempt hp⟩
  | runReconciliation batchId records windowStart windowEnd =>
    obtain ⟨r, rfl, hp⟩ := h
    exact ⟨r.1, r.2, rfl, (path_runReconciliationBlock hp).reconciled⟩

end Transactions
end PaymentLedger
