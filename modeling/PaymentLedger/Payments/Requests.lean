import PaymentLedger.Ledger.Tables

namespace PaymentLedger

/-- The request of a call that initiates a payment. -/
def Call.request : Call → Option NewPayment
  | .initiatePayment req => some req
  | .initiatePaymentIdempotent _ _ req => some req
  | _ => none

/-- The payment is stored as it was requested. -/
structure Requested (st : Store) (req : NewPayment) (row : PaymentRow) : Prop where
  amount : Amount.ofDecimal req.amount = .ok row.amount
  currency : varchar 3 req.currency = .ok row.currency
  endToEndId : nullable (varchar 35) req.endToEndId = .ok row.endToEndId
  debtor : row.debtorAccountId = req.debtorAccountId
  creditor : row.creditorAccountId = req.creditorAccountId
  debtorCurrency : st.currencyOf req.debtorAccountId = some req.currency
  creditorExists : st.hasAccount req.creditorAccountId = true

section Requested

variable {st : Store} {req : NewPayment} {row : PaymentRow}

theorem Requested.after (h : Requested st req row) (ws : List Write) : Requested (st.after ws) req row where
  amount := h.amount
  currency := h.currency
  endToEndId := h.endToEndId
  debtor := h.debtor
  creditor := h.creditor
  debtorCurrency := by
    rw [Store.currencyOf_after]
    exact h.debtorCurrency
  creditorExists := by
    rw [hasAccount_after]
    exact h.creditorExists

theorem Requested.moved (h : Requested st req row) (toStatus : PaymentStatus) (fx : Option (Uuid × Numeric 2)) :
    Requested st req (row.moved toStatus fx) := by
  refine ⟨?_, ?_, ?_, ?_, ?_, h.debtorCurrency, h.creditorExists⟩
  · rw [moved_amount]
    exact h.amount
  · rw [moved_currency]
    exact h.currency
  · rw [moved_endToEndId]
    exact h.endToEndId
  · rw [moved_debtor]
    exact h.debtor
  · rw [moved_creditor]
    exact h.creditor

theorem Initiation.requested {now : ℕ} {subs : List WebhookSubscription} {ds : List WebhookDeliveryRow}
    (h : Initiation st now req row subs ds) : Requested st req row := by
  obtain ⟨a, ha, cur, hcur, ref, href, hrow⟩ := PaymentRow.new_ok.mp h.stored
  rw [hrow]
  exact ⟨ha, hcur, href, rfl, rfl, h.currency, h.creditor⟩

/-- An amount that is positive and storable is a positive number of cents. -/
theorem Amount.cents_of_positive {d : Decimal} {a : Amount} (hpos : d.nonPositive = .ok false)
    (h : Amount.ofDecimal d = .ok a) : ∃ n, 0 < n ∧ n < 10 ^ 18 ∧ a.toDecimal = .finite false n (-2) := by
  have hn := Amount.ofDecimal_ok.mp h
  obtain ⟨value, hp⟩ := a
  cases d with
  | nan s => simp [Decimal.nonPositive] at hpos
  | infinity s => simp [Numeric.ofDecimal] at hn
  | finite s c e =>
    cases value with
    | nan =>
      rw [Numeric.ofDecimal] at hn
      split at hn <;> cases hn
    | num z lt =>
      have hz : 0 < z := hp
      refine ⟨z.natAbs, by omega, lt, ?_⟩
      have hneg : ¬z < 0 := by omega
      have hne : z ≠ 0 := by omega
      simp [Amount.toDecimal, Numeric.toDecimal, Decimal.ofInt, hne, hneg]

/-- What a valid request has stored. -/
theorem Requested.cents (h : Requested st req row)
    (hv : validateNewPayment req.amount req.debtorAccountId req.creditorAccountId = .ok ()) :
    ∃ n, 0 < n ∧ n < 10 ^ 18 ∧ row.amount.toDecimal = .finite false n (-2) := by
  apply Amount.cents_of_positive _ h.amount
  unfold validateNewPayment at hv
  split at hv
  · cases hv
  · cases hv
  · assumption

end Requested

theorem Deed.Of.initiated {rt : Runtime} {st : Store} {now : ℕ} {call : Call} {v : Option Value} {row : PaymentRow}
    {subs : List WebhookSubscription} {ds : List WebhookDeliveryRow} {completion : Option (String × PyDict)}
    (h : (Deed.initiate row subs ds completion).Of rt st now call v) :
    ∃ req, call.request = some req ∧ Initiation st now req row subs ds := by
  cases call with
  | initiatePayment req =>
    obtain ⟨_, _, _, heq, hi, -⟩ := h
    cases heq
    exact ⟨req, rfl, hi⟩
  | initiatePaymentIdempotent key body req =>
    rcases h with ⟨_, heq, -⟩ | ⟨_, _, _, _, heq, hi, -⟩
    · cases heq
    · cases heq
      exact ⟨req, rfl, hi⟩
  | postJournalEntry entry n =>
    obtain ⟨_, heq, -⟩ := h
    cases heq
  | runReconciliation batchId records windowStart windowEnd =>
    obtain ⟨_, _, _, heq, -⟩ := h
    cases heq
  | authorisePayment id n =>
    obtain ⟨_, _, _, _, heq, -⟩ := h
    cases heq
  | failPayment id reason n =>
    obtain ⟨_, _, _, _, heq, -⟩ := h
    cases heq
  | settlePayment id n =>
    obtain ⟨_, _, _, _, _, _, _, heq, -⟩ := h
    cases heq
  | reversePayment id n =>
    obtain ⟨_, _, _, _, _, _, _, heq, -⟩ := h
    cases heq

theorem Deed.mem_insertPayment {rt : Runtime} {st : Store} {now : ℕ} {d : Deed} (h : d.Legal rt st now)
    {row : PaymentRow} (hmem : .insertPayment row ∈ d.writes now) :
    ∃ subs ds completion, d = .initiate row subs ds completion := by
  cases d with
  | initiate row' subs ds completion =>
    obtain rfl : row = row' := by simpa [Deed.writes] using hmem
    exact ⟨subs, ds, completion, rfl⟩
  | transition row' toStatus reason fx posting subs ds =>
    simp [Deed.writes, fxWrites, Posting.writes] at hmem
  | post entry posting => simp [Deed.writes, Posting.writes] at hmem
  | claim key => simp [Deed.writes] at hmem
  | reconcile ws => cases h _ hmem

section Runs

variable {ι : Type} [DecidableEq ι] {rt : Runtime} {step : Feed → Feed → Prop} {st₀ : Store}
  {calls : ι → Call} {σ : Config postgres ι Value}

/-- Every payment is stored as some call has requested it, and what a call has stored is as that call has
requested it. -/
structure Requests (calls : ι → Call) (log : List (Commit postgres ι)) (st : Store) : Prop where
  origin : ∀ id row, st.payments.find id = some row →
    ∃ c ∈ log, ∃ req, (calls c.caller).request = some req ∧ Requested st req row
  kept : ∀ c ∈ log, ∀ req, (calls c.caller).request = some req → ∀ row₀, .insertPayment row₀ ∈ writesOf c.tx →
    ∃ row, st.payments.find row₀.id = some row ∧ Requested st req row

omit [DecidableEq ι] in
theorem Requests.commit {log : List (Commit postgres ι)} {c : Commit postgres ι} {v : Option Value} {d : Deed}
    (h : Requests calls log c.before) (hd : c.Does rt calls v d) :
    Requests calls (log ++ [c]) (c.before.after (d.writes c.began)) := by
  have hlegal := hd.deed.legal
  have hpayment := Deed.payment_effect hlegal
  -- a payment that is there stays as requested
  have stays {id : Uuid} {old : PaymentRow} {req : NewPayment} (hold : c.before.payments.find id = some old)
      (hr : Requested c.before req old) : ∃ row, d.payment id (some old) = some row ∧
        Requested (c.before.after (d.writes c.began)) req row := by
    cases d with
    | initiate new subs ds completion =>
      have hne : new.id ≠ id := by
        rintro rfl
        obtain ⟨⟨_, hi⟩, -⟩ := hlegal
        rw [hi.fresh] at hold
        cases hold
      exact ⟨old, if_neg hne, hr.after _⟩
    | transition row toStatus reason fx posting subs ds =>
      by_cases hid : row.id = id
      · subst hid
        have hfound : c.before.payments.find row.id = some row := Transition.found hlegal
        obtain rfl := Option.some.inj (hold.symm.trans hfound)
        exact ⟨old.moved toStatus fx, if_pos rfl, (hr.moved toStatus fx).after _⟩
      · exact ⟨old, if_neg hid, hr.after _⟩
    | _ => exact ⟨old, rfl, hr.after _⟩
  refine ⟨?_, ?_⟩
  · intro id row hrow
    rw [hpayment] at hrow
    cases hold : c.before.payments.find id with
    | some old =>
      obtain ⟨c', hc', req, hreq, hr⟩ := h.origin id old hold
      obtain ⟨row', hrow', hr'⟩ := stays hold hr
      rw [hold, hrow'] at hrow
      obtain rfl := Option.some.inj hrow
      exact ⟨c', List.mem_append_left _ hc', req, hreq, hr'⟩
    | none =>
      cases d with
      | initiate new subs ds completion =>
        obtain ⟨req, hreq, hi⟩ := hd.deed.initiated
        by_cases hid : new.id = id
        · rw [hold, Deed.payment, if_pos hid] at hrow
          obtain rfl := Option.some.inj hrow
          exact ⟨c, by simp, req, hreq, hi.requested.after _⟩
        · rw [hold, Deed.payment, if_neg hid] at hrow
          cases hrow
      | transition moved toStatus reason fx posting subs ds =>
        by_cases hid : moved.id = id
        · have hfound : c.before.payments.find moved.id = some moved := Transition.found hlegal
          rw [hid, hold] at hfound
          cases hfound
        · rw [hold, Deed.payment, if_neg hid] at hrow
          cases hrow
      | _ =>
        rw [hold] at hrow
        cases hrow
  · intro c' hc' req hreq row₀ hwrite
    rw [hpayment]
    rcases List.mem_append.mp hc' with hc' | hc'
    · obtain ⟨old, hold, hr⟩ := h.kept c' hc' req hreq row₀ hwrite
      rw [hold]
      exact stays hold hr
    · obtain rfl := List.mem_singleton.mp hc'
      rw [hd.writes] at hwrite
      obtain ⟨subs, ds, completion, rfl⟩ := Deed.mem_insertPayment hlegal hwrite
      obtain ⟨req', hreq', hi⟩ := hd.deed.initiated
      obtain rfl := Option.some.inj (hreq.symm.trans hreq')
      exact ⟨row₀, if_pos rfl, hi.requested.after _⟩

theorem WellFormed.requests_past (h : WellFormed (feedEnv step) st₀ (fun i => (calls i).prog rt) σ) (h₀ : Fresh st₀)
    {log : List (Commit postgres ι)} {st : Store} (hlog : log <+: σ.world.log)
    (hst : History (feedEnv step) st₀ log st) : Requests calls log st := by
  apply h.invariant_past (Requests calls) _ _ _ hlog hst
  · refine ⟨?_, by simp⟩
    intro id row hrow
    have hmem := Table.mem_of_find hrow
    rw [h₀.payments] at hmem
    cases hmem
  · intro l st f hP
    refine ⟨?_, ?_⟩
    · intro id row hrow
      obtain ⟨c, hc, req, hreq, hr⟩ := hP.origin id row hrow
      exact ⟨c, hc, req, hreq, { hr with }⟩
    · intro c hc req hreq row₀ hwrite
      obtain ⟨row, hrow, hr⟩ := hP.kept c hc req hreq row₀ hwrite
      exact ⟨row, hrow, { hr with }⟩
  · intro l c v d hd hP
    exact hP.commit hd

theorem WellFormed.requests (h : WellFormed (feedEnv step) st₀ (fun i => (calls i).prog rt) σ) (h₀ : Fresh st₀) :
    Requests calls σ.world.log σ.world.store :=
  h.requests_past h₀ (List.prefix_refl _) h.history

/-- A call that has committed has passed the validation of its request. -/
theorem WellFormed.valid_request (h : WellFormed (feedEnv step) st₀ (fun i => (calls i).prog rt) σ)
    {c : Commit postgres ι} (hc : c ∈ σ.world.log) {req : NewPayment} (hreq : (calls c.caller).request = some req) :
    validateNewPayment req.amount req.debtorAccountId req.creditorAccountId = .ok () := by
  cases hv : validateNewPayment req.amount req.debtorAccountId req.creditorAccountId with
  | ok u => rfl
  | error e =>
    have hprog : (calls c.caller).prog rt = .raise e := by
      cases hcall : calls c.caller with
      | initiatePayment req' =>
        obtain rfl : req' = req := by simpa [Call.request, hcall] using hreq
        simp [Call.prog, initiatePayment, hv, Prog.ofExcept, Prog.bind]
      | initiatePaymentIdempotent key body req' =>
        obtain rfl : req' = req := by simpa [Call.request, hcall] using hreq
        simp [Call.prog, initiatePaymentIdempotent, hv, Prog.ofExcept, Prog.bind]
      | _ => simp [Call.request, hcall] at hreq
    obtain ⟨done, tx, p, ht, hd, -⟩ := h.trace c.caller
    rw [hprog] at ht
    obtain ⟨rfl, -⟩ := trace_raise ht
    have hmem := mem_ownOf hc
    rw [← hd] at hmem
    cases hmem

end Runs
end PaymentLedger
