import PaymentLedger.Services.Deeds

namespace PaymentLedger

/-- The payment row as a transition leaves it. -/
def PaymentRow.moved (row : PaymentRow) (toStatus : PaymentStatus) : Option (Uuid × Numeric 2) → PaymentRow
  | none => { row with status := toStatus, version := row.version + 1 }
  | some (rateId, n) =>
    { row with
      status := toStatus
      version := row.version + 1
      fxRateId := some rateId
      creditorAmount := some n }

section Moved

variable (row : PaymentRow) (toStatus : PaymentStatus) (fx : Option (Uuid × Numeric 2))

@[simp] theorem moved_id : (row.moved toStatus fx).id = row.id := by
  cases fx <;> rfl

@[simp] theorem moved_debtor : (row.moved toStatus fx).debtorAccountId = row.debtorAccountId := by
  cases fx <;> rfl

@[simp] theorem moved_creditor : (row.moved toStatus fx).creditorAccountId = row.creditorAccountId := by
  cases fx <;> rfl

@[simp] theorem moved_amount : (row.moved toStatus fx).amount = row.amount := by
  cases fx <;> rfl

@[simp] theorem moved_currency : (row.moved toStatus fx).currency = row.currency := by
  cases fx <;> rfl

@[simp] theorem moved_endToEndId : (row.moved toStatus fx).endToEndId = row.endToEndId := by
  cases fx <;> rfl

@[simp] theorem moved_status : (row.moved toStatus fx).status = toStatus := by
  cases fx <;> rfl

@[simp] theorem moved_version : (row.moved toStatus fx).version = row.version + 1 := by
  cases fx <;> rfl

end Moved

theorem moved_toDomain (row : PaymentRow) (toStatus : PaymentStatus) (fx : Option (Uuid × Numeric 2)) :
    row.toDomain.moved toStatus (fx.map fun x => (x.1, x.2.toDecimal)) = (row.moved toStatus fx).toDomain := by
  cases fx with
  | none => rfl
  | some x => rfl

/-- What a committed transaction has done. -/
inductive Deed where
  | initiate (row : PaymentRow) (subs : List WebhookSubscription) (ds : List WebhookDeliveryRow)
      (completion : Option (String × PyDict))
  | transition (row : PaymentRow) (toStatus : PaymentStatus) (reason : Option String)
      (fx : Option (Uuid × Numeric 2)) (posting : Option (JournalEntry × Posting))
      (subs : List WebhookSubscription) (ds : List WebhookDeliveryRow)
  | post (entry : JournalEntry) (posting : Posting)
  | claim (key : Option IdempotencyKeyRow)
  | reconcile (ws : List Write)

def Write.ofReconciliation : Write → Bool
  | insertRecord _ => true
  | insertRun _ => true
  | insertBreak _ => true
  | _ => false

namespace Deed

/-- The writes of a transaction that began at `now`. -/
def writes (now : ℕ) : Deed → List Write
  | initiate row _ ds completion =>
    .insertPayment row :: .insertHistory ⟨row.id, none, .initiated, now, none⟩ ::
      (ds.map .insertDelivery ++
        completion.toList.map fun x => .completeKey idempotencyEndpointInitiatePayment x.1 201 x.2)
  | transition row toStatus reason fx posting _ ds =>
    fxWrites row.id fx ++ ((posting.toList.flatMap fun x => x.2.writes) ++
      (.setStatus row.id toStatus :: .insertHistory ⟨row.id, some row.status, toStatus, now, reason⟩ ::
        ds.map .insertDelivery))
  | post _ posting => posting.writes
  | claim key => key.toList.map .insertKey
  | reconcile ws => ws

/-- The subscriptions the transaction has read as active. -/
def subscriptions : Deed → List WebhookSubscription
  | initiate _ subs _ _ => subs
  | transition _ _ _ _ _ subs _ => subs
  | _ => []

end Deed

/-- A payment is created on `st` as requested. -/
structure Initiation (st : Store) (now : ℕ) (req : NewPayment) (row : PaymentRow)
    (subs : List WebhookSubscription) (ds : List WebhookDeliveryRow) : Prop where
  fresh : st.payments.find row.id = none
  stored : PaymentRow.new row.id req.debtorAccountId req.creditorAccountId req.amount req.currency
    req.endToEndId = .ok row
  currency : st.currencyOf req.debtorAccountId = some req.currency
  creditor : st.hasAccount req.creditorAccountId = true
  notices : Notices st now subs row.id "payment.initiated" (paymentResponseDict row.toDomain) ds

/-- A payment moves along an allowed edge on `st`, and what goes with it is booked. -/
structure Transition (rt : Runtime) (st : Store) (now : ℕ) (row : PaymentRow) (toStatus : PaymentStatus)
    (fx : Option (Uuid × Numeric 2)) (posting : Option (JournalEntry × Posting))
    (subs : List WebhookSubscription) (ds : List WebhookDeliveryRow) : Prop where
  found : st.payments.find row.id = some row
  allowed : toStatus ∈ allowedTransitions row.status
  booking : Booking st row toStatus fx (posting.map Prod.fst)
  posted : ∀ x ∈ posting, validateJournalEntry x.1.lines = .ok () ∧ x.2.Stores rt st x.1
  notices : Notices st now subs row.id ("payment." ++ toStatus.value)
    (paymentResponseDict (row.moved toStatus fx).toDomain) ds

namespace Deed

/-- The deed is possible on `st`. -/
def Legal (rt : Runtime) (st : Store) (now : ℕ) : Deed → Prop
  | initiate row subs ds completion => (∃ req, Initiation st now req row subs ds) ∧
      ∀ x ∈ completion, x.2 = (paymentResponseDict row.toDomain).json ∧
        (st.idempotencyKeys.find (idempotencyEndpointInitiatePayment, x.1)).isSome = true
  | transition row toStatus _ fx posting subs ds => Transition rt st now row toStatus fx posting subs ds
  | post entry posting => validateJournalEntry entry.lines = .ok () ∧ posting.Stores rt st entry
  | claim key => ∀ row ∈ key, st.idempotencyKeys.find (row.endpoint, row.key) = none
  | reconcile ws => ∀ w ∈ ws, w.ofReconciliation = true

/-- The deed is one that the call commits on `st`, and `v` is what it then returns. -/
def Of (rt : Runtime) (st : Store) (now : ℕ) : Call → Option Value → Deed → Prop
  | .initiatePayment req, v, d => ∃ row subs ds, d = initiate row subs ds none ∧
      Initiation st now req row subs ds ∧ v = some (.payment row.toDomain)
  | .initiatePaymentIdempotent key body req, v, d =>
    (∃ claimed, d = claim claimed ∧ v = none ∧ ∀ row ∈ claimed,
      (∃ id, IdempotencyKeyRow.new id key idempotencyEndpointInitiatePayment (rt.hashRequestBody body) = .ok row) ∧
        st.idempotencyKeys.find (row.endpoint, row.key) = none) ∨
    ∃ row subs ds completion, d = initiate row subs ds completion ∧ Initiation st now req row subs ds ∧
      v = some (.response 201 (paymentResponseDict row.toDomain)) ∧
      ∀ x ∈ completion, x = (key, (paymentResponseDict row.toDomain).json) ∧
        (st.idempotencyKeys.find (idempotencyEndpointInitiatePayment, key)).isSome = true
  | .authorisePayment id _, v, d => ∃ row reason subs ds,
      d = transition row .authorised reason none none subs ds ∧ row.id = id ∧
      Transition rt st now row .authorised none none subs ds ∧
      v = some (.payment (row.moved .authorised none).toDomain)
  | .failPayment id _ _, v, d => ∃ row reason subs ds,
      d = transition row .failed reason none none subs ds ∧ row.id = id ∧
      Transition rt st now row .failed none none subs ds ∧ v = some (.payment (row.moved .failed none).toDomain)
  | .settlePayment id _, v, d => ∃ row reason fx entry posting subs ds,
      d = transition row .settled reason fx (some (entry, posting)) subs ds ∧ row.id = id ∧
      Transition rt st now row .settled fx (some (entry, posting)) subs ds ∧
      v = some (.payment (row.moved .settled fx).toDomain)
  | .reversePayment id _, v, d => ∃ row reason fx entry posting subs ds,
      d = transition row .reversed reason fx (some (entry, posting)) subs ds ∧ row.id = id ∧
      Transition rt st now row .reversed fx (some (entry, posting)) subs ds ∧
      v = some (.payment (row.moved .reversed fx).toDomain)
  | .postJournalEntry entry _, v, d => ∃ posting, d = post entry posting ∧
      validateJournalEntry entry.lines = .ok () ∧ posting.Stores rt st entry ∧ v = some (.entryId posting.entry.id)
  | .runReconciliation _ _ _ _, v, d => ∃ ws runId result, d = reconcile ws ∧
      (∀ w ∈ ws, w.ofReconciliation = true) ∧ v = some (.run runId result)

theorem Of.legal {rt : Runtime} {st : Store} {now : ℕ} {call : Call} {v : Option Value} {d : Deed}
    (h : d.Of rt st now call v) : d.Legal rt st now := by
  cases call with
  | initiatePayment req =>
    obtain ⟨row, subs, ds, rfl, hi, -⟩ := h
    exact ⟨⟨req, hi⟩, by simp⟩
  | initiatePaymentIdempotent key body req =>
    rcases h with ⟨claimed, rfl, -, hk⟩ | ⟨row, subs, ds, completion, rfl, hi, -, hc⟩
    · intro row hrow
      exact (hk row hrow).2
    · refine ⟨⟨req, hi⟩, ?_⟩
      intro x hx
      obtain ⟨rfl, hfind⟩ := hc x hx
      exact ⟨rfl, hfind⟩
  | authorisePayment id n =>
    obtain ⟨row, reason, subs, ds, rfl, -, ht, -⟩ := h
    exact ht
  | failPayment id reason n =>
    obtain ⟨row, reason, subs, ds, rfl, -, ht, -⟩ := h
    exact ht
  | settlePayment id n =>
    obtain ⟨row, reason, fx, entry, posting, subs, ds, rfl, -, ht, -⟩ := h
    exact ht
  | reversePayment id n =>
    obtain ⟨row, reason, fx, entry, posting, subs, ds, rfl, -, ht, -⟩ := h
    exact ht
  | postJournalEntry entry n =>
    obtain ⟨posting, rfl, hv, hp, -⟩ := h
    exact ⟨hv, hp⟩
  | runReconciliation batchId records windowStart windowEnd =>
    obtain ⟨ws, runId, result, rfl, hws, -⟩ := h
    exact hws

end Deed

section Frames

variable {st : Store} {ws : List Write}

theorem hasDelivery_after {id : Uuid} (h : ∀ d, .insertDelivery d ∉ ws) :
    (st.after ws).hasDelivery id = st.hasDelivery id := by
  apply st.after_eq fun st => st.hasDelivery id
  intro w hw st
  cases w with
  | insertDelivery d => exact absurd hw (h d)
  | _ => rfl

theorem hasEntry_after {id : Uuid} (h : ∀ row, .insertEntry row ∉ ws) :
    (st.after ws).hasEntry id = st.hasEntry id := by
  apply st.after_eq fun st => st.hasEntry id
  intro w hw st
  cases w with
  | insertEntry row => exact absurd hw (h row)
  | _ => rfl

theorem Notices.before {now : ℕ} {subs : List WebhookSubscription} {id : Uuid} {eventType : String}
    {payload : PyDict} {ds : List WebhookDeliveryRow} (h : Notices (st.after ws) now subs id eventType payload ds)
    (hws : ∀ d, .insertDelivery d ∉ ws) : Notices st now subs id eventType payload ds := by
  refine ⟨?_, h.nodup, h.rows⟩
  intro d hd
  rw [← hasDelivery_after hws]
  exact h.fresh d hd

theorem Posting.Stores.before {rt : Runtime} {entry : JournalEntry} {p : Posting}
    (h : p.Stores rt (st.after ws) entry) (hws : ∀ row, .insertEntry row ∉ ws) : p.Stores rt st entry := by
  refine ⟨?_, h.paymentId, h.lines, h.accounts, ?_⟩
  · rw [← hasEntry_after hws]
    exact h.fresh
  · intro id hid
    rw [← hasAccount_after st ws]
    exact h.exist id hid

end Frames

/-- The subscriptions that a statement has returned as active. -/
def Event.subscriptions (e : Event postgres) : List WebhookSubscription :=
  match e with
  | ⟨.selectActiveSubscriptions, subs, _, _⟩ => subs
  | _ => []

def subscriptionsRead (tx : List (Event postgres)) : List WebhookSubscription :=
  tx.flatMap Event.subscriptions

theorem subscriptions_of_ne {e : Event postgres} (h : e.stmt ≠ .selectActiveSubscriptions) :
    e.subscriptions = [] := by
  obtain ⟨s, r, ws, n⟩ := e
  cases s with
  | selectActiveSubscriptions => exact absurd rfl h
  | _ => rfl

theorem subscriptionsRead_nil {t : List (Event postgres)} (h : ∀ e ∈ t, e.stmt ≠ .selectActiveSubscriptions) :
    subscriptionsRead t = [] := by
  apply List.flatMap_eq_nil_iff.mpr
  intro e he
  exact subscriptions_of_ne (h e he)

theorem subscriptionsRead_append (t t' : List (Event postgres)) :
    subscriptionsRead (t ++ t') = subscriptionsRead t ++ subscriptionsRead t' := List.flatMap_append

theorem Did.unsubscribed {s : Stmt} {r : s.Res} {e : Event postgres} (h : Did s r e)
    (hs : s ≠ .selectActiveSubscriptions) : e.stmt ≠ .selectActiveSubscriptions := by
  rw [h.stmt]
  exact hs

/-- The segment that enqueues the deliveries reads the subscriptions once. -/
theorem subscriptionsRead_enqueued {e : Event postgres} {td : List (Event postgres)}
    {subs : List WebhookSubscription} (hd : Did .selectActiveSubscriptions subs e)
    (h : ∀ e ∈ td, e.stmt ≠ .selectActiveSubscriptions) : subscriptionsRead (e :: td) = subs := by
  obtain ⟨ws, n, rfl⟩ := hd
  have hrest := subscriptionsRead_nil h
  rw [subscriptionsRead] at hrest ⊢
  rw [List.flatMap_cons, hrest, List.append_nil]
  rfl

section Summaries

variable {before : Store} {b : ℕ} {tx : List (Event postgres)}

theorem Created.stored {req : NewPayment} {p : Payment} (h : Created req p tx)
    (hr : Each (Replayed before b) [] tx) : ∃ row subs ds, p = row.toDomain ∧
      writesOf tx = (Deed.initiate row subs ds none).writes b ∧ Initiation before b req row subs ds ∧
      subscriptionsRead tx = subs := by
  obtain ⟨a, id, row, e₁, e₂, e₃, e₄, te, rfl, h₁, ha, h₂, h₃, rfl, h₄, hq⟩ := h
  obtain ⟨hr₁, hr₂, hr₃, hr₄, hr⟩ := hr
  obtain ⟨hcur, hws₁⟩ := account_read hr₁ h₁
  obtain ⟨f₂, c₂, r₂, hsame₂, hev₂⟩ := hr₂.eval h₂
  obtain ⟨hid₂, hfresh, -, hcred, row₂, hrow₂, hws₂⟩ := eval_insertPayment.mp hev₂
  obtain ⟨f₃, c₃, r₃, hsame₃, hev₃⟩ := hr₃.eval h₃
  obtain ⟨hread, hws₃⟩ := eval_selectPayment.mp hev₃
  obtain ⟨f₄, c₄, r₄, -, hev₄⟩ := hr₄.eval h₄
  obtain ⟨-, hist, hhist, hws₄⟩ := eval_insertHistory.mp hev₄
  obtain ⟨subs, ds, hwd, hnotices, e, td, rfl, hdid, hrest⟩ := hq.stored hr
  have hid : row₂.id = id := by
    obtain ⟨_, -, _, -, _, -, rfl⟩ := PaymentRow.new_ok.mp hrow₂
    exact hid₂.symm.trans hsame₂
  have hw₁₂ : writesOf ([] ++ [e₁] ++ [e₂]) = [Write.insertPayment row₂] := by simp [hws₁, hws₂]
  have hbefore : before.payments.find row₂.id = none := by
    have hno : (before.after (writesOf ([] ++ [e₁]))).hasPayment c₂.id = false := hfresh
    rw [show writesOf ([] ++ [e₁]) = [] by simp [hws₁], Store.after_nil,
      show c₂.id = row₂.id from (hid₂.symm.trans hsame₂).trans hid.symm] at hno
    simpa [Store.hasPayment] using hno
  have hsame : row = row₂ := by
    have hfind : (before.after (writesOf ([] ++ [e₁] ++ [e₂]))).payments.find id = some row := by
      rw [show some row = r₃ from hsame₃.symm, hread]
    rw [hw₁₂, ← hid] at hfind
    simp only [Store.after_cons, Store.after_nil, Write.apply, Write.onPayments, Table.find_insert hbefore,
      if_true, Option.some.injEq] at hfind
    exact hfind.symm
  subst hsame
  obtain ⟨_, hreason, rfl⟩ := StatusHistoryRow.new_ok.mp hhist
  cases hreason
  refine ⟨row, subs, ds, rfl, ?_, ⟨hbefore, ?_, ?_, ?_, ?_⟩, ?_⟩
  · rw [writesOf_cons, writesOf_cons, writesOf_cons, writesOf_cons, hws₁, hws₂, hws₃, hws₄, hwd]
    simp [Deed.writes, PaymentRow.toDomain]
  · rw [show c₂.id = row.id from (hid₂.symm.trans hsame₂).trans hid.symm] at hrow₂
    exact hrow₂
  · rw [← ha]
    exact hcur
  · have hc : (before.after (writesOf ([] ++ [e₁]))).hasAccount req.creditorAccountId = true := hcred
    rwa [hasAccount_after] at hc
  · apply hnotices.before
    intro d
    simp [hws₁, hws₂, hws₃, hws₄]
  · have hpre : subscriptionsRead [e₁, e₂, e₃, e₄] = [] := by
      apply subscriptionsRead_nil
      intro e he
      simp only [List.mem_cons, List.not_mem_nil, or_false] at he
      rcases he with rfl | rfl | rfl | rfl
      · exact h₁.unsubscribed (by simp)
      · exact h₂.unsubscribed (by simp)
      · exact h₃.unsubscribed (by simp)
      · exact h₄.unsubscribed (by simp)
    have happ := subscriptionsRead_append [e₁, e₂, e₃, e₄] (e :: td)
    rw [hpre, subscriptionsRead_enqueued hdid hrest] at happ
    exact happ

/-- The payment that a transaction reads first. -/
theorem payment_found {id : Uuid} {row : PaymentRow} {e : Event postgres} (h : Replayed before b [] e)
    (hd : Did (.selectPayment id) (some row) e) : before.payments.find id = some row ∧ e.writes = [] := by
  obtain ⟨f, c, r, hsame, hev⟩ := h.eval hd
  obtain ⟨hread, hws⟩ := eval_selectPayment.mp hev
  refine ⟨?_, hws⟩
  rw [show some row = r from hsame.symm]
  exact hread.symm

theorem status_written {pre : List (Event postgres)} {id : Uuid} {v : ℕ} {status : PaymentStatus}
    {e : Event postgres} (h : Replayed before b pre e) (hd : Did (.updatePaymentStatus id v status) true e) :
    e.writes = [.setStatus id status] := by
  obtain ⟨f, c, r, hsame, hev⟩ := h.eval hd
  rcases eval_updatePaymentStatus.mp hev with ⟨-, hws, -⟩ | ⟨hf, -⟩
  · exact hws
  · rw [show r = true from hsame] at hf
    cases hf

theorem history_written {pre : List (Event postgres)} {id : Uuid} {fromStatus : Option PaymentStatus}
    {toStatus : PaymentStatus} {reason : Option PyStr} {e : Event postgres} (h : Replayed before b pre e)
    (hd : Did (.insertHistory id fromStatus toStatus reason) () e) :
    ∃ reason', nullable pyText reason = .ok reason' ∧
      e.writes = [.insertHistory ⟨id, fromStatus, toStatus, b, reason'⟩] := by
  obtain ⟨f, c, r, -, hev⟩ := h.eval hd
  obtain ⟨-, hist, hhist, hws⟩ := eval_insertHistory.mp hev
  obtain ⟨reason', hreason, rfl⟩ := StatusHistoryRow.new_ok.mp hhist
  exact ⟨reason', hreason, hws⟩

theorem Transitioned.stored (rt : Runtime) {id : Uuid} {toStatus : PaymentStatus} {reason : Option PyStr}
    {p : Payment} (h : Transitioned id toStatus reason p tx) (hr : Each (Replayed before b) [] tx)
    (hb : ∀ row, Booking before row toStatus none none) : ∃ row reason' subs ds, row.id = id ∧
      p = (row.moved toStatus none).toDomain ∧
      writesOf tx = (Deed.transition row toStatus reason' none none subs ds).writes b ∧
      Transition rt before b row toStatus none none subs ds ∧ subscriptionsRead tx = subs := by
  obtain ⟨row, e₁, e₂, e₃, te, rfl, h₁, hallowed, h₂, h₃, rfl, hq⟩ := h
  obtain ⟨hr₁, hr₂, hr₃, hr⟩ := hr
  obtain ⟨hfound, hws₁⟩ := payment_found hr₁ h₁
  have hws₂ := status_written hr₂ h₂
  obtain ⟨reason', -, hws₃⟩ := history_written hr₃ h₃
  obtain ⟨subs, ds, hwd, hnotices, e, td, rfl, hdid, hrest⟩ := hq.stored hr
  obtain rfl : row.id = id := Table.find_key hfound
  refine ⟨row, reason', subs, ds, rfl, rfl, ?_, ⟨hfound, hallowed, hb row, by simp, ?_⟩, ?_⟩
  · rw [writesOf_cons, writesOf_cons, writesOf_cons, hws₁, hws₂, hws₃, hwd]
    simp [Deed.writes, fxWrites]
  · apply hnotices.before
    intro d
    simp [hws₁, hws₂, hws₃]
  · have hpre : subscriptionsRead [e₁, e₂, e₃] = [] := by
      apply subscriptionsRead_nil
      intro e he
      simp only [List.mem_cons, List.not_mem_nil, or_false] at he
      rcases he with rfl | rfl | rfl
      · exact h₁.unsubscribed (by simp)
      · exact h₂.unsubscribed (by simp)
      · exact h₃.unsubscribed (by simp)
    have happ := subscriptionsRead_append [e₁, e₂, e₃] (e :: td)
    rw [hpre, subscriptionsRead_enqueued hdid hrest] at happ
    exact happ

/-- What `settlementLines` and `reversalLines` have in common: the statements they execute book what
goes with the transition. -/
structure Books (before : Store) (b : ℕ) (toStatus : PaymentStatus)
    (buildLines : Payment → App BuildLinesResult) : Prop where
  booked : ∀ (row : PaymentRow) built t pre, Path (buildLines row.toDomain) t (.ret built) →
    Each (Replayed before b) pre t → validateJournalEntry built.2.1 = .ok () →
    before.hasPayment row.id = true → ∃ fx, writesOf t = fxWrites row.id fx ∧
      built.2.2 = fx.map (fun x => (x.1, x.2.toDecimal)) ∧ Booking before row toStatus fx
        (some { entryType := built.1, lines := built.2.1, paymentId := some row.id })
  unsubscribed : ∀ p built t, Path (buildLines p) t (.ret built) → ∀ e ∈ t, e.stmt ≠ .selectActiveSubscriptions

theorem settlementLines_books : Books before b .settled settlementLines where
  booked := fun _ _ _ _ h hr hv hp => settlementLines_booking h hr hv hp
  unsubscribed := by
    intro p built t h
    apply settlementLines_forall h (Q := fun s => s ≠ .selectActiveSubscriptions) <;> simp

theorem reversalLines_books : Books before b .reversed reversalLines where
  booked := by
    intro row built t pre h hr _ _
    obtain ⟨hw, hf, hbook⟩ := reversalLines_booking h hr
    exact ⟨none, by simp [hw, fxWrites], by simp [hf], hbook⟩
  unsubscribed := by
    intro p built t h
    apply reversalLines_forall h (Q := fun s => s ≠ .selectActiveSubscriptions) <;> simp

theorem not_mem_fxWrites {id : Uuid} {fx : Option (Uuid × Numeric 2)} {w : Write}
    (h : ∀ i r n, w ≠ .setFxDetails i r n) : w ∉ fxWrites id fx := by
  intro hw
  obtain ⟨x, -, hx⟩ := List.mem_map.mp hw
  exact h _ _ _ hx.symm

theorem Moved.stored {rt : Runtime} {id : Uuid} {toStatus : PaymentStatus}
    {buildLines : Payment → App BuildLinesResult} {p : Payment} (h : Moved rt id toStatus buildLines p tx)
    (hr : Each (Replayed before b) [] tx) (hb : Books before b toStatus buildLines) :
    ∃ row fx entry posting reason subs ds, row.id = id ∧ p = (row.moved toStatus fx).toDomain ∧
      writesOf tx = (Deed.transition row toStatus reason fx (some (entry, posting)) subs ds).writes b ∧
      Transition rt before b row toStatus fx (some (entry, posting)) subs ds ∧
      subscriptionsRead tx = subs := by
  obtain ⟨row, built, u, e₁, tb, tp, e₂, e₃, te, rfl, h₁, hallowed, hbuilt, hvalid, hp, h₂, h₃, rfl, hq⟩ := h
  obtain ⟨hr₁, hr⟩ := hr
  rw [each_append, each_append] at hr
  obtain ⟨hrb, hrp, hr₂, hr₃, hr⟩ := hr
  obtain ⟨hfound, hws₁⟩ := payment_found hr₁ h₁
  obtain rfl : row.id = id := Table.find_key hfound
  have hthere : before.hasPayment row.id = true := by
    rw [Store.hasPayment, hfound]
    rfl
  obtain ⟨fx, hwb, hfx, hbook⟩ := hb.booked row built tb _ hbuilt hrb hvalid hthere
  obtain ⟨posting, hwp, -, hposting⟩ := hp.stored hrp
  have hws₂ := status_written hr₂ h₂
  obtain ⟨reason, -, hws₃⟩ := history_written hr₃ h₃
  obtain ⟨subs, ds, hwd, hnotices, e, td, rfl, hdid, hrest⟩ := hq.stored hr
  have hmoved : row.toDomain.moved toStatus built.2.2 = (row.moved toStatus fx).toDomain := by
    rw [hfx]
    exact moved_toDomain row toStatus fx
  have hpre : writesOf ([] ++ [e₁] ++ tb) = fxWrites row.id fx := by simp [hws₁, hwb]
  refine ⟨row, fx, { entryType := built.1, lines := built.2.1, paymentId := some row.id }, posting, reason,
    subs, ds, rfl, hmoved, ?_, ⟨hfound, hallowed, hbook, ?_, ?_⟩, ?_⟩
  · rw [writesOf_cons, writesOf_append, writesOf_append, writesOf_cons, writesOf_cons, hws₁, hwb, hwp, hws₂,
      hws₃, hwd]
    simp [Deed.writes]
  · intro x hx
    obtain rfl := Option.some.inj hx
    refine ⟨hvalid, ?_⟩
    rw [hpre] at hposting
    apply hposting.before
    intro r
    exact not_mem_fxWrites (by simp)
  · rw [← hmoved]
    apply hnotices.before
    intro d
    have hfxd : .insertDelivery d ∉ fxWrites row.id fx := not_mem_fxWrites (by simp)
    simp [hws₁, hwb, hwp, hws₂, hws₃, hfxd, Posting.writes]
  · have hpre : subscriptionsRead (e₁ :: (tb ++ (tp ++ [e₂, e₃]))) = [] := by
      apply subscriptionsRead_nil
      intro e he
      simp only [List.mem_cons, List.mem_append, List.not_mem_nil, or_false] at he
      rcases he with rfl | he | he | rfl | rfl
      · exact h₁.unsubscribed (by simp)
      · exact hb.unsubscribed _ _ _ hbuilt e he
      · apply hp.forall (Q := fun s => s ≠ .selectActiveSubscriptions) _ _ _ _ e he <;> simp
      · exact h₂.unsubscribed (by simp)
      · exact h₃.unsubscribed (by simp)
    have happ := subscriptionsRead_append (e₁ :: (tb ++ (tp ++ [e₂, e₃]))) (e :: td)
    rw [hpre, subscriptionsRead_enqueued hdid hrest] at happ
    simpa using happ

theorem key_after {st : Store} {ws : List Write} {k : String × String}
    (h : ∀ w ∈ ws, w.locked ≠ some (.idempotencyKey k.1 k.2)) :
    (st.after ws).idempotencyKeys.find k = st.idempotencyKeys.find k := by
  apply st.after_eq fun st => st.idempotencyKeys.find k
  intro w hw st
  exact key_frame (h w hw)

theorem Claimed.stored {key hash : String} {req : NewPayment} {outcome : IdempotencyOutcome}
    (h : Claimed key hash req outcome tx) (hw : Each (Witnessed before b) [] tx) :
    ∃ claimed : Option IdempotencyKeyRow, writesOf tx = (Deed.claim claimed).writes b ∧
      (outcome = .started → claimed.isSome = true) ∧ ∀ row ∈ claimed,
        (∃ id, IdempotencyKeyRow.new id key idempotencyEndpointInitiatePayment hash = .ok row) ∧
          before.idempotencyKeys.find (row.endpoint, row.key) = none := by
  obtain ⟨a, e₁, e₂, tr, rfl, h₁, hcase⟩ := h
  obtain ⟨⟨st₁, c₁, -, hev₁, -⟩, hw₂, hw⟩ := hw
  obtain ⟨-, hws₁⟩ := eval_selectAccount.mp (h₁.eval hev₁)
  rcases hcase with ⟨-, rfl, h₂⟩ | ⟨e₃, existing, rfl, h₂, h₃, hout⟩
  · obtain ⟨st₂, c₂, hdrift, hev₂, -⟩ := hw₂
    obtain ⟨-, row, hrow, hcase⟩ := eval_insertIdempotencyKey.mp (h₂.eval hev₂)
    rcases hcase with ⟨-, hnone, hws₂⟩ | ⟨hf, -⟩
    · refine ⟨some row, by simp [hws₁, hws₂, Deed.writes], by simp, ?_⟩
      intro row' hrow'
      obtain rfl := Option.some.inj hrow'
      refine ⟨⟨c₂.id, hrow⟩, ?_⟩
      have hlock : RowKey.idempotencyKey row.endpoint row.key ∈ locksOf (D := postgres) ([] ++ [e₁] ++ [e₂]) :=
        mem_locksOf_snoc (by rw [hws₂]; exact List.mem_singleton_self _) rfl
      have hheld := hdrift.key_held _ _ hlock
      rw [hnone, show writesOf ([] ++ [e₁]) = [] by simp [hws₁]] at hheld
      exact hheld
    · cases hf
  · obtain ⟨st₂, c₂, -, hev₂, -⟩ := hw₂
    obtain ⟨⟨st₃, c₃, -, hev₃, -⟩, -⟩ := hw
    obtain ⟨-, hws₃⟩ := eval_selectIdempotencyKey.mp (h₃.eval hev₃)
    obtain ⟨-, row, -, hcase⟩ := eval_insertIdempotencyKey.mp (h₂.eval hev₂)
    rcases hcase with ⟨hf, -⟩ | ⟨-, -, hws₂⟩
    · cases hf
    · refine ⟨none, by simp [hws₁, hws₂, hws₃, Deed.writes], ?_, by simp⟩
      intro hstarted
      rw [hstarted] at hout
      split at hout
      · cases hout
      · split at hout
        · cases hout
        · cases hout

theorem Completed.stored {key : String} {req : NewPayment} {p : Payment} (h : Completed key req p tx)
    (hw : Each (Witnessed before b) [] tx) : ∃ row subs ds completion, p = row.toDomain ∧
      writesOf tx = (Deed.initiate row subs ds completion).writes b ∧ Initiation before b req row subs ds ∧
      subscriptionsRead tx = subs ∧
      ∀ x ∈ completion, x = (key, (paymentResponseDict row.toDomain).json) ∧
        (before.idempotencyKeys.find (idempotencyEndpointInitiatePayment, key)).isSome = true := by
  obtain ⟨tc, e, rfl, hc, hd⟩ := h
  rw [each_append] at hw
  obtain ⟨hwc, ⟨st, c, hdrift, hev, -⟩, -⟩ := hw
  obtain ⟨row, subs, ds, rfl, hwrites, hinit, hread⟩ := hc.stored (hwc.replayed (hc.sound hwc))
  have hsubs : subscriptionsRead (tc ++ [e]) = subs := by
    have hnone : subscriptionsRead [e] = [] := by
      apply subscriptionsRead_nil
      intro e' he'
      obtain rfl := List.mem_singleton.mp he'
      exact hd.unsubscribed (by simp)
    rw [subscriptionsRead_append, hread, hnone, List.append_nil]
  rcases eval_updateIdempotencyKey.mp (hd.eval hev) with ⟨hsome, hws⟩ | ⟨-, hws⟩
  · refine ⟨row, subs, ds, some (key, (paymentResponseDict row.toDomain).json), rfl, ?_, hinit, hsubs, ?_⟩
    · rw [writesOf_append, hwrites, writesOf_cons, hws]
      simp [Deed.writes]
    · intro x hx
      refine ⟨(Option.some.inj hx).symm, ?_⟩
      have hlock :
          RowKey.idempotencyKey idempotencyEndpointInitiatePayment key ∈ locksOf (D :=
            postgres) ([] ++ tc ++ [e]) :=
        mem_locksOf_snoc (by rw [hws]; exact List.mem_singleton_self _) rfl
      have hheld := hdrift.key_held _ _ hlock
      rw [← hheld, List.nil_append, hwrites, key_after] at hsome
      · exact hsome
      · intro w hw
        simp only [Deed.writes, Option.toList_none, List.map_nil, List.append_nil,
          List.mem_cons, List.mem_map] at hw
        rcases hw with rfl | rfl | ⟨d, -, rfl⟩ <;> simp [Write.locked]
  · exact ⟨row, subs, ds, none, rfl, by rw [writesOf_append, hwrites, writesOf_cons, hws]; simp, hinit, hsubs,
      by simp⟩

theorem Reconciled.stored {batchId : Uuid} {windowStart windowEnd : ℕ}
    (h : Reconciled batchId windowStart windowEnd tx) (hr : Ran b tx) :
    (∀ w ∈ writesOf tx, w.ofReconciliation = true) ∧ subscriptionsRead tx = [] := by
  have hall : ∀ e ∈ tx, (∀ w, e.stmt.Writes w → w.ofReconciliation = true) ∧
      e.stmt ≠ .selectActiveSubscriptions := by
    obtain ⟨settled, tr, e₁, e₂, tb, rfl, hr, h₁, ⟨m, k, runId, h₂⟩, hb⟩ := h
    intro e he
    simp only [List.mem_append, List.mem_cons] at he
    rcases he with he | rfl | rfl | he
    · obtain ⟨record, hd⟩ := hr e he
      rw [hd.stmt]
      refine ⟨?_, by simp⟩
      intro w hw
      obtain ⟨row, rfl⟩ := hw
      rfl
    · rw [h₁.stmt]
      refine ⟨?_, by simp⟩
      intro w hw
      exact hw.elim
    · rw [h₂.stmt]
      refine ⟨?_, by simp⟩
      intro w hw
      obtain ⟨row, rfl⟩ := hw
      rfl
    · obtain ⟨u, k, hd⟩ := hb e he
      rw [hd.stmt]
      refine ⟨?_, by simp⟩
      intro w hw
      obtain ⟨row, rfl⟩ := hw
      rfl
  constructor
  · intro w hw
    obtain ⟨e, he, -, hwe⟩ := hr.writes hw
    exact (hall e he).1 w hwe
  · apply subscriptionsRead_nil
    intro e he
    exact (hall e he).2

/-- Every committed transaction is a deed of its call. -/
theorem Call.Shape.deed {rt : Runtime} {call : Call} {v : Option Value} (h : call.Shape rt tx v)
    (hw : Each (Witnessed before b) [] tx) : ∃ d : Deed, writesOf tx = d.writes b ∧
      d.Of rt before b call v ∧ subscriptionsRead tx = d.subscriptions := by
  cases call with
  | initiatePayment req =>
    obtain ⟨p, rfl, h⟩ := h
    obtain ⟨row, subs, ds, rfl, hwrites, hinit, hsubs⟩ := h.stored (hw.replayed (h.sound hw))
    exact ⟨_, hwrites, ⟨row, subs, ds, rfl, hinit, rfl⟩, hsubs⟩
  | initiatePaymentIdempotent key body req =>
    rcases h with ⟨outcome, rfl, h⟩ | ⟨p, rfl, h⟩
    · obtain ⟨claimed, hwrites, -, hclaimed⟩ := h.stored hw
      refine ⟨.claim claimed, hwrites, .inl ⟨claimed, rfl, rfl, hclaimed⟩, ?_⟩
      apply subscriptionsRead_nil
      obtain ⟨a, e₁, e₂, tr, rfl, h₁, ⟨-, rfl, h₂⟩ | ⟨e₃, existing, rfl, h₂, h₃, -⟩⟩ := h
      · intro e he
        simp only [List.mem_cons, List.not_mem_nil, or_false] at he
        rcases he with rfl | rfl
        · exact h₁.unsubscribed (by simp)
        · exact h₂.unsubscribed (by simp)
      · intro e he
        simp only [List.mem_cons, List.not_mem_nil, or_false] at he
        rcases he with rfl | rfl | rfl
        · exact h₁.unsubscribed (by simp)
        · exact h₂.unsubscribed (by simp)
        · exact h₃.unsubscribed (by simp)
    · obtain ⟨row, subs, ds, completion, rfl, hwrites, hinit, hsubs, hc⟩ := h.stored hw
      exact ⟨_, hwrites, .inr ⟨row, subs, ds, completion, rfl, hinit, rfl, hc⟩, hsubs⟩
  | authorisePayment id n =>
    obtain ⟨p, rfl, h⟩ := h
    obtain ⟨row, reason, subs, ds, hid, rfl, hwrites, ht, hsubs⟩ :=
      h.stored rt (hw.replayed (h.sound hw)) fun _ => .authorise
    exact ⟨_, hwrites, ⟨row, reason, subs, ds, rfl, hid, ht, rfl⟩, hsubs⟩
  | failPayment id reason n =>
    obtain ⟨p, rfl, h⟩ := h
    obtain ⟨row, reason, subs, ds, hid, rfl, hwrites, ht, hsubs⟩ :=
      h.stored rt (hw.replayed (h.sound hw)) fun _ => .fail
    exact ⟨_, hwrites, ⟨row, reason, subs, ds, rfl, hid, ht, rfl⟩, hsubs⟩
  | settlePayment id n =>
    obtain ⟨p, rfl, h⟩ := h
    obtain ⟨row, fx, entry, posting, reason, subs, ds, hid, rfl, hwrites, ht, hsubs⟩ :=
      h.stored (hw.replayed (h.sound (fun _ _ _ _ hp hr => settlementLines_sound hp hr) hw))
        settlementLines_books
    exact ⟨_, hwrites, ⟨row, reason, fx, entry, posting, subs, ds, rfl, hid, ht, rfl⟩, hsubs⟩
  | reversePayment id n =>
    obtain ⟨p, rfl, h⟩ := h
    obtain ⟨row, fx, entry, posting, reason, subs, ds, hid, rfl, hwrites, ht, hsubs⟩ :=
      h.stored (hw.replayed (h.sound (fun _ _ _ _ hp _ => reversalLines_sound hp) hw)) reversalLines_books
    exact ⟨_, hwrites, ⟨row, reason, fx, entry, posting, subs, ds, rfl, hid, ht, rfl⟩, hsubs⟩
  | postJournalEntry entry n =>
    obtain ⟨u, rfl, hv, h⟩ := h
    obtain ⟨posting, hwrites, rfl, hposting⟩ := h.stored (hw.replayed (h.sound hw))
    refine ⟨.post entry posting, hwrites, ⟨posting, rfl, hv, hposting, rfl⟩, ?_⟩
    apply subscriptionsRead_nil
    apply h.forall (Q := fun s => s ≠ .selectActiveSubscriptions) <;> simp
  | runReconciliation batchId records windowStart windowEnd =>
    obtain ⟨runId, result, rfl, h⟩ := h
    have hran : Ran b tx := by
      intro e he
      obtain ⟨pre, st, c, -, hev, -⟩ := hw.of_mem he
      exact ⟨st, c, hev⟩
    obtain ⟨hwrites, hsubs⟩ := h.stored hran
    exact ⟨.reconcile (writesOf tx), rfl, ⟨_, runId, result, rfl, hwrites, rfl⟩, hsubs⟩

end Summaries

section Commits

variable {ι : Type} [DecidableEq ι] {rt : Runtime} {step : Feed → Feed → Prop} {st₀ : Store}
  {calls : ι → Call} {σ : Config postgres ι Value}

/-- The transaction of the commit is this deed of its caller, which then returns `v`. -/
structure Commit.Does (rt : Runtime) (calls : ι → Call) (c : Commit postgres ι) (v : Option Value) (d : Deed) :
    Prop where
  shape : (calls c.caller).Shape rt c.tx v
  writes : writesOf c.tx = d.writes c.began
  deed : d.Of rt c.before c.began (calls c.caller) v
  subscriptions : subscriptionsRead c.tx = d.subscriptions

theorem WellFormed.deed (h : WellFormed (feedEnv step) st₀ (fun i => (calls i).prog rt) σ)
    {l l' : List (Commit postgres ι)} {c : Commit postgres ι} (hl : σ.world.log = l ++ c :: l')
    {v : Option Value} (hs : (calls c.caller).Shape rt c.tx v) : ∃ d, c.Does rt calls v d := by
  obtain ⟨d, hw, ho, hsubs⟩ := hs.deed (h.witnessed hl)
  exact ⟨d, hs, hw, ho, hsubs⟩

theorem WellFormed.does (h : WellFormed (feedEnv step) st₀ (fun i => (calls i).prog rt) σ)
    {c : Commit postgres ι} (hc : c ∈ σ.world.log) : ∃ v d, c.Does rt calls v d := by
  obtain ⟨v, hs⟩ := h.shape hc
  obtain ⟨l, l', hl⟩ := List.append_of_mem hc
  obtain ⟨d, hd⟩ := h.deed hl hs
  exact ⟨v, d, hd⟩

/-- An invariant of every store of the past and its log, from what every deed keeps. -/
theorem WellFormed.invariant_past (h : WellFormed (feedEnv step) st₀ (fun i => (calls i).prog rt) σ)
    (P : List (Commit postgres ι) → Store → Prop) (h₀ : P [] st₀)
    (hf : ∀ l st f, P l st → P l { st with feed := f })
    (hc : ∀ l c v d, c.Does rt calls v d → P l c.before → P (l ++ [c]) (c.before.after (d.writes c.began)))
    {log : List (Commit postgres ι)} {st : Store} (hlog : log <+: σ.world.log)
    (hst : History (feedEnv step) st₀ log st) : P log st := by
  obtain ⟨rest, hrest⟩ := hlog
  apply hst.invariant P h₀
  · intro l st st' hP he
    obtain ⟨f, -, rfl⟩ := he
    exact hf l st f hP
  · intro l c l' hl hP
    have hσ : σ.world.log = l ++ c :: (l' ++ rest) := by
      rw [← hrest, hl]
      simp
    obtain ⟨v, d, hd⟩ := h.does (by rw [hσ]; simp : c ∈ σ.world.log)
    have hafter : c.after = c.before.after (d.writes c.began) := by
      rw [← hd.writes]
      rfl
    rw [hafter]
    exact hc l c v d hd hP

/-- An invariant of the log and the committed store. -/
theorem WellFormed.invariant (h : WellFormed (feedEnv step) st₀ (fun i => (calls i).prog rt) σ)
    (P : List (Commit postgres ι) → Store → Prop) (h₀ : P [] st₀)
    (hf : ∀ l st f, P l st → P l { st with feed := f })
    (hc : ∀ l c v d, c.Does rt calls v d → P l c.before → P (l ++ [c]) (c.before.after (d.writes c.began))) :
    P σ.world.log σ.world.store :=
  h.invariant_past P h₀ hf hc (List.prefix_refl _) h.history

end Commits
end PaymentLedger
