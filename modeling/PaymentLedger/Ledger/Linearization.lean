import PaymentLedger.Ledger.Bank
import PaymentLedger.Payments.Requests

namespace PaymentLedger

/-- The payment of a row, as the bank knows it. -/
def PaymentRow.bankPayment (row : PaymentRow) : BankPayment where
  id := row.id
  debtor := row.debtorAccountId
  creditor := row.creditorAccountId
  amount := row.amount.cents
  currency := row.currency
  endToEndId := row.endToEndId
  status := row.status
  converted := row.creditorAmount.map Numeric.units

/-- The bank that a store stands for. -/
def Store.bank (st : Store) : Bank where
  currencyOf := st.currencyOf
  suspense := st.suspense
  payments := st.payments.map PaymentRow.bankPayment fun _ => rfl
  balance := netOn st.journalLines

def JournalLineRow.bankLine (l : JournalLineRow) : Uuid × String × ℤ := (l.accountId, l.currency, l.signedCents)

/-- The payment that a request opens. -/
structure NewPayment.Opens (req : NewPayment) (p : BankPayment) : Prop where
  debtor : p.debtor = req.debtorAccountId
  creditor : p.creditor = req.creditorAccountId
  currency : p.currency = req.currency
  amount : ∃ a, Amount.ofDecimal req.amount = .ok a ∧ p.amount = a.cents
  endToEndId : nullable (varchar 35) req.endToEndId = .ok p.endToEndId

/-- The event that a transaction of the call is. -/
def Call.Performs : Call → BankEvent → Prop
  | .initiatePayment req, e => ∃ p, e = .initiate p ∧ req.Opens p
  | .initiatePaymentIdempotent _ _ req, e => e = .aside ∨ ∃ p, e = .initiate p ∧ req.Opens p
  | .authorisePayment id _, e => e = .authorise id
  | .failPayment id _ _, e => e = .fail id
  | .settlePayment id _, e => ∃ converted, e = .settle id converted
  | .reversePayment id _, e => e = .reverse id
  | .postJournalEntry entry _, e => ∃ id rows,
      List.Forall₂ (fun line row => JournalLineRow.new id line = .ok row) entry.lines rows ∧
        e = .post (rows.map JournalLineRow.bankLine)
  | .runReconciliation _ _ _ _, e => e = .aside

section Effects

variable {rt : Runtime} {st : Store} {now : ℕ} {d : Deed}

theorem find_bank (st : Store) (id : Uuid) :
    st.bank.payments.find id = (st.payments.find id).map PaymentRow.bankPayment :=
  Table.find_map st.payments PaymentRow.bankPayment (fun _ => rfl) id

theorem netOn_bankLines (rows : List JournalLineRow) :
    netOn rows = Bank.postedOn (rows.map JournalLineRow.bankLine) := by
  funext a ccy
  induction rows with
  | nil => rfl
  | cons row rows ih =>
    rw [netOn_cons, ih]
    simp [Bank.postedOn, JournalLineRow.bankLine]

/-- The payments that a deed creates. -/
def Deed.created : Deed → List PaymentRow
  | .initiate row _ _ _ => [row]
  | _ => []

theorem payment_ids_after {ws : List Write}
    (h : ((st.payments.rows ++ ws.filterMap Write.paymentRow).map PaymentRow.id).Nodup) :
    (st.after ws).payments.rows.map PaymentRow.id =
      (st.payments.rows ++ ws.filterMap Write.paymentRow).map PaymentRow.id := by
  induction ws generalizing st with
  | nil => simp
  | cons w ws ih =>
    rw [Store.after_cons]
    cases hw : w.paymentRow with
    | none =>
      have hids : (w.apply st).payments.rows.map PaymentRow.id = st.payments.rows.map PaymentRow.id := by
        cases w with
        | insertPayment row => cases hw
        | setStatus id s =>
          simp only [Write.apply, Write.onPayments]
          exact Table.map_rows_modify _ _ _ _ _ fun _ => rfl
        | setFxDetails id rate n =>
          simp only [Write.apply, Write.onPayments]
          exact Table.map_rows_modify _ _ _ _ _ fun _ => rfl
        | _ => rfl
      rw [List.filterMap_cons, hw, List.map_append] at h ⊢
      rw [ih (by rw [List.map_append, hids]; exact h), List.map_append, hids]
    | some row =>
      obtain rfl : w = .insertPayment row := by
        cases w <;> simp [Write.paymentRow] at hw
        rw [hw]
      have hfresh : st.payments.find row.id = none := by
        rw [Table.find_none_iff]
        intro hmem
        rw [List.filterMap_cons, hw, List.map_append, List.map_cons] at h
        exact (List.nodup_append.mp h).2.2 _ hmem _ List.mem_cons_self rfl
      have hrows : ((Write.insertPayment row).apply st).payments.rows = st.payments.rows ++ [row] :=
        Table.rows_insert hfresh
      rw [List.filterMap_cons, hw] at h ⊢
      rw [ih (by rw [hrows]; simpa using h), hrows]
      simp

theorem Deed.paymentRows (h : d.Legal rt st now) : (d.writes now).filterMap Write.paymentRow = d.created := by
  have hposting (p : Posting) : p.writes.filterMap Write.paymentRow = [] := by
    rw [Posting.writes, List.filterMap_cons, List.filterMap_append,
      filterMap_map_none Write.paymentRow (fun _ => rfl), filterMap_map_none Write.paymentRow (fun _ => rfl)]
    rfl
  have hdeliveries (ds : List WebhookDeliveryRow) : (ds.map Write.insertDelivery).filterMap Write.paymentRow = [] :=
    filterMap_map_none _ (fun _ => rfl) ds
  cases d with
  | initiate row subs ds completion =>
    have hcompletion : (completion.toList.map fun x =>
        Write.completeKey idempotencyEndpointInitiatePayment x.1 201 x.2).filterMap Write.paymentRow = [] :=
      filterMap_map_none _ (fun _ => rfl) _
    simp only [writes, created, List.filterMap_cons, List.filterMap_append, Write.paymentRow,
      hdeliveries, hcompletion, List.append_nil]
  | transition row toStatus reason fx posting subs ds =>
    have hfx : (fxWrites row.id fx).filterMap Write.paymentRow = [] := filterMap_map_none _ (fun _ => rfl) _
    simp only [writes, created, List.filterMap_append, List.filterMap_cons, Write.paymentRow, hfx, hdeliveries,
      List.filterMap_flatMap, hposting, List.append_nil, List.nil_append, List.flatMap_eq_nil_iff, implies_true]
  | post entry posting => exact hposting posting
  | claim key => exact filterMap_map_none _ (fun _ => rfl) _
  | reconcile ws =>
    rw [writes, show (Deed.reconcile ws).created = [] from rfl, List.filterMap_eq_nil_iff]
    intro w hw
    have hrec := h w hw
    cases w <;> simp [Write.ofReconciliation, Write.paymentRow] at hrec ⊢

theorem Deed.payment_ids (h : d.Legal rt st now) :
    (st.after (d.writes now)).payments.rows.map PaymentRow.id =
      (st.payments.rows ++ d.created).map PaymentRow.id := by
  rw [payment_ids_after, Deed.paymentRows h]
  rw [Deed.paymentRows h, List.map_append]
  cases d with
  | initiate row subs ds completion =>
    obtain ⟨⟨req, hi⟩, -⟩ := h
    have hfresh := (Table.find_none_iff _ _).mp hi.fresh
    exact st.payments.nodup.append (List.nodup_singleton _) (List.disjoint_singleton.mpr hfresh)
  | _ => simpa [created] using st.payments.nodup

/-- The bank after a deed: its payments under the same ids, and the lines of its posting on the balances. -/
theorem Deed.bank_effect (h : d.Legal rt st now) (payments : Table BankPayment.id)
    (hids : payments.rows.map BankPayment.id = (st.payments.rows ++ d.created).map PaymentRow.id)
    (hfind : ∀ id, payments.find id = (d.payment id (st.payments.find id)).map PaymentRow.bankPayment) :
    (st.after (d.writes now)).bank =
      { st.bank with
        payments
        balance := fun a ccy => st.bank.balance a ccy + netOn (d.postings.flatMap Posting.lines) a ccy } := by
  apply Bank.ext
  · funext id
    exact Store.currencyOf_after _ _ _
  · exact Store.suspense_after _ _
  · apply Table.ext_find
    · rw [hids, ← Deed.payment_ids h]
      exact List.map_map
    · intro id
      rw [find_bank, Deed.payment_effect h, hfind]
  · funext a ccy
    simp only [Store.bank, Deed.lines_effect h, netOn_append]

theorem moved_bankPayment (row : PaymentRow) (toStatus : PaymentStatus) (fx : Option (Uuid × Numeric 2)) :
    (row.moved toStatus fx).bankPayment = { row.bankPayment with
      status := toStatus
      converted := (row.moved toStatus fx).creditorAmount.map Numeric.units } := by
  cases fx <;> rfl

theorem Transition.bank {row : PaymentRow} {toStatus : PaymentStatus} {reason : Option String}
    {fx : Option (Uuid × Numeric 2)} {posting : Option (JournalEntry × Posting)} {subs : List WebhookSubscription}
    {ds : List WebhookDeliveryRow} (h : Transition rt st now row toStatus fx posting subs ds) :
    (st.after ((Deed.transition row toStatus reason fx posting subs ds).writes now)).bank =
      st.bank.move row.id toStatus ((row.moved toStatus fx).creditorAmount.map Numeric.units)
        (netOn ((posting.toList.map Prod.snd).flatMap Posting.lines)) := by
  apply Deed.bank_effect (d := .transition row toStatus reason fx posting subs ds) h
  · have hkept : st.bank.payments.rows.map BankPayment.id = st.payments.rows.map PaymentRow.id := List.map_map
    have hnone : (Deed.transition row toStatus reason fx posting subs ds).created = [] := rfl
    rw [hnone, List.append_nil, ← hkept]
    exact Table.map_rows_modify _ _ _ _ _ fun _ => rfl
  · intro id
    rw [Table.find_modify, find_bank, Deed.payment, Option.map_map]
    by_cases hid : row.id = id
    · subst hid
      rw [h.found, if_pos rfl, Option.map_some, Option.map_some, moved_bankPayment]
      simp
    · rw [if_neg hid]
      congr 1
      funext r
      simp [Ne.symm hid]

/-- A deed that leaves the payments alone. -/
theorem Deed.bank_frame (h : d.Legal rt st now) (hc : d.created = []) (hp : ∀ id old, d.payment id old = old) :
    (st.after (d.writes now)).bank = { st.bank with
      balance := fun a ccy => st.bank.balance a ccy + netOn (d.postings.flatMap Posting.lines) a ccy } := by
  apply Deed.bank_effect h
  · rw [hc, List.append_nil]
    exact List.map_map
  · intro id
    rw [find_bank, hp]

theorem Initiation.bank {req : NewPayment} {row : PaymentRow} {subs : List WebhookSubscription}
    {ds : List WebhookDeliveryRow} {completion : Option (String × PyDict)} (hi : Initiation st now req row subs ds)
    (h : (Deed.initiate row subs ds completion).Legal rt st now) :
    (st.after ((Deed.initiate row subs ds completion).writes now)).bank =
      { st.bank with payments := st.bank.payments.insert row.bankPayment } := by
  have hfresh : st.bank.payments.find row.bankPayment.id = none := by
    rw [find_bank, show row.bankPayment.id = row.id from rfl, hi.fresh, Option.map_none]
  have heffect := Deed.bank_effect h (st.bank.payments.insert row.bankPayment) ?_ ?_
  · rw [heffect]
    simp [Deed.postings, netOn]
  · rw [Table.rows_insert hfresh, List.map_append, List.map_append, Deed.created]
    congr 1
    exact List.map_map
  · intro id
    rw [Table.find_insert hfresh, find_bank, Deed.payment, show row.bankPayment.id = row.id from rfl]
    by_cases hid : row.id = id
    · rw [if_pos hid, if_pos hid, Option.map_some]
    · rw [if_neg hid, if_neg hid]

theorem movement_bank {row : PaymentRow} (hcur : st.currencyOf row.debtorAccountId = some row.currency) :
    st.bank.movement row.bankPayment = st.transferOf row := by
  funext a ccy
  cases hn : row.creditorAmount <;>
    simp [Bank.movement, Store.transferOf, PaymentRow.bankPayment, Store.bank, hn, hcur]

theorem movement_moved {row : PaymentRow} (hcur : st.currencyOf row.debtorAccountId = some row.currency)
    (toStatus : PaymentStatus) (fx : Option (Uuid × Numeric 2)) :
    st.bank.movement { row.bankPayment with converted :=
      (row.moved toStatus fx).creditorAmount.map Numeric.units } =
      st.transferOf (row.moved toStatus fx) := by
  have hmoved : st.currencyOf (row.moved toStatus fx).debtorAccountId = some (row.moved toStatus fx).currency := by
    rw [moved_debtor, moved_currency, hcur]
  have hbank := movement_bank hmoved
  rw [moved_bankPayment] at hbank
  exact hbank

/-- The event that a transition is. -/
def BankEvent.ofTransition (id : Uuid) (fx : Option (Uuid × Numeric 2)) : PaymentStatus → BankEvent
  | .initiated => .aside
  | .authorised => .authorise id
  | .settled => .settle id (fx.map fun x => x.2.units)
  | .reversed => .reverse id
  | .failed => .fail id

theorem positive_units {n : Numeric 2} (h : n.toDecimal.nonPositive = .ok false) : 0 < n.units := by
  cases n with
  | nan => cases h
  | num z lt =>
    simp only [Numeric.toDecimal, Decimal.ofInt, Decimal.nonPositive] at h
    simp only [Numeric.units]
    simp at h
    omega

/-- A transition is a step of the bank. -/
theorem Transition.happens {row : PaymentRow} {toStatus : PaymentStatus} {reason : Option String}
    {fx : Option (Uuid × Numeric 2)} {posting : Option (JournalEntry × Posting)} {subs : List WebhookSubscription}
    {ds : List WebhookDeliveryRow} (h : Transition rt st now row toStatus fx posting subs ds)
    (hsound : st.bank.Sound row.bankPayment)
    (hfit : ∀ id cur, st.currencyOf id = some cur → varchar 3 cur = .ok cur) :
    Bank.Step st.bank (.ofTransition row.id fx toStatus)
      (st.after ((Deed.transition row toStatus reason fx posting subs ds).writes now)).bank := by
  have hfound : st.bank.payments.find row.bankPayment.id = some row.bankPayment := by
    rw [find_bank, show row.bankPayment.id = row.id from rfl, h.found, Option.map_some]
  have hcur : st.currencyOf row.debtorAccountId = some row.currency := hsound.debtor
  have hallowed := h.allowed
  rw [Transition.bank h]
  cases posting with
  | none =>
    have hbooking : Booking st row toStatus fx none := h.booking
    have hzero : netOn (((none : Option (JournalEntry × Posting)).toList.map Prod.snd).flatMap Posting.lines) = 0 :=
      rfl
    rw [hzero]
    cases hbooking with
    | authorise =>
      have hstatus : row.status = .initiated := by
        cases hs : row.status <;> simp [allowedTransitions, hs] at hallowed ⊢
      exact .authorise hfound hstatus
    | fail =>
      have hstatus : row.status = .initiated ∨ row.status = .authorised := by
        cases hs : row.status <;> simp [allowedTransitions, hs] at hallowed ⊢
      exact .fail hfound hstatus
  | some x =>
    obtain ⟨e, p⟩ := x
    obtain ⟨hvalid, hposting⟩ := h.posted (e, p) rfl
    have hbooking : Booking st row toStatus fx (some e) := h.booking
    have hlines : netOn (((some (e, p)).toList.map Prod.snd).flatMap Posting.lines) = netOn p.lines := by
      simp
    have hnone : toStatus = .settled → row.creditorAmount = none := by
      rintro rfl
      have hstatus : row.status = .authorised := by
        cases hs : row.status <;> simp [allowedTransitions, hs] at hallowed ⊢
      simpa [PaymentRow.bankPayment] using hsound.unconverted (.inr hstatus)
    have hnet : netOn p.lines = fun a ccy => if toStatus = .settled then st.transferOf (row.moved toStatus fx) a ccy
        else -st.transferOf row a ccy := by
      funext a ccy
      exact hbooking.net hposting hfit hcur hnone a ccy
    have hpositive := (validateJournalEntry_ok.mp hvalid).2.1
    rw [hlines, hnet]
    have hmoved := movement_moved hcur toStatus fx
    have hback : (fun a ccy => -st.transferOf row a ccy) = -st.bank.movement row.bankPayment := by
      rw [movement_bank hcur]
      rfl
    cases hbooking with
    | @transfer cur hd hc =>
      have hstatus : row.status = .authorised := by
        cases hs : row.status <;> simp [allowedTransitions, hs] at hallowed ⊢
      have hsame : st.bank.currencyOf row.bankPayment.creditor = some row.bankPayment.currency :=
        hc.trans (hd.symm.trans hcur)
      have hamount : (row.moved .settled none).creditorAmount = none := hnone rfl
      simp only [if_true]
      rw [← hmoved, hamount]
      exact .transfer hfound hstatus hsame
    | @conversion dc cc suspense rateId n hd hc hne hs =>
      have hstatus : row.status = .authorised := by
        cases hst : row.status <;> simp [allowedTransitions, hst] at hallowed ⊢
      have hdiffer : cc ≠ row.bankPayment.currency := by
        rintro rfl
        exact hne (Option.some.inj (hd.symm.trans hcur))
      have hunits : 0 < n.units :=
        positive_units (hpositive ⟨suspense, .debit, n.toDecimal, cc⟩ (by simp [conversionEntry]))
      have hsuspense : st.bank.suspense.isSome = true := by
        rw [show st.bank.suspense = some suspense from hs]
        rfl
      simp only [if_true]
      rw [← hmoved]
      exact .convert hfound hstatus hc hdiffer hunits hsuspense
    | reversal hn =>
      have hstatus : row.status = .settled := by
        cases hs : row.status <;> simp [allowedTransitions, hs] at hallowed ⊢
      simp only [reduceCtorEq, if_false]
      rw [hback]
      exact .reverse hfound hstatus
    | @conversionReversal dc cc suspense n hn hd hc hs =>
      have hstatus : row.status = .settled := by
        cases hst : row.status <;> simp [allowedTransitions, hst] at hallowed ⊢
      simp only [reduceCtorEq, if_false]
      rw [hback]
      exact .reverse hfound hstatus

end Effects
section Run

variable {ι : Type} [DecidableEq ι] {rt : Runtime} {step : Feed → Feed → Prop} {st₀ : Store}
  {calls : ι → Call} {σ : Config postgres ι Value}

theorem validateNewPayment_parties {amount : Decimal} {debtor creditor : Uuid}
    (h : validateNewPayment amount debtor creditor = .ok ()) : debtor ≠ creditor := by
  unfold validateNewPayment at h
  split at h
  · cases h
  · cases h
  · split at h
    · cases h
    · assumption

theorem Requested.positive {st : Store} {req : NewPayment} {row : PaymentRow} (h : Requested st req row)
    (hv : validateNewPayment req.amount req.debtorAccountId req.creditorAccountId = .ok ()) :
    0 < row.amount.cents := by
  obtain ⟨n, -, -, hn⟩ := h.cents hv
  generalize row.amount = a at hn
  obtain ⟨value, hpositive⟩ := a
  cases value with
  | num z lt => exact hpositive
  | nan => cases hn

theorem Requested.opens {st : Store} {req : NewPayment} {row : PaymentRow} (h : Requested st req row)
    (hfit : ∀ id cur, st.currencyOf id = some cur → varchar 3 cur = .ok cur) : req.Opens row.bankPayment where
  debtor := h.debtor
  creditor := h.creditor
  currency := by
    have hcurrency := h.currency
    rw [hfit _ _ h.debtorCurrency] at hcurrency
    exact (Except.ok.inj hcurrency).symm
  amount := ⟨row.amount, h.amount, rfl⟩
  endToEndId := h.endToEndId

theorem Initiation.happens {st : Store} {now : ℕ} {req : NewPayment} {row : PaymentRow}
    {subs : List WebhookSubscription}
    {ds : List WebhookDeliveryRow} {completion : Option (String × PyDict)} (hi : Initiation st now req row subs ds)
    (h : (Deed.initiate row subs ds completion).Legal rt st now)
    (hvalid : validateNewPayment req.amount req.debtorAccountId req.creditorAccountId = .ok ())
    (hfit : ∀ id cur, st.currencyOf id = some cur → varchar 3 cur = .ok cur) :
    req.Opens row.bankPayment ∧ Bank.Step st.bank (.initiate row.bankPayment)
      (st.after ((Deed.initiate row subs ds completion).writes now)).bank := by
  have hrequested := hi.requested
  have hopens := hrequested.opens hfit
  have hnew : row.status = .initiated ∧ row.creditorAmount = none := by
    obtain ⟨_, -, _, -, _, -, hrow⟩ := PaymentRow.new_ok.mp hi.stored
    rw [hrow]
    exact ⟨rfl, rfl⟩
  refine ⟨hopens, ?_⟩
  rw [hi.bank h]
  refine .initiate ?_ (hrequested.positive hvalid) ?_ ?_ ?_ hnew.1 ?_
  · rw [find_bank]
    exact congrArg (Option.map PaymentRow.bankPayment) hi.fresh
  · rw [hopens.debtor, hopens.creditor]
    exact validateNewPayment_parties hvalid
  · rw [hopens.debtor, hopens.currency]
    exact hi.currency
  · obtain ⟨account, haccount⟩ := Option.isSome_iff_exists.mp hi.creditor
    show (st.currencyOf row.bankPayment.creditor).isSome = true
    rw [hopens.creditor, Store.currencyOf, haccount]
    rfl
  · show row.creditorAmount.map Numeric.units = none
    rw [hnew.2, Option.map_none]

/-- Every committed transaction is one step of the bank. -/
theorem Deed.Of.happens {st : Store} {now : ℕ} {call : Call} {v : Option Value} {d : Deed}
    (h : d.Of rt st now call v)
    (hvalid : ∀ req, call.request = some req →
      validateNewPayment req.amount req.debtorAccountId req.creditorAccountId = .ok ())
    (hsound : ∀ id p, st.bank.payments.find id = some p → st.bank.Sound p)
    (hfit : ∀ id cur, st.currencyOf id = some cur → varchar 3 cur = .ok cur) :
    ∃ e, call.Performs e ∧ Bank.Step st.bank e (st.after (d.writes now)).bank := by
  have hlegal := h.legal
  have moves {row : PaymentRow} {toStatus : PaymentStatus} {reason : Option String} {fx : Option (Uuid × Numeric 2)}
      {posting : Option (JournalEntry × Posting)} {subs : List WebhookSubscription} {ds : List WebhookDeliveryRow}
      (ht : Transition rt st now row toStatus fx posting subs ds) :
      Bank.Step st.bank (.ofTransition row.id fx toStatus)
        (st.after ((Deed.transition row toStatus reason fx posting subs ds).writes now)).bank := by
    apply ht.happens _ hfit
    apply hsound row.id
    rw [find_bank, ht.found, Option.map_some]
  have aside (hpostings : d.postings = []) (hc : d.created = []) (hp : ∀ id old, d.payment id old = old) :
      Bank.Step st.bank .aside (st.after (d.writes now)).bank := by
    have hsame :
        (fun a ccy => st.bank.balance a ccy + netOn (d.postings.flatMap Posting.lines) a ccy) =
          st.bank.balance := by
      funext a ccy
      rw [hpostings]
      exact add_zero _
    rw [Deed.bank_frame hlegal hc hp, hsame]
    exact .aside
  cases call with
  | initiatePayment req =>
    obtain ⟨row, subs, ds, rfl, hi, -⟩ := h
    obtain ⟨hopens, hs⟩ := hi.happens hlegal (hvalid req rfl) hfit
    exact ⟨_, ⟨_, rfl, hopens⟩, hs⟩
  | initiatePaymentIdempotent key body req =>
    rcases h with ⟨claimed, rfl, -, -⟩ | ⟨row, subs, ds, completion, rfl, hi, -, -⟩
    · exact ⟨.aside, .inl rfl, aside rfl rfl fun _ _ => rfl⟩
    · obtain ⟨hopens, hs⟩ := hi.happens hlegal (hvalid req rfl) hfit
      exact ⟨_, .inr ⟨_, rfl, hopens⟩, hs⟩
  | authorisePayment id n =>
    obtain ⟨row, reason, subs, ds, rfl, rfl, ht, -⟩ := h
    exact ⟨_, rfl, moves ht⟩
  | failPayment id reason n =>
    obtain ⟨row, reason, subs, ds, rfl, rfl, ht, -⟩ := h
    exact ⟨_, rfl, moves ht⟩
  | settlePayment id n =>
    obtain ⟨row, reason, fx, entry, posting, subs, ds, rfl, rfl, ht, -⟩ := h
    exact ⟨_, ⟨_, rfl⟩, moves ht⟩
  | reversePayment id n =>
    obtain ⟨row, reason, fx, entry, posting, subs, ds, rfl, rfl, ht, -⟩ := h
    exact ⟨_, rfl, moves ht⟩
  | postJournalEntry entry n =>
    obtain ⟨posting, rfl, -, hposting, -⟩ := h
    refine ⟨_, ⟨posting.entry.id, posting.lines, hposting.lines, rfl⟩, ?_⟩
    rw [Deed.bank_frame hlegal rfl fun _ _ => rfl]
    have hlines : netOn ((Deed.post entry posting).postings.flatMap Posting.lines) =
        Bank.postedOn (posting.lines.map JournalLineRow.bankLine) := by
      simp [Deed.postings, netOn_bankLines]
    rw [hlines]
    exact .post _
  | runReconciliation batchId records windowStart windowEnd =>
    obtain ⟨ws, runId, result, rfl, -, -⟩ := h
    exact ⟨.aside, rfl, aside rfl rfl fun _ _ => rfl⟩

theorem Fresh.opening (h : Fresh st₀) : st₀.bank.Opening where
  payments := by simp [Store.bank, Table.map, h.payments]
  balance := by simp [Store.bank, netOn, h.lines]

/-- The log is a run of the bank, each commit one event of it. -/
structure Linearized (calls : ι → Call) (st₀ : Store) (log : List (Commit postgres ι)) (st : Store)
    (es : List BankEvent) :
    Prop where
  each : List.Forall₂ (fun c e => (calls c.caller).Performs e ∧ Bank.Step c.before.bank e c.after.bank) log es
  runs : Bank.machine.Runs st₀.bank es st.bank
  accounts : ∀ id, st.currencyOf id = st₀.currencyOf id

theorem WellFormed.linearized (h : WellFormed (feedEnv step) st₀ (fun i => (calls i).prog rt) σ) (h₀ : Fresh st₀) :
    ∃ es, Linearized calls st₀ σ.world.log σ.world.store es := by
  apply h.history.invariant fun log st => ∃ es, Linearized calls st₀ log st es
  · exact ⟨[], .nil, .nil, fun _ => rfl⟩
  · intro log st st' hlin he
    obtain ⟨f, -, rfl⟩ := he
    obtain ⟨es, hes⟩ := hlin
    exact ⟨es, hes.each, hes.runs, hes.accounts⟩
  · intro log c rest hlog hlin
    obtain ⟨es, hes⟩ := hlin
    have hc : c ∈ σ.world.log := by
      rw [hlog]
      simp
    obtain ⟨v, d, hd⟩ := h.does hc
    have hafter : c.after = c.before.after (d.writes c.began) := by
      rw [← hd.writes]
      rfl
    have hsound := (h₀.opening.runs hes.runs).sound
    have hfit : ∀ id cur, c.before.currencyOf id = some cur → varchar 3 cur = .ok cur := by
      intro id cur hcur
      rw [hes.accounts, Store.currencyOf] at hcur
      obtain ⟨a, ha, rfl⟩ := Option.map_eq_some_iff.mp hcur
      exact h₀.currencies a (Table.mem_of_find ha)
    obtain ⟨e, hperforms, hstep⟩ := hd.deed.happens (fun req hreq => h.valid_request hc hreq) hsound hfit
    rw [← hafter] at hstep
    refine ⟨es ++ [e], List.rel_append hes.each (.cons ⟨hperforms, hstep⟩ .nil), .snoc hes.runs hstep, ?_⟩
    intro id
    rw [hafter, Store.currencyOf_after, hes.accounts]

/-- Whatever the interleaving, the service is the bank: each commit is one event of the bank, the one its caller
asks for, and the committed store is the bank that these events lead to. -/
theorem service_refines_bank (h₀ : Fresh st₀) (h : Reachable rt step st₀ calls σ) : ∃ es,
    List.Forall₂ (fun c e => (calls c.caller).Performs e ∧ Bank.Step c.before.bank e c.after.bank) σ.world.log es ∧
      Bank.machine.Runs st₀.bank es σ.world.store.bank := by
  obtain ⟨clock, hr⟩ := h
  obtain ⟨es, hes⟩ := (reaches_wellFormed hr).linearized h₀
  exact ⟨es, hes.each, hes.runs⟩

theorem sample_refines_bank : Fresh sampleStore ∧ ∃ es,
    List.Forall₂ (fun c e => (sampleCalls c.caller).Performs e ∧ Bank.Step c.before.bank e c.after.bank)
        sampleEnd.world.log es ∧
      Bank.machine.Runs sampleStore.bank es sampleEnd.world.store.bank :=
  ⟨sampleStore_fresh, service_refines_bank sampleStore_fresh (sampleEnd_reachable Eq)⟩

end Run
end PaymentLedger
