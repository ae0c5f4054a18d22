import PaymentLedger.Services.Serial

namespace PaymentLedger

/-- A posting as stored: the entry, its lines, and the accounts whose versions it bumps. -/
structure Posting where
  entry : JournalEntryRow
  lines : List JournalLineRow
  accounts : List Uuid

def Posting.writes (p : Posting) : List Write :=
  .insertEntry p.entry :: (p.lines.map .insertLine ++ p.accounts.map .bumpAccount)

/-- The posting stores this journal entry on `st`. -/
structure Posting.Stores (rt : Runtime) (st : Store) (entry : JournalEntry) (p : Posting) : Prop where
  fresh : st.hasEntry p.entry.id = false
  paymentId : p.entry.paymentId = entry.paymentId
  lines : List.Forall₂ (fun line row => JournalLineRow.new p.entry.id line = .ok row) entry.lines p.lines
  accounts : p.accounts = entry.accountIds rt.order
  exist : ∀ id ∈ p.accounts, st.hasAccount id = true

/-- The deliveries of one event: one for each of the subscriptions that wants it. -/
structure Notices (st : Store) (now : ℕ) (subs : List WebhookSubscription) (paymentId : Uuid)
    (eventType : String) (payload : PyDict) (ds : List WebhookDeliveryRow) : Prop where
  fresh : ∀ d ∈ ds, st.hasDelivery d.id = false
  nodup : (ds.map WebhookDeliveryRow.id).Nodup
  rows : List.Forall₂ (fun sub d => WebhookDeliveryRow.new d.id (WebhookSubscription.id sub) (some paymentId)
    eventType payload now = .ok d) (subs.filter (·.wants eventType)) ds

section Segments

variable {before : Store} {b : ℕ} {pre t : List (Event postgres)}

theorem Replayed.eval {s : Stmt} {r : s.Res} {e : Event postgres} (h : Replayed before b pre e)
    (hd : Did s r e) : ∃ f c r', s.Same r r' ∧
      Stmt.eval { before.after (writesOf pre) with feed := f } b c s = some (.ok (r', e.writes)) := by
  obtain ⟨ws, n, rfl⟩ := hd
  exact h

theorem hasDelivery_insert {st : Store} {d : WebhookDeliveryRow} {id : Uuid}
    (h : ((Write.insertDelivery d).apply st).hasDelivery id = false) (hd : st.hasDelivery d.id = false) :
    st.hasDelivery id = false ∧ d.id ≠ id := by
  have hn : st.webhookDeliveries.find d.id = none := by simpa [Store.hasDelivery] using hd
  simp only [Store.hasDelivery, Write.apply, Write.onDeliveries, Table.find_insert hn] at h
  by_cases hid : d.id = id
  · simp [hid] at h
  · rw [if_neg hid] at h
    exact ⟨h, hid⟩

/-- The deliveries that a segment of statements has stored. -/
theorem deliveries_stored {paymentId : Uuid} {eventType : String} {payload : PyDict}
    {subs : List WebhookSubscription}
    (h : List.Forall₂ (fun sub e => ∃ id, Did (.insertDelivery (WebhookSubscription.id sub) (some paymentId)
      eventType payload) id e) subs t) (hr : Each (Replayed before b) pre t) :
    ∃ ds : List WebhookDeliveryRow, writesOf t = ds.map .insertDelivery ∧
      (∀ d ∈ ds, (before.after (writesOf pre)).hasDelivery d.id = false) ∧
      (ds.map WebhookDeliveryRow.id).Nodup ∧
      List.Forall₂ (fun sub d => WebhookDeliveryRow.new d.id (WebhookSubscription.id sub) (some paymentId)
        eventType payload b = .ok d) subs ds := by
  induction h generalizing pre with
  | nil => exact ⟨[], rfl, by simp, by simp, .nil⟩
  | @cons sub e subs t hd _ ih =>
    obtain ⟨i, hd⟩ := hd
    obtain ⟨f, c, r', -, hev⟩ := hr.1.eval hd
    obtain ⟨-, hfresh, -, -, row, hrow, hws⟩ := eval_insertDelivery.mp hev
    have hid : row.id = c.id := by
      obtain ⟨_, -, rfl⟩ := WebhookDeliveryRow.new_ok.mp hrow
      rfl
    rw [← hid] at hfresh hrow
    obtain ⟨ds, hwrites, hfr, hnd, hrows⟩ := ih hr.2
    have hsplit (d : WebhookDeliveryRow) (hmem : d ∈ ds) :
        (before.after (writesOf pre)).hasDelivery d.id = false ∧ row.id ≠ d.id := by
      apply hasDelivery_insert _ hfresh
      have hd := hfr d hmem
      rw [writesOf_append, Store.after_append, writesOf_cons, hws] at hd
      exact hd
    refine ⟨row :: ds, by rw [writesOf_cons, hws, hwrites]; rfl, ?_, ?_, .cons hrow hrows⟩
    · intro d hmem
      rcases List.mem_cons.mp hmem with rfl | hmem
      · exact hfresh
      · exact (hsplit d hmem).1
    · rw [List.map_cons, List.nodup_cons]
      refine ⟨?_, hnd⟩
      intro hmem
      obtain ⟨d, hd, heq⟩ := List.mem_map.mp hmem
      exact (hsplit d hd).2 heq.symm

theorem lines_stored {entryId : Uuid} {lines : List JournalLine}
    (h : List.Forall₂ (fun line e => Did (.insertLine entryId line) () e) lines t)
    (hr : Each (Replayed before b) pre t) : ∃ rows : List JournalLineRow, writesOf t = rows.map .insertLine ∧
      List.Forall₂ (fun line row => JournalLineRow.new entryId line = .ok row) lines rows := by
  induction h generalizing pre with
  | nil => exact ⟨[], rfl, .nil⟩
  | cons hd _ ih =>
    obtain ⟨f, c, r', -, hev⟩ := hr.1.eval hd
    obtain ⟨-, -, row, hrow, hws⟩ := eval_insertLine.mp hev
    obtain ⟨rows, hwrites, hrows⟩ := ih hr.2
    exact ⟨row :: rows, by rw [writesOf_cons, hws, hwrites]; rfl, .cons hrow hrows⟩

theorem hasAccount_after (st : Store) (ws : List Write) (id : Uuid) :
    (st.after ws).hasAccount id = st.hasAccount id := by
  apply st.after_eq fun st => st.hasAccount id
  intro w _ st
  cases w with
  | bumpAccount id' => simp [Store.hasAccount, Write.apply, Write.onAccounts, Table.find_modify]
  | _ => rfl

theorem bumps_stored {versions : List (Uuid × ℕ)} {ids : List Uuid} (h : Bumped versions ids t)
    (hr : Each (Replayed before b) pre t) : writesOf t = ids.map .bumpAccount ∧
      ∀ id ∈ ids, before.hasAccount id = true := by
  induction h generalizing pre with
  | nil => exact ⟨rfl, by simp⟩
  | @cons id e ids t hd _ ih =>
    obtain ⟨v, -, hd⟩ := hd
    obtain ⟨f, c, r', hsame, hev⟩ := hr.1.eval hd
    obtain ⟨hwrites, hexist⟩ := ih hr.2
    rcases eval_updateAccountVersion.mp hev with ⟨-, hws, a, ha, -⟩ | ⟨hf, -⟩
    · refine ⟨by rw [writesOf_cons, hws, hwrites]; rfl, ?_⟩
      intro id' hid'
      rcases List.mem_cons.mp hid' with rfl | hid'
      · rw [← hasAccount_after before (writesOf pre), Store.hasAccount]
        rw [show (before.after (writesOf pre)).accounts.find id' = some a from ha]
        rfl
      · exact hexist id' hid'
    · rw [show r' = true from hsame] at hf
      cases hf

/-- The posting that a segment of statements has stored. -/
theorem Posted.stored {rt : Runtime} {entry : JournalEntry} {u : Uuid} (h : Posted rt entry u t)
    (hr : Each (Replayed before b) pre t) : ∃ p : Posting, writesOf t = p.writes ∧ p.entry.id = u ∧
      p.Stores rt (before.after (writesOf pre)) entry := by
  obtain ⟨versions, e₁, e₂, tl, tb, rfl, h₁, h₂, hl, hb⟩ := h
  obtain ⟨hr₁, hr₂, hr⟩ := hr
  rw [each_append] at hr
  obtain ⟨f₁, c₁, r₁, -, hev₁⟩ := hr₁.eval h₁
  obtain ⟨-, hws₁⟩ := eval_selectAccountVersions.mp hev₁
  obtain ⟨f₂, c₂, r₂, hsame, hev₂⟩ := hr₂.eval h₂
  obtain ⟨hid, hfresh, -, -, row, hrow, hws₂⟩ := eval_insertEntry.mp hev₂
  obtain ⟨rows, hwl, hrows⟩ := lines_stored hl hr.1
  obtain ⟨hwb, hexist⟩ := bumps_stored hb hr.2
  obtain ⟨et, -, rfl⟩ := JournalEntryRow.new_ok.mp hrow
  have hu : c₂.id = u := hid.symm.trans hsame
  refine ⟨⟨⟨c₂.id, entry.paymentId, et, entry.idempotencyKeyId⟩, rows, entry.accountIds rt.order⟩, ?_, hu, ?_⟩
  · rw [writesOf_cons, writesOf_cons, writesOf_append, hws₁, hws₂, hwl, hwb]
    rfl
  · refine ⟨?_, rfl, ?_, rfl, ?_⟩
    · rw [writesOf_append, Store.after_append, writesOf_cons, hws₁] at hfresh
      exact hfresh
    · rw [hu]
      exact hrows
    · intro id hid
      rw [hasAccount_after]
      exact hexist id hid

/-- The deliveries that a segment of statements has stored, and the subscriptions it has read. -/
theorem Enqueued.stored {paymentId : Uuid} {eventType : String} {payload : PyDict}
    (h : Enqueued paymentId eventType payload t) (hr : Each (Replayed before b) pre t) :
    ∃ (subs : List WebhookSubscription) (ds : List WebhookDeliveryRow), writesOf t = ds.map .insertDelivery ∧
      Notices (before.after (writesOf pre)) b subs paymentId eventType payload ds ∧
      ∃ e td, t = e :: td ∧ Did .selectActiveSubscriptions subs e ∧
        ∀ e ∈ td, e.stmt ≠ .selectActiveSubscriptions := by
  obtain ⟨subs, e, td, rfl, hd, hds⟩ := h
  obtain ⟨hr₁, hr₂⟩ := hr
  obtain ⟨f, c, r', -, hev⟩ := hr₁.eval hd
  obtain ⟨-, -, hws⟩ := eval_selectActiveSubscriptions.mp hev
  obtain ⟨ds, hwrites, hfresh, hnd, hrows⟩ := deliveries_stored hds hr₂
  refine ⟨subs, ds, by rw [writesOf_cons, hws, hwrites]; rfl, ⟨?_, hnd, hrows⟩, e, td, rfl, hd, ?_⟩
  · intro d hmem
    have := hfresh d hmem
    rw [writesOf_append, Store.after_append, writesOf_cons, hws] at this
    exact this
  · intro e' he'
    obtain ⟨sub, -, i, hi⟩ := forall₂_mem_right hds he'
    rw [hi.stmt]
    simp

end Segments

namespace Store

def currencyOf (st : Store) (id : Uuid) : Option String := (st.accounts.find id).map Account.currency

/-- The account between the two currencies of a conversion. -/
def suspense (st : Store) : Option Uuid :=
  (st.accounts.rows.find? fun a => decide (a.accountNumber = fxSuspenseAccountNumber)).map Account.id

theorem fixed_after (st : Store) (ws : List Write) :
    (st.after ws).accounts.rows.map Account.fixed = st.accounts.rows.map Account.fixed := by
  apply st.after_eq fun st => st.accounts.rows.map Account.fixed
  intro w _ st
  exact accounts_fixed

theorem currencyOf_fixed (st : Store) (id : Uuid) : st.currencyOf id =
    ((st.accounts.rows.map Account.fixed).find? fun a => decide (a.id = id)).map Account.currency := by
  rw [List.find?_map, Option.map_map]
  rfl

theorem suspense_fixed (st : Store) : st.suspense = ((st.accounts.rows.map Account.fixed).find?
    fun a => decide (a.accountNumber = fxSuspenseAccountNumber)).map Account.id := by
  rw [List.find?_map, Option.map_map]
  rfl

@[simp] theorem currencyOf_after (st : Store) (ws : List Write) (id : Uuid) :
    (st.after ws).currencyOf id = st.currencyOf id := by
  rw [currencyOf_fixed, currencyOf_fixed, fixed_after]

@[simp] theorem suspense_after (st : Store) (ws : List Write) : (st.after ws).suspense = st.suspense := by
  rw [suspense_fixed, suspense_fixed, fixed_after]

end Store

section Entries

variable (row : PaymentRow) (suspense : Uuid) (debtorCurrency creditorCurrency : String) (n : Numeric 2)

def transferEntry : JournalEntry where
  entryType := "transfer"
  lines :=
    [⟨row.debtorAccountId, .debit, row.amount.toDecimal, row.currency⟩,
     ⟨row.creditorAccountId, .credit, row.amount.toDecimal, row.currency⟩]
  paymentId := some row.id

def conversionEntry : JournalEntry where
  entryType := "fx_conversion"
  lines :=
    [⟨row.debtorAccountId, .debit, row.amount.toDecimal, debtorCurrency⟩,
     ⟨suspense, .credit, row.amount.toDecimal, debtorCurrency⟩,
     ⟨suspense, .debit, n.toDecimal, creditorCurrency⟩,
     ⟨row.creditorAccountId, .credit, n.toDecimal, creditorCurrency⟩]
  paymentId := some row.id

def reversalEntry : JournalEntry where
  entryType := "reversal"
  lines :=
    [⟨row.creditorAccountId, .debit, row.amount.toDecimal, row.currency⟩,
     ⟨row.debtorAccountId, .credit, row.amount.toDecimal, row.currency⟩]
  paymentId := some row.id

def conversionReversalEntry : JournalEntry where
  entryType := "fx_conversion_reversal"
  lines :=
    [⟨suspense, .debit, row.amount.toDecimal, debtorCurrency⟩,
     ⟨row.debtorAccountId, .credit, row.amount.toDecimal, debtorCurrency⟩,
     ⟨row.creditorAccountId, .debit, n.toDecimal, creditorCurrency⟩,
     ⟨suspense, .credit, n.toDecimal, creditorCurrency⟩]
  paymentId := some row.id

end Entries

/-- What a transition of the payment books: its rate and converted amount, and its entry. -/
inductive Booking (st : Store) (row : PaymentRow) :
    PaymentStatus → Option (Uuid × Numeric 2) → Option JournalEntry → Prop
  | authorise : Booking st row .authorised none none
  | fail : Booking st row .failed none none
  | transfer {cur : String} (hd : st.currencyOf row.debtorAccountId = some cur)
      (hc : st.currencyOf row.creditorAccountId = some cur) :
      Booking st row .settled none (some (transferEntry row))
  | conversion {dc cc : String} {suspense : Uuid} (rateId : Uuid) (n : Numeric 2)
      (hd : st.currencyOf row.debtorAccountId = some dc) (hc : st.currencyOf row.creditorAccountId = some cc)
      (hne : dc ≠ cc) (hs : st.suspense = some suspense) :
      Booking st row .settled (some (rateId, n)) (some (conversionEntry row suspense dc cc n))
  | reversal (hn : row.creditorAmount = none) : Booking st row .reversed none (some (reversalEntry row))
  | conversionReversal {dc cc : String} {suspense : Uuid} {n : Numeric 2} (hn : row.creditorAmount = some n)
      (hd : st.currencyOf row.debtorAccountId = some dc) (hc : st.currencyOf row.creditorAccountId = some cc)
      (hs : st.suspense = some suspense) :
      Booking st row .reversed none (some (conversionReversalEntry row suspense dc cc n))

def fxWrites (id : Uuid) (fx : Option (Uuid × Numeric 2)) : List Write :=
  fx.toList.map fun x => .setFxDetails id x.1 x.2

section Lines

variable {before : Store} {b : ℕ} {pre t : List (Event postgres)}

theorem account_read {id : Uuid} {a : Account} {e : Event postgres} (h : Replayed before b pre e)
    (hd : Did (.selectAccount id) (some a) e) : before.currencyOf id = some a.currency ∧ e.writes = [] := by
  obtain ⟨f, c, r', hsame, hev⟩ := h.eval hd
  obtain ⟨rfl, hws⟩ := eval_selectAccount.mp hev
  refine ⟨?_, hws⟩
  obtain ⟨a', ha', hfix⟩ := Option.map_eq_some_iff.mp hsame
  have hcur : (before.after (writesOf pre)).currencyOf id = some a'.currency := by
    rw [Store.currencyOf, show (before.after (writesOf pre)).accounts.find id = some a' from ha']
    rfl
  rw [← Store.currencyOf_after before (writesOf pre), hcur]
  have hcurrency : a'.fixed.currency = a.fixed.currency := congrArg Account.currency hfix
  exact congrArg some hcurrency

theorem suspense_read {a : Account} {e : Event postgres} (h : Replayed before b pre e)
    (hd : Did (.selectAccountByNumber fxSuspenseAccountNumber) (some a) e) :
    before.suspense = some a.id ∧ e.writes = [] := by
  obtain ⟨f, c, r', hsame, hev⟩ := h.eval hd
  obtain ⟨rfl, hws⟩ := eval_selectAccountByNumber.mp hev
  refine ⟨?_, hws⟩
  obtain ⟨a', ha', hfix⟩ := Option.map_eq_some_iff.mp hsame
  have hid : (before.after (writesOf pre)).suspense = some a'.id := by
    rw [Store.suspense]
    exact congrArg (Option.map Account.id) ha'
  rw [← Store.suspense_after before (writesOf pre), hid]
  have hids : a'.fixed.id = a.fixed.id := congrArg Account.id hfix
  exact congrArg some hids

theorem convertAmount_scale {amount rate d : Decimal} (h : convertAmount amount rate = .ok d) :
    d = .nan false ∨ ∃ s c, d = .finite s c (-2) := by
  cases hm : Decimal.mul defaultContext amount rate with
  | error e => simp [convertAmount, hm, bind, Except.bind] at h
  | ok product =>
    simp only [convertAmount, hm, bind, Except.bind] at h
    exact Decimal.quantize_exp (-2) (by decide) product d h

/-- A converted amount that passes as a line amount is stored as it is. -/
theorem convertAmount_stored {amount rate d : Decimal} {n : Numeric 2} (h : convertAmount amount rate = .ok d)
    (hpos : d.nonPositive = .ok false) (hn : Numeric.ofDecimal 2 d = .ok n) : n.toDecimal = d := by
  rcases convertAmount_scale h with rfl | ⟨s, c, rfl⟩
  · cases hpos
  · have hs : s = false := by
      cases s with
      | false => rfl
      | true => simp [Decimal.nonPositive] at hpos
    subst hs
    exact Numeric.toDecimal_ofDecimal hn

theorem settlementLines_booking {row : PaymentRow} {built : BuildLinesResult}
    (h : Path (settlementLines row.toDomain) t (.ret built)) (hr : Each (Replayed before b) pre t)
    (hv : validateJournalEntry built.2.1 = .ok ()) (hp : before.hasPayment row.id = true) :
    ∃ fx, writesOf t = fxWrites row.id fx ∧ built.2.2 = fx.map (fun x => (x.1, x.2.toDecimal)) ∧
      Booking before row .settled fx
        (some { entryType := built.1, lines := built.2.1, paymentId := some row.id }) := by
  obtain ⟨d, c, e₁, e₂, tr, rfl, h₁, h₂, hcase⟩ := path_settlementLines h
  obtain ⟨hr₁, hr₂, hr⟩ := hr
  obtain ⟨hd, hws₁⟩ := account_read hr₁ h₁
  obtain ⟨hc, hws₂⟩ := account_read hr₂ h₂
  rcases hcase with ⟨hcur, rfl, rfl⟩ | ⟨hne, rate, amount, suspense, e₃, e₄, e₅, rfl, h₃, hconv, h₄, h₅, rfl⟩
  · refine ⟨none, by simp [hws₁, hws₂, fxWrites], rfl, ?_⟩
    rw [← hcur] at hc
    exact .transfer hd hc
  · obtain ⟨hr₃, hr₄, hr₅, -⟩ := hr
    obtain ⟨f₃, c₃, r₃, -, hev₃⟩ := hr₃.eval h₃
    obtain ⟨-, hws₃, -⟩ := eval_selectLatestRate.mp hev₃
    obtain ⟨hs, hws₄⟩ := suspense_read hr₄ h₄
    obtain ⟨f₅, c₅, r₅, -, hev₅⟩ := hr₅.eval h₅
    obtain ⟨n, hn, hfx⟩ := eval_updateFxDetails.mp hev₅
    have hthere (ws : List Write) : (before.after ws).hasPayment row.id = true :=
      (hasPayment_after ws).mpr (.inl hp)
    have hws₅ : e₅.writes = [.setFxDetails row.id rate.id n] := by
      rcases hfx with ⟨-, -, hws⟩ | ⟨hno, -⟩
      · exact hws
      · have htrue := hthere (writesOf (pre ++ [e₁] ++ [e₂] ++ [e₃] ++ [e₄]))
        exact absurd (htrue.symm.trans hno) (by simp)
    have hpos : amount.nonPositive = .ok false := by
      have hall := (validateJournalEntry_ok.mp hv).2.1
      exact hall ⟨suspense.id, .debit, amount, c.currency⟩ (by simp)
    have hamount := convertAmount_stored hconv hpos hn
    refine ⟨some (rate.id, n), ?_, ?_, ?_⟩
    · simp [hws₁, hws₂, hws₃, hws₄, hws₅, fxWrites]
    · simp [hamount]
    · subst hamount
      exact .conversion rate.id n hd hc hne hs

theorem reversalLines_booking {row : PaymentRow} {built : BuildLinesResult}
    (h : Path (reversalLines row.toDomain) t (.ret built)) (hr : Each (Replayed before b) pre t) :
    writesOf t = [] ∧ built.2.2 = none ∧ Booking before row .reversed none
      (some { entryType := built.1, lines := built.2.1, paymentId := some row.id }) := by
  rcases path_reversalLines h with ⟨hn, rfl, rfl⟩ |
    ⟨amount, d, c, suspense, e₁, e₂, e₃, hn, rfl, h₁, h₂, h₃, rfl⟩
  · refine ⟨rfl, rfl, .reversal ?_⟩
    simpa [PaymentRow.toDomain] using hn
  · obtain ⟨hr₁, hr₂, hr₃, -⟩ := hr
    obtain ⟨hd, hws₁⟩ := account_read hr₁ h₁
    obtain ⟨hc, hws₂⟩ := account_read hr₂ h₂
    obtain ⟨hs, hws₃⟩ := suspense_read hr₃ h₃
    obtain ⟨n, hrow, rfl⟩ := Option.map_eq_some_iff.mp hn
    exact ⟨by simp [hws₁, hws₂, hws₃], rfl, .conversionReversal hrow hd hc hs⟩

end Lines
end PaymentLedger
