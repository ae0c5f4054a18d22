import PaymentLedger.Api.Initiation
import PaymentLedger.Iso20022.Pacs008
import PaymentLedger.Iso20022.Provenance
import PaymentLedger.Ledger.ZeroSum
import PaymentLedger.Payments.Requests

namespace PaymentLedger

/-- A request that has come in through an endpoint, and the account numbers of its debtor and creditor. -/
inductive Entered (accounts : Table Account.id) : NewPayment → String → String → Prop
  | json {body : InitiatePaymentRequest} {debtor creditor : Account} (hv : body.Valid)
      (hd : accounts.find body.debtorAccountId = some debtor)
      (hc : accounts.find body.creditorAccountId = some creditor) :
      Entered accounts body.newPayment debtor.accountNumber creditor.accountNumber
  | pain001 {fromstring : List UInt8 → Except String Element} {xmlBytes : List UInt8}
      {transfer : Pain001CreditTransfer} {debtor creditor : Account}
      (hp : parsePain001 fromstring xmlBytes = .ok transfer)
      (hd : accounts.rows.find? (fun a => decide (a.accountNumber = transfer.debtorAccountNumber)) = some debtor)
      (hc : accounts.rows.find? (fun a => decide (a.accountNumber = transfer.creditorAccountNumber)) =
        some creditor) :
      Entered accounts (transfer.newPayment debtor creditor) transfer.debtorAccountNumber
        transfer.creditorAccountNumber

section Entered

variable {accounts : Table Account.id} {req : NewPayment} {debtorNumber creditorNumber : String}

theorem parsePain001_reference {fromstring : List UInt8 → Except String Element} {xmlBytes : List UInt8}
    {transfer : Pain001CreditTransfer} (h : parsePain001 fromstring xmlBytes = .ok transfer) :
    ∃ s, transfer.endToEndId = strip s := by
  unfold parsePain001 at h
  split at h
  · cases h
  · split at h
    · cases h
    · rename_i root _
      rcases root.readTransfer_cases with ⟨-, t, ht, hreads⟩ | ⟨-, e, he⟩
      · obtain rfl := Except.ok.inj (ht.symm.trans h)
        have href := hreads.endToEndId
        rw [Element.findText, strippedText] at href
        split at href
        · split at href
          · cases href
          · exact ⟨_, (Option.some.inj href).symm⟩
        · cases href
      · rw [he] at h
        cases h

/-- The reference is stored as requested: it fits, or it does not end in a space. -/
theorem Entered.reference (h : Entered accounts req debtorNumber creditorNumber) {ref : Option String}
    (hr : nullable (varchar 35) req.endToEndId = .ok ref) : ref = req.endToEndId := by
  have whole {s : String} (hs : req.endToEndId = some s)
      (hfit : s.length ≤ 35 ∨ ∀ hne, s.toList.getLast hne ≠ ' ') : ref = req.endToEndId := by
    rw [hs] at hr ⊢
    cases ht : varchar 35 s with
    | error e => simp [nullable, ht, Except.map] at hr
    | ok t =>
      have hstored : ref = some t := by simpa [nullable, ht, Except.map] using hr.symm
      rw [hstored, varchar_exact ht hfit]
  cases h with
  | @json body debtor creditor hv _ _ =>
    cases href : body.endToEndId with
    | none =>
      have hnone : body.newPayment.endToEndId = none := href
      rw [hnone] at hr ⊢
      exact (Except.ok.inj hr).symm
    | some s => exact whole href (.inl (hv.endToEndId s href))
  | pain001 hp _ _ =>
    obtain ⟨s, hs⟩ := parsePain001_reference hp
    refine whole rfl (.inr ?_)
    rw [hs]
    intro hne hspace
    have hlast := strip_getLast s hne
    rw [hspace] at hlast
    cases hlast

theorem Entered.parties (h : Entered accounts req debtorNumber creditorNumber) : ∃ debtor creditor,
    accounts.find req.debtorAccountId = some debtor ∧ debtor.accountNumber = debtorNumber ∧
    accounts.find req.creditorAccountId = some creditor ∧ creditor.accountNumber = creditorNumber := by
  cases h with
  | json hv hd hc => exact ⟨_, _, hd, rfl, hc, rfl⟩
  | pain001 hp hd hc =>
    refine ⟨_, _, Table.find_of_mem (List.mem_of_find?_eq_some hd), ?_,
      Table.find_of_mem (List.mem_of_find?_eq_some hc), ?_⟩
    · simpa using List.find?_some hd
    · simpa using List.find?_some hc

end Entered

section Cents

/-- A whole number of cents. -/
def Decimal.WholeCents (d : Decimal) : Prop := ∃ z : ℤ, d.toRat = z / 100

theorem Amount.toDecimal_toRat {d : Decimal} {a : Amount} (hpos : d.nonPositive = .ok false)
    (h : Amount.ofDecimal d = .ok a) : a.toDecimal.toRat = a.cents / 100 ∧ 0 < a.cents := by
  obtain ⟨n, hn, -, hd⟩ := Amount.cents_of_positive hpos h
  obtain ⟨value, hp⟩ := a
  cases value with
  | nan => cases hd
  | num z lt =>
    refine ⟨?_, hp⟩
    have hrat : (Numeric.num z lt : Numeric 2).toDecimal.toRat = z * 10 ^ (-2 : ℤ) := Numeric.toDecimal_toRat z lt
    show (Numeric.num z lt : Numeric 2).toDecimal.toRat = (z : ℚ) / 100
    rw [hrat]
    norm_num
    ring

/-- The column keeps exactly the amounts that are whole cents. -/
theorem Amount.exact_iff {d : Decimal} {a : Amount} (hpos : d.nonPositive = .ok false)
    (h : Amount.ofDecimal d = .ok a) : a.toDecimal.toRat = d.toRat ↔ d.WholeCents := by
  obtain ⟨hrat, -⟩ := Amount.toDecimal_toRat hpos h
  constructor
  · intro hsame
    exact ⟨a.cents, hsame.symm.trans hrat⟩
  · rintro ⟨z, hz⟩
    have hfinite : d.IsFinite := by
      cases d with
      | finite s c e => trivial
      | infinity s => cases h
      | nan s => cases hpos
    obtain ⟨-, hunits⟩ := Numeric.units_of_cents (Amount.ofDecimal_ok.mp h) hfinite hz
    have hcents : a.cents = z := hunits
    rw [hrat, hz, hcents]

end Cents

/-- A settled payment has a converted amount iff its accounts differ in currency. -/
def Converted (st : Store) : Prop := ∀ id row, st.payments.find id = some row → row.status = .settled →
  (row.creditorAmount.isSome = true ↔ st.currencyOf row.creditorAccountId ≠ st.currencyOf row.debtorAccountId)

theorem Converted.step {rt : Runtime} {st : Store} {now : ℕ} {d : Deed} (hc : Converted st) (hb : Booked st)
    (h : d.Legal rt st now) : Converted (st.after (d.writes now)) := by
  intro id row hrow hsettled
  rw [Store.currencyOf_after, Store.currencyOf_after]
  rw [Deed.payment_effect h] at hrow
  cases d with
  | initiate new subs ds completion =>
    by_cases hid : new.id = id
    · rw [Deed.payment, if_pos hid] at hrow
      obtain rfl := Option.some.inj hrow
      obtain ⟨⟨req, hi⟩, -⟩ := h
      obtain ⟨a, -, cur, -, ref, -, hnew⟩ := PaymentRow.new_ok.mp hi.stored
      rw [hnew] at hsettled
      cases hsettled
    · rw [Deed.payment, if_neg hid] at hrow
      exact hc id row hrow hsettled
  | transition old toStatus reason fx posting subs ds =>
    by_cases hid : old.id = id
    · rw [Deed.payment, if_pos hid] at hrow
      obtain rfl := Option.some.inj hrow
      have ht : Transition rt st now old toStatus fx posting subs ds := h
      have hbooking := ht.booking
      have hallowed := ht.allowed
      have hold := hb.payments old.id old ht.found
      rw [moved_status] at hsettled
      rw [moved_debtor, moved_creditor]
      generalize posting.map Prod.fst = e at hbooking
      cases hbooking with
      | transfer hd hc =>
        have hauthorised : old.status = .authorised := by
          cases hs : old.status <;> simp [allowedTransitions, hs] at hallowed ⊢
        have hnone := hold.unconverted (.inr hauthorised)
        simp [PaymentRow.moved, hnone, hd, hc]
      | conversion rateId n hd hc hne hs =>
        simp [PaymentRow.moved, hd, hc, Ne.symm hne]
      | _ => cases hsettled
    · rw [Deed.payment, if_neg hid] at hrow
      exact hc id row hrow hsettled
  | _ => exact hc id row hrow hsettled

/-- A conversion that debits and credits the same account: the debtor is the account in between. -/
def Store.SelfConverting (st : Store) (req : NewPayment) : Prop :=
  st.suspense = some req.debtorAccountId ∧ st.currencyOf req.creditorAccountId ≠ st.currencyOf req.debtorAccountId

instance (st : Store) (req : NewPayment) : Decidable (st.SelfConverting req) := by
  unfold Store.SelfConverting
  infer_instance

/-- What a settled payment has booked on its debtor, in the currency of the payment. -/
theorem transferOf_debtor {st : Store} {req : NewPayment} {row : PaymentRow} (hr : Requested st req row)
    (hne : req.debtorAccountId ≠ req.creditorAccountId)
    (hconv : row.creditorAmount.isSome = true ↔
      st.currencyOf row.creditorAccountId ≠ st.currencyOf row.debtorAccountId) :
    st.transferOf row req.debtorAccountId req.currency = if st.SelfConverting req then 0
      else -row.amount.cents := by
  rw [hr.debtor, hr.creditor] at hconv
  have hcreditor (cur : Option String) (z : ℤ) :
      amountOn (some req.creditorAccountId) cur z req.debtorAccountId req.currency = 0 := by
    rw [amountOn, if_neg]
    rintro ⟨h, -⟩
    exact hne (Option.some.inj h).symm
  have hdebtor (z : ℤ) :
      amountOn (some req.debtorAccountId) (some req.currency) z req.debtorAccountId req.currency = z := by
    rw [amountOn, if_pos ⟨rfl, rfl⟩]
  cases hn : row.creditorAmount with
  | none =>
    have hnot : ¬st.SelfConverting req := by
      rintro ⟨-, hdiffer⟩
      rw [hn] at hconv
      cases hconv.mpr hdiffer
    rw [if_neg hnot]
    simp only [Store.transferOf, hn, hr.debtor, hr.creditor, hr.debtorCurrency, hcreditor, hdebtor]
    omega
  | some n =>
    have hdiffer : st.currencyOf req.creditorAccountId ≠ st.currencyOf req.debtorAccountId := by
      rw [hn] at hconv
      exact hconv.mp rfl
    simp only [Store.transferOf, hn, hr.debtor, hr.creditor, hr.debtorCurrency, hcreditor, hdebtor]
    by_cases hs : st.suspense = some req.debtorAccountId
    · rw [if_pos ⟨hs, hdiffer⟩, hs, hdebtor, amountOn, if_neg]
      · omega
      · rintro ⟨-, hcur⟩
        rw [hr.debtorCurrency] at hdiffer
        exact hdiffer hcur
    · have hnot : ¬st.SelfConverting req := fun h => hs h.1
      have hother (cur : Option String) (z : ℤ) :
          amountOn st.suspense cur z req.debtorAccountId req.currency = 0 := by
        rw [amountOn, if_neg]
        exact fun h => hs h.1
      rw [if_neg hnot, hother, hother]
      omega

section Honoured

/-- The message reads as the request: its amount and currency, its reference, its two accounts. -/
structure Carries (doc : Element) (req : NewPayment) (e debtorNumber creditorNumber : String) : Prop where
  amount : ∃ text d, (settlementAmountOf doc).bind Element.text = some text ∧
    Decimal.ofString text = some d ∧ d.toRat = req.amount.toRat
  currency : (settlementAmountOf doc).bind (fun el => el.get "Ccy") = some req.currency
  endToEndId : endToEndIdOf doc = some e
  debtor : debtorAccountOf doc = some debtorNumber
  creditor : creditorAccountOf doc = some creditorNumber

variable (st : Store) (req : NewPayment) (e debtorNumber creditorNumber : String)

/-- The requested amount is the amount stored, the amount moved once settled, and the amount emitted. -/
def Honoured (id : Uuid) : Prop :=
  ∃ row, st.payments.find id = some row ∧ row.amount.toDecimal.toRat = req.amount.toRat ∧
    (row.status = .settled →
      (netOn (st.linesOf id) req.debtorAccountId req.currency : ℚ) / 100 = -req.amount.toRat ∧
      ∀ msgId created, isXmlText created = true → ∃ doc, st.emitPacs008 msgId created id = .ok doc ∧
        Carries doc req e debtorNumber creditorNumber)

/-- Every text that the message takes from the request and its accounts. -/
def Store.requestTexts : List String :=
  let party (id : Uuid) := (st.accounts.find id).toList.flatMap fun a => [a.ownerName, a.accountNumber]
  e :: req.currency :: (party req.debtorAccountId ++ party req.creditorAccountId)

def Store.hasSettled (id : Uuid) : Bool :=
  (st.payments.find id).any fun row => decide (row.status = .settled)

end Honoured

section Emission

variable {st : Store} {req : NewPayment} {row : PaymentRow} {e : String} {debtor creditor : Account}

/-- The message of a settled payment is emitted iff the texts of its request are XML compatible. -/
theorem emitPacs008_carries (hrow : st.payments.find row.id = some row) (hr : Requested st req row)
    (hsettled : row.status = .settled) (hcur : row.currency = req.currency) (href : row.endToEndId = some e)
    (hne : e ≠ "") (hexact : row.amount.toDecimal.toRat = req.amount.toRat)
    (hcents : ∃ n, 0 < n ∧ n < 10 ^ 18 ∧ row.amount.toDecimal = .finite false n (-2))
    (hd : st.accounts.find req.debtorAccountId = some debtor)
    (hc : st.accounts.find req.creditorAccountId = some creditor) :
    (∀ msgId created, isXmlText created = true → ∃ doc, st.emitPacs008 msgId created row.id = .ok doc ∧
      Carries doc req e debtor.accountNumber creditor.accountNumber) ↔
    ∀ s ∈ st.requestTexts req e, isXmlText s = true := by
  have hemit (msgId : Uuid) (created : String) : st.emitPacs008 msgId created row.id =
      buildPacs008 msgId created row.toDomain
        ⟨debtor.accountNumber, debtor.ownerName, creditor.accountNumber, creditor.ownerName⟩ := by
    simp only [Store.emitPacs008, hrow, hr.debtor, hr.creditor, hd, hc]
  have hreference : row.toDomain.reference = e := by
    have he : row.toDomain.endToEndId = some e := href
    rw [Payment.reference, he]
    exact if_neg hne
  have hcurrency : row.toDomain.currency = req.currency := hcur
  obtain ⟨n, -, hn, hamount⟩ := hcents
  have hstr : row.toDomain.amount = .finite false n (-2) := hamount
  have hfinite : row.toDomain.amount.IsFinite := by
    rw [hstr]
    trivial
  have htexts : st.requestTexts req e = [e, req.currency, debtor.ownerName, debtor.accountNumber,
      creditor.ownerName, creditor.accountNumber] := by
    simp only [Store.requestTexts, hd, hc]
    rfl
  rw [htexts]
  constructor
  · intro h
    obtain ⟨doc, hdoc, -⟩ := h 0 "" rfl
    rw [hemit] at hdoc
    obtain ⟨-, hall, -⟩ := buildPacs008_ok.mp hdoc
    have hall' := (pacs008Texts_isXmlText rfl hfinite).mp hall
    rw [hreference, hcurrency] at hall'
    exact hall'
  · intro h msgId created hcreated
    rw [← hreference, ← hcurrency] at h
    have hdoc : st.emitPacs008 msgId created row.id = .ok (pacs008Document msgId created row.toDomain
        ⟨debtor.accountNumber, debtor.ownerName, creditor.accountNumber, creditor.ownerName⟩) := by
      rw [hemit]
      exact buildPacs008_ok.mpr ⟨hsettled, (pacs008Texts_isXmlText hcreated hfinite).mpr h, rfl⟩
    obtain ⟨hend, htext, hccy, hdebtor, hcreditor⟩ := pacs008Document_reads msgId created row.toDomain
      ⟨debtor.accountNumber, debtor.ownerName, creditor.accountNumber, creditor.ownerName⟩
    refine ⟨_, hdoc, ⟨_, _, htext, ?_, hexact⟩, ?_, ?_, hdebtor, hcreditor⟩
    · rw [hstr, hamount]
      exact Decimal.ofString_cents hn
    · rw [hccy]
      exact congrArg some hcur
    · rw [hend, hreference]

end Emission

section Runs

variable {ι : Type} [DecidableEq ι] {rt : Runtime} {step : Feed → Feed → Prop} {st₀ : Store}
  {calls : ι → Call} {σ : Config postgres ι Value}

theorem WellFormed.converted (h : WellFormed (feedEnv step) st₀ (fun i => (calls i).prog rt) σ) (h₀ : Fresh st₀)
    (hc : ∀ i entry n, calls i = .postJournalEntry entry n → entry.paymentId = none) : Converted σ.world.store := by
  have hboth := h.invariant (fun _ st => Booked st ∧ Converted st) ⟨h₀.booked, ?_⟩ ?_ ?_
  · exact hboth.2
  · intro id row hrow
    have hmem := Table.mem_of_find hrow
    rw [h₀.payments] at hmem
    cases hmem
  · rintro l st f ⟨hb, hconv⟩
    exact ⟨hb.feed f, hconv⟩
  · rintro l c v d hd ⟨hb, hconv⟩
    refine ⟨hb.step hd.deed.legal ?_, hconv.step hb hd.deed.legal⟩
    rintro e p rfl
    obtain ⟨n, hcall⟩ := hd.deed.post_call
    exact hc c.caller e n hcall

/-- An account keeps all but its version. -/
theorem WellFormed.account (h : WellFormed (feedEnv step) st₀ (fun i => (calls i).prog rt) σ)
    {id : Uuid} {a : Account}
    (ha : st₀.accounts.find id = some a) : ∃ a', σ.world.store.accounts.find id = some a' ∧
      a'.accountNumber = a.accountNumber := by
  have hfixed : σ.world.store.accounts.rows.map Account.fixed = st₀.accounts.rows.map Account.fixed := by
    apply h.invariant fun _ st => st.accounts.rows.map Account.fixed = st₀.accounts.rows.map Account.fixed
    · rfl
    · intro l st f hP
      exact hP
    · intro l c v d _ hP
      rw [Store.fixed_after]
      exact hP
  have hfind := Store.find_fixed hfixed id
  rw [ha] at hfind
  obtain ⟨a', ha', heq⟩ := Option.map_eq_some_iff.mp hfind
  have hnumber : a'.fixed.accountNumber = a.fixed.accountNumber := by rw [heq]
  exact ⟨a', ha', hnumber⟩

/-- The amount requested is the amount stored, moved and emitted iff it is in whole cents and, once the payment
is settled, the debtor is not the account in between of its own conversion and every text is XML compatible. -/
theorem requested_amount_moved (h₀ : Fresh st₀) (h : Reachable rt step st₀ calls σ)
    (hc : ∀ i entry n, calls i = .postJournalEntry entry n → entry.paymentId = none)
    {c : Commit postgres ι} (hmem : c ∈ σ.world.log) {row₀ : PaymentRow}
    (hwrite : .insertPayment row₀ ∈ writesOf c.tx)
    {req : NewPayment} (hreq : (calls c.caller).request = some req) {debtorNumber creditorNumber : String}
    (hentered : Entered st₀.accounts req debtorNumber creditorNumber) {e : String} (he : req.endToEndId = some e)
    (hne : e ≠ "") :
    Honoured σ.world.store req e debtorNumber creditorNumber row₀.id ↔ req.amount.WholeCents ∧
      (σ.world.store.hasSettled row₀.id = true → ¬σ.world.store.SelfConverting req ∧
        ∀ s ∈ σ.world.store.requestTexts req e, isXmlText s = true) := by
  obtain ⟨clock, hr⟩ := h
  have hwf := reaches_wellFormed hr
  obtain ⟨row, hrow, hrequested⟩ := (hwf.requests h₀).kept c hmem req hreq row₀ hwrite
  obtain hid : row.id = row₀.id := Table.find_key hrow
  rw [← hid] at hrow ⊢
  have hvalid := hwf.valid_request hmem hreq
  have hpos : req.amount.nonPositive = .ok false := by
    unfold validateNewPayment at hvalid
    split at hvalid
    · cases hvalid
    · cases hvalid
    · assumption
  have hparties : req.debtorAccountId ≠ req.creditorAccountId := by
    rw [validateNewPayment, hpos] at hvalid
    intro hsame
    rw [if_pos hsame] at hvalid
    cases hvalid
  have hbooked := (hwf.booked h₀ hc).payments row.id row hrow
  have hcur : row.currency = req.currency := by
    have hdebtor := hbooked.currency
    rw [hrequested.debtor, hrequested.debtorCurrency] at hdebtor
    exact (Option.some.inj hdebtor).symm
  have href : row.endToEndId = some e := (hentered.reference hrequested.endToEndId).trans he
  obtain ⟨debtor₀, creditor₀, hd₀, rfl, hc₀, rfl⟩ := hentered.parties
  obtain ⟨debtor, hd, hdn⟩ := hwf.account hd₀
  obtain ⟨creditor, hcr, hcn⟩ := hwf.account hc₀
  rw [← hdn, ← hcn]
  obtain ⟨hrat, hcents⟩ := Amount.toDecimal_toRat hpos hrequested.amount
  have hexact := Amount.exact_iff hpos hrequested.amount
  have hsettled : σ.world.store.hasSettled row.id = true ↔ row.status = .settled := by
    rw [Store.hasSettled, hrow]
    exact decide_eq_true_iff
  have hmessage (hs : row.status = .settled) (hx : row.amount.toDecimal.toRat = req.amount.toRat) :=
    emitPacs008_carries hrow hrequested hs hcur href hne hx (Amount.cents_of_positive hpos hrequested.amount) hd hcr
  have hmoved (hs : row.status = .settled) (hx : row.amount.toDecimal.toRat = req.amount.toRat) :
      (netOn (σ.world.store.linesOf row.id) req.debtorAccountId req.currency : ℚ) / 100 = -req.amount.toRat ↔
        ¬σ.world.store.SelfConverting req := by
    rw [hbooked.net, if_pos hs, transferOf_debtor hrequested hparties (hwf.converted h₀ hc row.id row hrow hs),
      ← hx, hrat]
    split
    · rename_i hself
      have hpositive : (0 : ℚ) < row.amount.cents / 100 := by positivity
      constructor
      · intro hzero
        rw [Int.cast_zero, zero_div] at hzero
        linarith
      · intro hnot
        exact absurd hself hnot
    · rename_i hnot
      simp only [hnot, not_false_eq_true, iff_true]
      push_cast
      ring
  rw [hsettled, ← hexact]
  constructor
  · rintro ⟨row', hrow', hx, hlater⟩
    obtain rfl := Option.some.inj (hrow.symm.trans hrow')
    refine ⟨hx, fun hs => ?_⟩
    obtain ⟨hnet, hemitted⟩ := hlater hs
    exact ⟨(hmoved hs hx).mp hnet, (hmessage hs hx).mp hemitted⟩
  · rintro ⟨hx, hlater⟩
    refine ⟨row, hrow, hx, fun hs => ?_⟩
    obtain ⟨hself, htexts⟩ := hlater hs
    exact ⟨(hmoved hs hx).mpr hself, (hmessage hs hx).mpr htexts⟩

end Runs

section Samples

def sampleBody (amount : Decimal) : InitiatePaymentRequest := ⟨1, 2, amount, "eur", some "REF"⟩

/-- A payment by `POST /payments`, from its initiation to its settlement. -/
def postedCalls (amount : Decimal) : Fin 3 → Call
  | 0 => .initiatePaymentIdempotent "key" (sampleBody amount).modelDump (sampleBody amount).newPayment
  | 1 => .authorisePayment 10 3
  | 2 => .settlePayment 10 3

def postedSchedule : List (Fin 3 × Choice) :=
  let subscriptions := sampleStore.feed.webhookSubscriptions.rows
  List.replicate 8 (0, { id := 10 }) ++ List.replicate 5 (0, { id := 80, subscriptions }) ++
    List.replicate 7 (1, { id := 81, subscriptions }) ++ List.replicate 15 (2, { id := 82, subscriptions })

def postedEnd (amount : Decimal) : Option (Config postgres (Fin 3) Value) :=
  (System sampleRuntime sampleStore 0 (postedCalls amount)).run postedSchedule

theorem sampleBody_entered {amount : Decimal} (h : (sampleBody amount).Valid) :
    Entered sampleStore.accounts (sampleBody amount).newPayment "DE01" "DE02" :=
  @Entered.json sampleStore.accounts (sampleBody amount) (sampleAccount 1 "DE01" "EUR")
    (sampleAccount 2 "DE02" "EUR") h
    rfl rfl

theorem posted_direct (amount : Decimal) (i : Fin 3) (entry : JournalEntry) (n : ℕ)
    (h : postedCalls amount i = .postJournalEntry entry n) : entry.paymentId = none := by
  fin_cases i <;> cases h

/-- The row that the request stores. -/
def storedRow (amount : Amount) : PaymentRow where
  id := 10
  debtorAccountId := 1
  creditorAccountId := 2
  amount := amount
  currency := "EUR"
  endToEndId := some "REF"
  status := .initiated
  version := 0
  fxRateId := none
  creditorAmount := none

def tenEuros : Amount := ⟨.num 1000 (by decide), by decide⟩

def twoCents : Amount := ⟨.num 2 (by decide), by decide⟩

theorem requested_amount_moved_settled : ∃ σ, postedEnd (cents 1000) = some σ ∧
    Honoured σ.world.store (sampleBody (cents 1000)).newPayment "REF" "DE01" "DE02" 10 := by
  have hrun : (postedEnd (cents 1000)).isSome = true := by decide +kernel
  obtain ⟨σ, hσ⟩ := Option.isSome_iff_exists.mp hrun
  have hreach : Reachable sampleRuntime (fun _ _ => False) sampleStore (postedCalls (cents 1000)) σ :=
    reachable_of_run hσ
  have hstored : (postedEnd (cents 1000)).any fun σ => decide (∃ c ∈ σ.world.log, c.caller = 0 ∧
      storedRow tenEuros ∈ (writesOf c.tx).filterMap Write.paymentRow) := by decide +kernel
  have hclean : (postedEnd (cents 1000)).any fun σ =>
      decide (¬σ.world.store.SelfConverting (sampleBody (cents 1000)).newPayment ∧
        ∀ s ∈ σ.world.store.requestTexts (sampleBody (cents 1000)).newPayment "REF", isXmlText s = true) := by
    decide +kernel
  rw [hσ] at hstored hclean
  obtain ⟨c, hc, hcaller, hwrite⟩ := of_decide_eq_true hstored
  have hreq : (postedCalls (cents 1000) c.caller).request = some (sampleBody (cents 1000)).newPayment := by
    rw [hcaller]
    rfl
  have hcents : (sampleBody (cents 1000)).newPayment.amount.WholeCents := by
    refine ⟨1000, ?_⟩
    norm_num [sampleBody, InitiatePaymentRequest.newPayment, cents, Decimal.toRat]
  exact ⟨σ, hσ,
    (requested_amount_moved sampleStore_fresh hreach (posted_direct _) hc (Write.mem_paymentRow.mp hwrite) hreq
    (sampleBody_entered (by decide)) rfl (by decide)).mpr ⟨hcents, fun _ => of_decide_eq_true hclean⟩⟩

/-- An amount of 0.015 is stored and settled as 0.02. -/
theorem halfCent_rounded : ∃ σ, Fresh sampleStore ∧
    Reachable sampleRuntime (fun _ _ => False) sampleStore (postedCalls (.finite false 15 (-3))) σ ∧
    Entered sampleStore.accounts (sampleBody (.finite false 15 (-3))).newPayment "DE01" "DE02" ∧
    (∃ c ∈ σ.world.log, c.caller = 0 ∧ .insertPayment (storedRow twoCents) ∈ writesOf c.tx) ∧
    netOn (σ.world.store.linesOf 10) 1 "EUR" = -2 ∧
    ¬Honoured σ.world.store (sampleBody (.finite false 15 (-3))).newPayment "REF" "DE01" "DE02" 10 := by
  have hrun : (postedEnd (.finite false 15 (-3))).isSome = true := by decide +kernel
  obtain ⟨σ, hσ⟩ := Option.isSome_iff_exists.mp hrun
  have hend : (postedEnd (.finite false 15 (-3))).any fun σ => decide ((∃ c ∈ σ.world.log, c.caller = 0 ∧
      storedRow twoCents ∈ (writesOf c.tx).filterMap Write.paymentRow) ∧
      netOn (σ.world.store.linesOf 10) 1 "EUR" = -2 ∧
      (σ.world.store.payments.find 10).map (fun row => row.amount.toDecimal) = some (cents 2)) := by decide +kernel
  rw [hσ] at hend
  obtain ⟨⟨c, hc, hcaller, hwrite⟩, hnet, hamount⟩ := of_decide_eq_true hend
  refine ⟨σ, sampleStore_fresh, reachable_of_run hσ, sampleBody_entered (by decide),
    ⟨c, hc, hcaller, Write.mem_paymentRow.mp hwrite⟩, hnet, ?_⟩
  rintro ⟨row, hrow, hsame, -⟩
  rw [hrow] at hamount
  have htwo : row.amount.toDecimal = cents 2 := Option.some.inj hamount
  rw [htwo] at hsame
  norm_num [sampleBody, InitiatePaymentRequest.newPayment, cents, Decimal.toRat] at hsame

end Samples

end PaymentLedger
