import PaymentLedger.Api.Initiation
import PaymentLedger.Iso20022.Comments
import PaymentLedger.Payments.Initiations

namespace PaymentLedger

section Endings

/-- How `POST /iso20022/pain001` ends for a document that has been parsed. -/
def PainEnds (st : Store) (transfer : Pain001CreditTransfer) (answer : Answer) (st' : Store) : Prop :=
  ∃ r, (ingestPain001 transfer).Ends st r st' ∧ ingestPain001Answer r = answer

/-- How `POST /payments` ends. -/
def PostEnds (rt : Runtime) (st : Store) (key : String) (body : InitiatePaymentRequest) (answer : Answer)
    (st' : Store) : Prop :=
  if body.Valid then ∃ r, (createPaymentCall rt key body).Ends st r st' ∧ createPaymentAnswer r = answer
  else answer = .refused 422 ∧ st' = st

/-- The JSON body with the accounts of the document resolved. -/
def Pain001CreditTransfer.jsonBody (transfer : Pain001CreditTransfer) (debtor creditor : Account) :
    InitiatePaymentRequest where
  debtorAccountId := debtor.id
  creditorAccountId := creditor.id
  amount := transfer.amount
  currency := transfer.currency
  endToEndId := some transfer.endToEndId

/-- The payment has been added, and is the answer. -/
def Adds (st : Store) (answer : Answer) (st' : Store) (row : PaymentRow) : Prop :=
  st'.payments.rows = st.payments.rows ++ [row] ∧ answer = .created (paymentResponseDict row.toDomain)

structure SameTerms (row row' : PaymentRow) : Prop where
  debtor : row.debtorAccountId = row'.debtorAccountId
  creditor : row.creditorAccountId = row'.creditorAccountId
  amount : row.amount = row'.amount
  currency : row.currency = row'.currency
  endToEndId : row.endToEndId = row'.endToEndId

/-- Both add a payment on the same terms, or both add none and answer with the same status for a bad request. -/
def EndAlike (st : Store) (answer : Answer) (st₁ : Store) (answer' : Answer) (st₂ : Store) : Prop :=
  (∃ row row', Adds st answer st₁ row ∧ Adds st answer' st₂ row' ∧ SameTerms row row') ∨
    ∃ status, 400 ≤ status ∧ status < 500 ∧ answer = .refused status ∧ answer' = .refused status ∧
      st₁.payments = st.payments ∧ st₂.payments = st.payments

end Endings

section Verdicts

variable {rt : Runtime} {st st' : Store} {req : NewPayment} {answer : Answer}

/-- How an endpoint answers a request, given what stands against it. -/
inductive Verdict (st : Store) (req : NewPayment) (status : AppError → Option ℕ) (answer : Answer) (st' : Store) :
    Option AppError → Prop
  | refused {e : AppError} (h : answer = .ofError status e) (hst : st'.payments = st.payments) :
      Verdict st req status answer st' (some e)
  | created {row : PaymentRow} (hrow : req.Makes row) (h : Adds st answer st' row) :
      Verdict st req status answer st' none

theorem rows_added {row : PaymentRow} {new : List Write} (hfree : st.payments.find row.id = none)
    (hnew : ∀ w ∈ new, w.follows = true) (hst : st' = st.after (.insertPayment row :: new)) :
    st'.payments.rows = st.payments.rows ++ [row] := by
  rw [hst, Store.after_cons, payments_follow hnew]
  exact Table.rows_insert hfree

theorem wp_ingestPain001 (hroom : st.Room) {transfer : Pain001CreditTransfer} {debtor creditor : Account}
    (hd : st.accounts.rows.find? (fun a => decide (a.accountNumber = transfer.debtorAccountNumber)) = some debtor)
    (hc : st.accounts.rows.find? (fun a => decide (a.accountNumber = transfer.creditorAccountNumber)) =
      some creditor) :
    (ingestPain001 transfer).wp True (.alone postgres)
      (fun r st' _ => Verdict st (transfer.newPayment debtor creditor) ingestPain001Status (ingestPain001Answer r)
        st' (st.against (transfer.newPayment debtor creditor) none)) st [] := by
  have hS := Setting.still_alone True st
  unfold Store.against
  apply Prog.wp_bind
  apply Prog.wp_uow
  apply Prog.wp_bind
  apply Prog.wp_bind
  apply wp_read (f :=
    fun st => st.accounts.rows.find? fun a => decide (a.accountNumber = transfer.debtorAccountNumber))
    fun _ _ _ => rfl
  rintro _ rfl _ rfl
  rw [Store.after_nil, hd]
  rintro _ rfl
  apply Prog.wp_bind
  apply Prog.wp_bind
  apply wp_read (f :=
    fun st => st.accounts.rows.find? fun a => decide (a.accountNumber = transfer.creditorAccountNumber))
    fun _ _ _ => rfl
  rintro _ rfl _ rfl
  rw [Store.after_nil, hc]
  rintro st rfl st rfl
  apply Prog.wp_bind
  apply Prog.wp_ofExcept
  cases validateNewPayment (transfer.newPayment debtor creditor).amount
    (transfer.newPayment debtor creditor).debtorAccountId
      (transfer.newPayment debtor creditor).creditorAccountId with
  | error e =>
    rintro st rfl
    exact .refused rfl rfl
  | ok u =>
    rintro st rfl
    simp only [Option.none_or]
    show Prog.wp _ _ (fun r st' _ => Verdict st (transfer.newPayment debtor creditor) ingestPain001Status
      (ingestPain001Answer r) st' (st.refusal (transfer.newPayment debtor creditor))) _ st []
    apply wp_initiatePaymentBlock hS (fun _ => hroom.payments) fun _ => hroom.deliveries
    · rintro e he _ rfl
      rw [he]
      exact .refused rfl rfl
    · rintro hnone _ rfl row p new hmakes hsame hnew st' hst'
      obtain ⟨rfl, hfree⟩ := hsame trivial
      rw [hnone]
      exact .created hmakes ⟨rows_added hfree hnew hst', rfl⟩

theorem wp_createPaymentCall (hroom : st.Room) {key : String} {body : InitiatePaymentRequest}
    (hfree : ∀ stored, varchar 255 key = .ok stored →
      st.idempotencyKeys.find (idempotencyEndpointInitiatePayment, stored) = none) :
    (createPaymentCall rt key body).wp True (.alone postgres) (fun r st' _ => Verdict st body.newPayment
      createPaymentStatus (createPaymentAnswer r) st' (st.against body.newPayment (keyRefusal key))) st [] := by
  have hS := Setting.still_alone True st
  unfold Store.against keyRefusal
  apply wp_initiatePaymentIdempotent hS fun _ => hroom
  · rintro _ rfl
    exact hfree
  · rintro e he _ rfl
    rw [he]
    exact .refused rfl rfl
  · rintro hvalid e he _ rfl
    rw [hvalid, he]
    exact .refused rfl rfl
  · rintro hvalid hdebtor e he _ rfl
    rw [hvalid, hdebtor, he]
    exact .refused rfl rfl
  · rintro hvalid hdebtor stored hstored e he _ ⟨_, id, rfl, rfl⟩
    rw [hvalid, hdebtor, hstored, he]
    exact .refused rfl rfl
  · rintro hvalid hnone stored hstored st₁ ⟨st, id, rfl, hst₁⟩ row p new hmakes hsame hnew st' hst'
    obtain ⟨rfl, hfree'⟩ := hsame trivial
    obtain ⟨hdebtor, hrow⟩ := Store.refusal_none.mp hnone
    have hclaim : st₁.payments = st.payments := by
      rw [hst₁]
      rfl
    have hrows : st'.payments.rows = st₁.payments.rows ++ [row] :=
      rows_added (by rw [hclaim]; exact hfree') hnew hst'
    rw [hvalid, hdebtor, hstored, hrow]
    rw [hclaim] at hrows
    exact .created hmakes ⟨hrows, rfl⟩

end Verdicts

section Columns

theorem Numeric.ofDecimal_error {scale : ℕ} {d : Decimal} {e : DbError} (h : Numeric.ofDecimal scale d = .error e) :
    e = .numericOverflow := by
  cases d with
  | finite s c x =>
    simp only [Numeric.ofDecimal] at h
    split at h
    · cases h
    · exact (Except.error.inj h).symm
  | infinity s => exact (Except.error.inj h).symm
  | nan s => cases h

theorem varchar_error {n : ℕ} {s : String} {e : DbError} (h : varchar n s = .error e) :
    e = .invalidText ∨ e = .stringTruncation := by
  unfold varchar at h
  split at h
  · exact .inl (Except.error.inj h).symm
  · split at h
    · cases h
    · split at h
      · cases h
      · exact .inr (Except.error.inj h).symm

/-- The columns take the values. -/
structure NewPayment.Fits (req : NewPayment) : Prop where
  amount : ∃ n, Numeric.ofDecimal 2 req.amount = .ok n
  currency : ∃ cur, varchar 3 req.currency = .ok cur
  endToEndId : ∃ ref, nullable (varchar 35) req.endToEndId = .ok ref

variable {st : Store} {req : NewPayment}

/-- A row whose values fit is refused for the check on its amount only. -/
theorem NewPayment.Fits.rowRefusal (h : req.Fits) (hc : st.hasAccount req.creditorAccountId = true) :
    st.rowRefusal req = none ∨ st.rowRefusal req = some .checkViolation := by
  obtain ⟨n, hn⟩ := h.amount
  obtain ⟨cur, hcur⟩ := h.currency
  obtain ⟨ref, href⟩ := h.endToEndId
  unfold Store.rowRefusal PaymentRow.new
  by_cases hpos : n.Positive
  · simp [hn, hcur, href, Amount.check, hpos, hc, bind, Except.bind, pure, Except.pure]
  · simp [hn, hcur, href, Amount.check, hpos, bind, Except.bind]

/-- A value that does not fit is not an integrity error. -/
theorem rowRefusal_of_not_fits (h : ¬req.Fits) :
    ∃ e, st.rowRefusal req = some e ∧ e ≠ .checkViolation ∧ e ≠ .foreignKeyViolation := by
  unfold Store.rowRefusal PaymentRow.new
  cases hn : Numeric.ofDecimal 2 req.amount with
  | error e =>
    rw [Numeric.ofDecimal_error hn]
    exact ⟨_, rfl, by decide, by decide⟩
  | ok n =>
    cases hcur : varchar 3 req.currency with
    | error e => exact ⟨e, rfl, by rcases varchar_error hcur with rfl | rfl <;> decide⟩
    | ok cur =>
      cases href : nullable (varchar 35) req.endToEndId with
      | ok ref => exact absurd ⟨⟨n, hn⟩, ⟨cur, hcur⟩, ref, href⟩ h
      | error e =>
        have hlong : ∃ s, varchar 35 s = .error e := by
          cases hreq : req.endToEndId with
          | none => simp [hreq, nullable] at href
          | some s =>
            refine ⟨s, ?_⟩
            cases hs : varchar 35 s with
            | ok t => simp [hreq, nullable, hs, Except.map] at href
            | error e' =>
              simp only [hreq, nullable, hs, Except.map, Except.error.injEq] at href
              rw [href]
        obtain ⟨s, hs⟩ := hlong
        exact ⟨e, rfl, by rcases varchar_error hs with rfl | rfl <;> decide⟩

end Columns

section Agreement

theorem valid_of_positive {amount : Decimal} {debtorId creditorId : Uuid} (hpos : amount.nonPositive = .ok false)
    (hne : debtorId ≠ creditorId) : validateNewPayment amount debtorId creditorId = .ok () := by
  rw [validateNewPayment, hpos]
  exact if_neg hne

variable {rt : Runtime} {st st₁ st₂ : Store} {answer answer' : Answer} {key : String}
    {transfer : Pain001CreditTransfer}
  {debtor creditor : Account}

/-- A document that both endpoints take, or refuse for the amount that they would store: of two accounts, in the
currency of the debtor written as it is stored, with a reference and a key that their columns take. -/
structure Pain001CreditTransfer.Common (transfer : Pain001CreditTransfer) (key : String)
    (debtor creditor : Account) : Prop where
  positive : transfer.amount.nonPositive = .ok false
  parties : debtor.id ≠ creditor.id
  amount : ∃ n, Numeric.ofDecimal 2 transfer.amount = .ok n
  currency : debtor.currency = transfer.currency
  upper : upper transfer.currency = transfer.currency
  three : transfer.currency.length = 3
  short : transfer.endToEndId.length ≤ 35
  endToEndId : ∃ ref, varchar 35 transfer.endToEndId = .ok ref
  key : ∃ stored, varchar 255 key = .ok stored

theorem EndAlike.handled (h : EndAlike st answer st₁ answer' st₂) (e : AppError) :
    answer ≠ .unhandled e ∧ answer' ≠ .unhandled e := by
  rcases h with ⟨row, row', ha, ha', -⟩ | ⟨status, -, -, ha, ha', -⟩
  · rw [ha.2, ha'.2]
    exact ⟨nofun, nofun⟩
  · rw [ha, ha']
    exact ⟨nofun, nofun⟩

/-- Where one of them answers with a status, the other does with the same. -/
theorem EndAlike.status (h : EndAlike st answer st₁ answer' st₂) {status : ℕ} : answer = .refused status ↔
    answer' = .refused status := by
  rcases h with ⟨row, row', ha, ha', -⟩ | ⟨status', -, -, ha, ha', -⟩
  · rw [ha.2, ha'.2]
    exact ⟨nofun, nofun⟩
  · rw [ha, ha']

theorem Common.valid (h : transfer.Common key debtor creditor) : (transfer.jsonBody debtor creditor).Valid := by
  refine ⟨?_, h.positive, h.three, ?_⟩
  · obtain ⟨n, hn⟩ := h.amount
    show transfer.amount.IsFinite
    cases ha : transfer.amount with
    | finite s c e => exact trivial
    | infinity s =>
      rw [ha] at hn
      cases hn
    | nan s =>
      have hpos := h.positive
      rw [ha] at hpos
      cases hpos
  · intro ref href
    obtain rfl := Option.some.inj href
    exact h.short

/-- In upper case, the two endpoints initiate the same payment. -/
theorem jsonBody_newPayment (h : upper transfer.currency = transfer.currency) :
    (transfer.jsonBody debtor creditor).newPayment = transfer.newPayment debtor creditor := by
  rw [InitiatePaymentRequest.newPayment]
  simp only [Pain001CreditTransfer.jsonBody, h]
  rfl

theorem makes_sameTerms {req : NewPayment} {row row' : PaymentRow} (h : req.Makes row) (h' : req.Makes row') :
    SameTerms row row' := by
  obtain ⟨a, ha, cur, hcur, ref, href, hrow⟩ := PaymentRow.new_ok.mp h
  obtain ⟨a', ha', cur', hcur', ref', href', hrow'⟩ := PaymentRow.new_ok.mp h'
  rw [ha] at ha'
  rw [hcur] at hcur'
  rw [href] at href'
  rw [hrow, hrow', Except.ok.inj ha', Except.ok.inj hcur', Except.ok.inj href']
  exact ⟨rfl, rfl, rfl, rfl, rfl⟩

section Verdicts

variable (hd : debtor ∈ st.accounts.rows) (hc : creditor ∈ st.accounts.rows)
  (hpain : Verdict st (transfer.newPayment debtor creditor) ingestPain001Status answer st₁
    (st.against (transfer.newPayment debtor creditor) none))
  (hpost : if (transfer.jsonBody debtor creditor).Valid then
      Verdict st (transfer.jsonBody debtor creditor).newPayment createPaymentStatus answer' st₂
        (st.against (transfer.jsonBody debtor creditor).newPayment (keyRefusal key))
    else answer' = .refused 422 ∧ st₂ = st)

include hd in
theorem currencyOf_debtor : st.currencyOf debtor.id = some debtor.currency := by
  rw [Store.currencyOf, Table.find_of_mem hd]
  rfl

include hd in
theorem debtorRefusal_iff {req : NewPayment} (hreq : req.debtorAccountId = debtor.id) : st.debtorRefusal req =
    if debtor.currency = req.currency then none
      else some (.paymentCurrencyMismatch debtor.currency req.currency) := by
  rw [Store.debtorRefusal, hreq, currencyOf_debtor hd]

include hd hc hpain hpost in
theorem alike_of_common (h : transfer.Common key debtor creditor)
    (hcur : ∀ a ∈ st.accounts.rows, varchar 3 a.currency = .ok a.currency) :
    EndAlike st answer st₁ answer' st₂ := by
  rw [if_pos (Common.valid h), jsonBody_newPayment h.upper] at hpost
  obtain ⟨stored, hstored⟩ := h.key
  have hkey : keyRefusal key = none := by
    rw [keyRefusal, hstored]
  have hagainst : st.against (transfer.newPayment debtor creditor) none =
      (st.rowRefusal (transfer.newPayment debtor creditor)).map .db := by
    have hpayer : st.debtorRefusal (transfer.newPayment debtor creditor) = none :=
      (debtorRefusal_iff hd rfl).trans (if_pos h.currency)
    rw [against_valid (valid_of_positive h.positive h.parties), hpayer, Option.none_or, Option.none_or]
  have hfits : (transfer.newPayment debtor creditor).Fits := by
    obtain ⟨ref, href⟩ := h.endToEndId
    refine ⟨h.amount, ⟨debtor.currency, ?_⟩, some ref, ?_⟩
    · show varchar 3 transfer.currency = _
      rw [← h.currency]
      exact hcur debtor hd
    · show (varchar 35 transfer.endToEndId).map some = _
      rw [href]
      rfl
  have hthere : st.hasAccount creditor.id = true := by
    rw [Store.hasAccount, Table.find_of_mem hc]
    rfl
  rw [hkey, hagainst] at hpost
  rw [hagainst] at hpain
  rcases hfits.rowRefusal hthere with hrow | hrow
  · rw [hrow] at hpain hpost
    cases hpain with
    | created hmakes hadds =>
      cases hpost with
      | created hmakes' hadds' => exact .inl ⟨_, _, hadds, hadds', makes_sameTerms hmakes hmakes'⟩
  · rw [hrow] at hpain hpost
    cases hpain with
    | refused ha hst =>
      cases hpost with
      | refused ha' hst' => exact .inr ⟨404, by decide, by decide, ha, ha', hst, hst'⟩

include hd hpain hpost in
/-- A payment that nothing of its own stands against is common to both where they end alike. -/
theorem common_of_alike (hpos : transfer.amount.nonPositive = .ok false) (hne : debtor.id ≠ creditor.id)
    (h : EndAlike st answer st₁ answer' st₂) : transfer.Common key debtor creditor := by
  have hvalid : validateNewPayment transfer.amount debtor.id creditor.id = .ok () := valid_of_positive hpos hne
  have hcurrency : debtor.currency = transfer.currency := by
    by_contra hother
    have hpayer : st.debtorRefusal (transfer.newPayment debtor creditor) =
        some (.paymentCurrencyMismatch debtor.currency transfer.currency) :=
          (debtorRefusal_iff hd rfl).trans (if_neg hother)
    rw [against_valid hvalid, hpayer] at hpain
    cases hpain with
    | refused ha => exact (h.handled _).1 ha
  have hpayer : st.debtorRefusal (transfer.newPayment debtor creditor) = none :=
    (debtorRefusal_iff hd rfl).trans (if_pos hcurrency)
  rw [against_valid hvalid, hpayer, Option.none_or, Option.none_or] at hpain
  have hfits : (transfer.newPayment debtor creditor).Fits := by
    by_contra hnot
    obtain ⟨e, he, hcheck, hkey⟩ := @rowRefusal_of_not_fits st _ hnot
    rw [he] at hpain
    cases hpain with
    | refused ha =>
      apply (h.handled (.db e)).1
      rw [ha]
      cases e <;> first | rfl | contradiction
  -- the document is taken, or refused with 404
  have hanswer : answer ≠ .refused 422 := by
    cases hrow : st.rowRefusal (transfer.newPayment debtor creditor) with
    | none =>
      rw [hrow] at hpain
      cases hpain with
      | created _ hadds =>
        rw [hadds.2]
        nofun
    | some e =>
      rw [hrow] at hpain
      cases hpain with
      | refused ha =>
        rw [ha]
        cases e <;> decide
  have hbody : (transfer.jsonBody debtor creditor).Valid := by
    by_contra hnot
    rw [if_neg hnot] at hpost
    exact hanswer (h.status.mpr hpost.1)
  rw [if_pos hbody] at hpost
  have hupper : upper transfer.currency = transfer.currency := by
    by_contra hother
    have hmismatch : st.debtorRefusal (transfer.jsonBody debtor creditor).newPayment =
        some (.paymentCurrencyMismatch debtor.currency (upper transfer.currency)) := by
      apply (debtorRefusal_iff hd rfl).trans
      apply if_neg
      intro hsame
      exact hother (hsame.symm.trans hcurrency)
    rw [against_valid hvalid, hmismatch] at hpost
    cases hpost with
    | refused ha => exact hanswer (h.status.mpr ha)
  rw [jsonBody_newPayment hupper, against_valid hvalid, hpayer, Option.none_or] at hpost
  have hkey : ∃ stored, varchar 255 key = .ok stored := by
    cases hk : varchar 255 key with
    | ok stored => exact ⟨stored, rfl⟩
    | error e =>
      exfalso
      rw [keyRefusal, hk] at hpost
      cases hpost with
      | refused ha =>
        apply (h.handled (.db e)).2
        rw [ha]
        rcases varchar_error hk with rfl | rfl <;> rfl
  obtain ⟨ref, href⟩ := hfits.endToEndId
  refine ⟨hpos, hne, hfits.amount, hcurrency, hupper, hbody.currency, hbody.endToEndId _ rfl, ?_, hkey⟩
  cases hs : varchar 35 transfer.endToEndId with
  | ok t => exact ⟨t, rfl⟩
  | error e =>
    have hnull : nullable (varchar 35) (some transfer.endToEndId) = .ok ref := href
    rw [nullable, hs] at hnull
    cases hnull

end Verdicts

theorem PainEnds.verdict (h : PainEnds st transfer answer st₁) (hroom : st.Room)
    (hd : st.accounts.rows.find? (fun a => decide (a.accountNumber = transfer.debtorAccountNumber)) = some debtor)
    (hc : st.accounts.rows.find? (fun a => decide (a.accountNumber = transfer.creditorAccountNumber)) =
      some creditor) :
    Verdict st (transfer.newPayment debtor creditor) ingestPain001Status answer st₁
      (st.against (transfer.newPayment debtor creditor) none) := by
  obtain ⟨r, hends, rfl⟩ := h
  obtain ⟨ws, hv⟩ := hends.wp (wp_ingestPain001 hroom hd hc)
  exact hv

theorem PostEnds.verdict {body : InitiatePaymentRequest} (h : PostEnds rt st key body answer st₁) (hroom : st.Room)
    (hfree : ∀ stored, varchar 255 key = .ok stored →
      st.idempotencyKeys.find (idempotencyEndpointInitiatePayment, stored) = none) :
    if body.Valid then Verdict st body.newPayment createPaymentStatus answer st₁
      (st.against body.newPayment (keyRefusal key))
    else answer = .refused 422 ∧ st₁ = st := by
  unfold PostEnds at h
  split at h
  · rename_i hvalid
    obtain ⟨r, hends, rfl⟩ := h
    obtain ⟨ws, hv⟩ := hends.wp (wp_createPaymentCall hroom hfree)
    rw [if_pos hvalid]
    exact hv
  · rename_i hvalid
    rw [if_neg hvalid]
    exact h

/-- A document is taken by both endpoints or refused by both with one status iff its amount is not positive, its
accounts are one, or it is common to both. -/
theorem initiations_agree_iff (hroom : st.Room)
    (hcur : ∀ a ∈ st.accounts.rows, varchar 3 a.currency = .ok a.currency)
    (hd : st.accounts.rows.find? (fun a => decide (a.accountNumber = transfer.debtorAccountNumber)) = some debtor)
    (hc : st.accounts.rows.find? (fun a => decide (a.accountNumber = transfer.creditorAccountNumber)) =
      some creditor)
    (hfree : ∀ stored, varchar 255 key = .ok stored →
      st.idempotencyKeys.find (idempotencyEndpointInitiatePayment, stored) = none) :
    ((∃ answer st', PainEnds st transfer answer st') ∧
      (∃ answer st', PostEnds rt st key (transfer.jsonBody debtor creditor) answer st') ∧
      ∀ answer st₁ answer' st₂, PainEnds st transfer answer st₁ →
        PostEnds rt st key (transfer.jsonBody debtor creditor) answer' st₂ → EndAlike st answer st₁ answer' st₂) ↔
    transfer.amount.nonPositive = .ok true ∨ (transfer.amount.nonPositive = .ok false ∧ debtor.id = creditor.id) ∨
      transfer.Common key debtor creditor := by
  have hdmem := List.mem_of_find?_eq_some hd
  have hcmem := List.mem_of_find?_eq_some hc
  -- a request that is invalid for both ends in the same status
  have hinvalid {e : AppError} (he : validateNewPayment transfer.amount debtor.id creditor.id = .error e)
      (hpain422 : ingestPain001Status e = some 422) (hpost422 : createPaymentStatus e = some 422)
      {answer answer' : Answer} {st₁ st₂ : Store} (hpain : PainEnds st transfer answer st₁)
      (hpost : PostEnds rt st key (transfer.jsonBody debtor creditor) answer' st₂) :
      EndAlike st answer st₁ answer' st₂ := by
    have hagainst (k : Option DbError) : st.against (transfer.newPayment debtor creditor) k = some e ∧
        st.against (transfer.jsonBody debtor creditor).newPayment k = some e := by
      exact ⟨against_invalid he, against_invalid he⟩
    have hv := hpain.verdict hroom hd hc
    have hv' := hpost.verdict hroom hfree
    rw [(hagainst none).1] at hv
    rw [(hagainst (keyRefusal key)).2] at hv'
    cases hv with
    | refused ha hst =>
      rw [Answer.ofError, hpain422] at ha
      split at hv'
      · cases hv' with
        | refused ha' hst' =>
          rw [Answer.ofError, hpost422] at ha'
          exact .inr ⟨422, by decide, by decide, ha, ha', hst, hst'⟩
      · exact .inr ⟨422, by decide, by decide, ha, hv'.1, hst, by rw [hv'.2]⟩
  constructor
  · rintro ⟨⟨answer, st₁, hpain⟩, ⟨answer', st₂, hpost⟩, hall⟩
    have halike := hall answer st₁ answer' st₂ hpain hpost
    cases hsign : transfer.amount.nonPositive with
    | error s =>
      exfalso
      have hv := hpain.verdict hroom hd hc
      have hsignal : validateNewPayment transfer.amount debtor.id creditor.id = .error (.signal s) := by
        rw [validateNewPayment, hsign]
      rw [against_invalid hsignal] at hv
      cases hv with
      | refused ha => exact (halike.handled _).1 ha
    | ok b =>
      cases b with
      | true => exact .inl rfl
      | false =>
        by_cases hsame : debtor.id = creditor.id
        · exact .inr (.inl ⟨rfl, hsame⟩)
        · exact .inr (.inr
            (common_of_alike hdmem (hpain.verdict hroom hd hc) (hpost.verdict hroom hfree) hsign hsame halike))
  · intro h
    refine ⟨?_, ?_, ?_⟩
    · obtain ⟨r, st', hends⟩ := Prog.exists_end trivial (wp_ingestPain001 hroom hd hc)
      exact ⟨_, st', r, hends, rfl⟩
    · unfold PostEnds
      split
      · obtain ⟨r, st', hends⟩ := Prog.exists_end trivial (@wp_createPaymentCall rt st hroom key
          (transfer.jsonBody debtor creditor) hfree)
        exact ⟨_, st', r, hends, rfl⟩
      · exact ⟨_, _, rfl, rfl⟩
    · intro answer st₁ answer' st₂ hpain hpost
      rcases h with hsign | ⟨hsign, hsame⟩ | hcommon
      · exact hinvalid (e := .invalidPaymentAmount transfer.amount)
          (by rw [validateNewPayment, hsign]) rfl rfl hpain hpost
      · have hrefused : validateNewPayment transfer.amount debtor.id creditor.id =
            .error (.samePaymentAccount debtor.id) := by
          rw [validateNewPayment, hsign]
          exact if_pos hsame
        exact hinvalid hrefused rfl rfl hpain hpost
      · exact alike_of_common hdmem hcmem (hpain.verdict hroom hd hc) (hpost.verdict hroom hfree) hcommon hcur

end Agreement

section Samples

def payer (currency : String) : Account := sampleAccount 1 "D" currency

def payee : Account := sampleAccount 2 "C12" "EUR"

/-- A store with the two accounts of the sample document. -/
def paidStore (currency : String) : Store :=
  { sampleStore with accounts := ⟨[payer currency, payee], by simp [payer, payee, sampleAccount]⟩ }

/-- What is read from the sample document. -/
def tenEurosTransfer : Pain001CreditTransfer := ⟨"M", "E1", "D", "C12", .finite false 1000 (-2), "EUR"⟩

theorem tenEurosTransfer_parsed : parsePain001 (fun _ => .ok (creditorRoot (.text "C12" .empty)))
    (bytesOf (creditorDocument "C12")) = .ok tenEurosTransfer := by
  have hdoc : ¬doctype <:+: bytesOf (creditorDocument "C12") :=
    not_doctype (creditorDocument_absent (.inr rfl) (by decide +kernel))
  rw [parsePain001, if_neg hdoc]
  decide +kernel

theorem paidStore_room (currency : String) : (paidStore currency).Room :=
  ⟨sampleStore_room.payments, sampleStore_room.entries, sampleStore_room.keys, sampleStore_room.deliveries⟩

theorem paidStore_debtor (currency : String) : (paidStore currency).accounts.rows.find?
    (fun a => decide (a.accountNumber = tenEurosTransfer.debtorAccountNumber)) = some (payer currency) := rfl

theorem paidStore_creditor (currency : String) : (paidStore currency).accounts.rows.find?
    (fun a => decide (a.accountNumber = tenEurosTransfer.creditorAccountNumber)) = some payee := by
  simp [paidStore, payer, payee, sampleAccount, tenEurosTransfer]

theorem paidStore_unused (currency stored : String) :
    (paidStore currency).idempotencyKeys.find (idempotencyEndpointInitiatePayment, stored) = none := rfl

theorem initiations_agree_tenEuros :
    (∃ answer st', PainEnds (paidStore "EUR") tenEurosTransfer answer st') ∧
    (∃ answer st',
      PostEnds sampleRuntime (paidStore "EUR") "key" (tenEurosTransfer.jsonBody (payer "EUR") payee) answer st') ∧
    ∀ answer st₁ answer' st₂, PainEnds (paidStore "EUR") tenEurosTransfer answer st₁ →
      PostEnds sampleRuntime (paidStore "EUR") "key" (tenEurosTransfer.jsonBody (payer "EUR") payee) answer' st₂ →
      EndAlike (paidStore "EUR") answer st₁ answer' st₂ := by
  refine (initiations_agree_iff (paidStore_room "EUR") (by decide) (paidStore_debtor "EUR")
    (paidStore_creditor "EUR")
    fun stored _ => paidStore_unused "EUR" stored).mpr (.inr (.inr ?_))
  exact ⟨by decide, by decide, ⟨_, rfl⟩, rfl, by decide +kernel, by decide, by decide,
    ⟨"E1", by decide⟩, ⟨"key", by decide⟩⟩

/-- From an account in dollars, a document in euros ends in an exception that is not mapped, and the same body with
422. -/
theorem dollarAccount_initiated :
    parsePain001 (fun _ => .ok (creditorRoot (.text "C12" .empty))) (bytesOf (creditorDocument "C12")) =
      .ok tenEurosTransfer ∧
    ∃ answer st₁ answer' st₂, PainEnds (paidStore "USD") tenEurosTransfer answer st₁ ∧
      PostEnds sampleRuntime (paidStore "USD") "key" (tenEurosTransfer.jsonBody (payer "USD") payee) answer' st₂ ∧
      answer = .unhandled (.paymentCurrencyMismatch "USD" "EUR") ∧ answer' = .refused 422 ∧
      ¬EndAlike (paidStore "USD") answer st₁ answer' st₂ := by
  have hbody : (tenEurosTransfer.jsonBody (payer "USD") payee).Valid := by decide
  have hfree (stored : String) (_ : varchar 255 "key" = .ok stored) := paidStore_unused "USD" stored
  obtain ⟨r, st₁, hends⟩ :=
    Prog.exists_end trivial (wp_ingestPain001 (paidStore_room "USD") (paidStore_debtor "USD")
    (paidStore_creditor "USD"))
  obtain ⟨r', st₂, hends'⟩ :=
    Prog.exists_end trivial (@wp_createPaymentCall sampleRuntime _ (paidStore_room "USD") "key"
    (tenEurosTransfer.jsonBody (payer "USD") payee) hfree)
  have hpain : PainEnds (paidStore "USD") tenEurosTransfer (ingestPain001Answer r) st₁ := ⟨r, hends, rfl⟩
  have hpost : PostEnds sampleRuntime (paidStore "USD") "key" (tenEurosTransfer.jsonBody (payer "USD") payee)
      (createPaymentAnswer r') st₂ := by
    rw [PostEnds, if_pos hbody]
    exact ⟨r', hends', rfl⟩
  have hv := hpain.verdict (paidStore_room "USD") (paidStore_debtor "USD") (paidStore_creditor "USD")
  have hv' := hpost.verdict (paidStore_room "USD") hfree
  rw [if_pos hbody] at hv'
  have hagainst : (paidStore "USD").against (tenEurosTransfer.newPayment (payer "USD") payee) none =
      some (.paymentCurrencyMismatch "USD" "EUR") := by decide +kernel
  have hagainst' :
    (paidStore "USD").against (tenEurosTransfer.jsonBody (payer "USD") payee).newPayment (keyRefusal "key") =
      some (.paymentCurrencyMismatch "USD" "EUR") := by decide +kernel
  rw [hagainst] at hv
  rw [hagainst'] at hv'
  cases hv with
  | refused ha _ =>
    cases hv' with
    | refused ha' _ =>
      refine ⟨tenEurosTransfer_parsed, _, _, _, _, hpain, hpost, ha, ha', ?_⟩
      intro h
      exact (h.handled _).1 ha

end Samples
end PaymentLedger
