import PaymentLedger.Payments.Idempotency
import PaymentLedger.Payments.Transitions

namespace PaymentLedger

/-- The row that the request is stored as. -/
def NewPayment.Makes (req : NewPayment) (row : PaymentRow) : Prop :=
  PaymentRow.new row.id req.debtorAccountId req.creditorAccountId req.amount req.currency req.endToEndId = .ok row

namespace Store

/-- What stands against a debtor: there is no such account, or it has another currency. -/
def debtorRefusal (st : Store) (req : NewPayment) : Option AppError :=
  match st.currencyOf req.debtorAccountId with
  | none => some (.accountNotFound (.inl req.debtorAccountId))
  | some cur => if cur = req.currency then none else some (.paymentCurrencyMismatch cur req.currency)

/-- What the database has against the row. -/
def rowRefusal (st : Store) (req : NewPayment) : Option DbError :=
  match PaymentRow.new 0 req.debtorAccountId req.creditorAccountId req.amount req.currency req.endToEndId with
  | .error e => some e
  | .ok _ => if st.hasAccount req.creditorAccountId then none else some .foreignKeyViolation

def refusal (st : Store) (req : NewPayment) : Option AppError :=
  (st.debtorRefusal req).or ((st.rowRefusal req).map .db)

/-- What stands against a request, whose key may stand against it too. -/
def against (st : Store) (req : NewPayment) (key : Option DbError) : Option AppError :=
  match validateNewPayment req.amount req.debtorAccountId req.creditorAccountId with
  | .error e => some e
  | .ok _ => (st.debtorRefusal req).or ((key.or (st.rowRefusal req)).map .db)

end Store

/-- Why a key cannot be claimed. -/
def keyRefusal (key : String) : Option DbError :=
  match varchar 255 key with
  | .error e => some e
  | .ok _ => none

section Refusals

variable {st st' : Store} {req : NewPayment}

theorem Later.debtorRefusal (h : Later st st') : st'.debtorRefusal req = st.debtorRefusal req := by
  rw [Store.debtorRefusal, Store.debtorRefusal, h.currencyOf]

theorem Later.rowRefusal (h : Later st st') : st'.rowRefusal req = st.rowRefusal req := by
  rw [Store.rowRefusal, Store.rowRefusal, h.hasAccount]

theorem Later.against {key : Option DbError} (h : Later st st') : st'.against req key = st.against req key := by
  rw [Store.against, Store.against, h.debtorRefusal, h.rowRefusal]

theorem against_valid {key : Option DbError}
    (h : validateNewPayment req.amount req.debtorAccountId req.creditorAccountId = .ok ()) :
    st.against req key = (st.debtorRefusal req).or ((key.or (st.rowRefusal req)).map .db) := by
  rw [Store.against, h]

theorem against_invalid {key : Option DbError} {e : AppError}
    (h : validateNewPayment req.amount req.debtorAccountId req.creditorAccountId = .error e) :
    st.against req key = some e := by
  rw [Store.against, h]

theorem Store.debtorRefusal_none : st.debtorRefusal req = none ↔
    st.currencyOf req.debtorAccountId = some req.currency := by
  unfold Store.debtorRefusal
  cases st.currencyOf req.debtorAccountId with
  | none => simp
  | some cur => by_cases h : cur = req.currency <;> simp [h]

theorem Store.refusal_none : st.refusal req = none ↔ st.debtorRefusal req = none ∧ st.rowRefusal req = none := by
  rw [Store.refusal, Option.or_eq_none_iff, Option.map_eq_none_iff]

/-- The id of a row has no part in whether it can be stored. -/
theorem PaymentRow.new_map (id debtor creditor : Uuid) (amount : Decimal) (currency : String)
    (endToEndId : Option String) :
    PaymentRow.new id debtor creditor amount currency endToEndId =
      (PaymentRow.new 0 debtor creditor amount currency endToEndId).map fun row => { row with id } := by
  simp only [PaymentRow.new]
  cases Numeric.ofDecimal 2 amount with
  | error e => rfl
  | ok n =>
    cases varchar 3 currency with
    | error e => rfl
    | ok cur =>
      cases nullable (varchar 35) endToEndId with
      | error e => rfl
      | ok ref => cases hn : Amount.check n <;> simp [hn, bind, Except.bind, pure, Except.pure, Except.map]

theorem rowRefusal_none : st.rowRefusal req = none ↔ st.hasAccount req.creditorAccountId = true ∧ ∀ id, ∃ row,
    PaymentRow.new id req.debtorAccountId req.creditorAccountId req.amount req.currency req.endToEndId =
      .ok row := by
  have hnew (id : Uuid) :=
    PaymentRow.new_map id req.debtorAccountId req.creditorAccountId req.amount req.currency req.endToEndId
  unfold Store.rowRefusal
  cases h : PaymentRow.new 0 req.debtorAccountId req.creditorAccountId req.amount req.currency req.endToEndId with
  | error e =>
    simp only [reduceCtorEq, false_iff]
    rintro ⟨-, hall⟩
    obtain ⟨row, hrow⟩ := hall 0
    rw [h] at hrow
    cases hrow
  | ok row =>
    have hstored : ∀ id, ∃ row, PaymentRow.new id req.debtorAccountId req.creditorAccountId req.amount req.currency
        req.endToEndId = .ok row := by
      intro id
      exact ⟨_, by rw [hnew id, h]; rfl⟩
    cases st.hasAccount req.creditorAccountId <;> simp [hstored]

/-- The insertion of a payment, from an account that is there. -/
theorem eval_insertPayment_of (hd : st.hasAccount req.debtorAccountId = true) (now : ℕ) (c : Choice) :
    Stmt.eval st now c
      (.insertPayment req.debtorAccountId req.creditorAccountId req.amount req.currency req.endToEndId) =
      if st.hasPayment c.id then none else
        some (match st.rowRefusal req with
          | some e => .error e
          | none => (PaymentRow.new c.id req.debtorAccountId req.creditorAccountId req.amount
              req.currency req.endToEndId).map
              fun row => (c.id, [.insertPayment row])) := by
  rw [PaymentRow.new_map, Store.rowRefusal]
  simp only [Stmt.eval]
  rw [PaymentRow.new_map]
  cases h : PaymentRow.new 0 req.debtorAccountId req.creditorAccountId req.amount req.currency req.endToEndId with
  | error e => simp [Except.map, bind, Except.bind]
  | ok row => cases st.hasAccount req.creditorAccountId <;> simp [hd, references, Except.map, bind,
      Except.bind, pure, Except.pure]

end Refusals

/-- The writes that follow the row of a new payment. -/
def Write.follows : Write → Bool
  | insertHistory _ => true
  | insertDelivery _ => true
  | completeKey _ _ _ _ => true
  | _ => false

theorem payments_follow {ws : List Write} (h : ∀ w ∈ ws, w.follows = true) (st : Store) :
    (st.after ws).payments = st.payments := by
  apply st.after_eq Store.payments
  intro w hw st
  have hfollows := h w hw
  cases w with
  | insertPayment row => cases hfollows
  | setStatus id status => cases hfollows
  | setFxDetails id rate amount => cases hfollows
  | _ => rfl

section Rules

variable {live alone : Prop} {good : Store → Prop} {rely : Rely postgres} {c : Store}
    {ws : List Write} {req : NewPayment}

theorem wp_assertDebtorCurrencyMatches (hS : Setting live alone good rely)
    {Q : Except AppError Unit → Store → List Write → Prop}
    (hrefused : ∀ e, c.debtorRefusal req = some e → ∀ c', rely.rel c c' → Q (.error e) c' ws)
    (hpassed : c.debtorRefusal req = none → ∀ c', rely.rel c c' → Q (.ok ()) c' ws) :
    (assertDebtorCurrencyMatches req.debtorAccountId req.currency).wp live rely Q c ws := by
  apply Prog.wp_bind
  apply Prog.wp_bind
  apply wp_read (f := fun st => st.accounts.find req.debtorAccountId) fun _ _ _ => rfl
  intro c₁ hc₁ c₂ hc₂
  have hlater₂ := rely.trans hc₁ hc₂
  have hcur : c.currencyOf req.debtorAccountId = (c₁.after ws).currencyOf req.debtorAccountId := by
    rw [Store.currencyOf_after, (hS.later hc₁).currencyOf]
  unfold Store.debtorRefusal at hrefused hpassed
  rw [hcur, Store.currencyOf] at hrefused hpassed
  cases hfind : (c₁.after ws).accounts.find req.debtorAccountId with
  | none =>
    rw [hfind] at hrefused
    exact fun c₃ hc₃ => hrefused _ rfl c₃ (rely.trans hlater₂ hc₃)
  | some a =>
    rw [hfind] at hrefused hpassed
    intro c₃ hc₃
    have hlater₃ := rely.trans hlater₂ hc₃
    by_cases hsame : a.currency = req.currency
    · simp only [hsame, ne_eq, not_true_eq_false, if_false]
      exact fun c₄ hc₄ => hpassed (if_pos hsame) c₄ (rely.trans hlater₃ hc₄)
    · simp only [hsame, ne_eq, not_false_eq_true, if_true]
      exact fun c₄ hc₄ => hrefused _ (if_neg hsame) c₄ (rely.trans hlater₃ hc₄)

/-- A payment is created where its row can be stored; with no one else, it is the row that is read back. -/
theorem wp_createPayment (hS : Setting live alone good rely)
    {Q : Except AppError Payment → Store → List Write → Prop}
    (hd : c.hasAccount req.debtorAccountId = true) (hroom : live → (c.after ws).payments.rows.length < 2 ^ 128)
    (hrefused : ∀ e, c.rowRefusal req = some e → ∀ c', rely.rel c c' → Q (.error (.db e)) c' [])
    (hcreated : c.rowRefusal req = none → ∀ c', rely.rel c c' → ∀ row p, req.Makes row → p.id = row.id →
      (alone → p = row.toDomain ∧ (c.after ws).payments.find row.id = none) →
      Q (.ok p) c' (ws ++ [.insertPayment row])) :
    (createPayment req.debtorAccountId req.creditorAccountId req.amount req.currency req.endToEndId).wp live
      rely Q c ws := by
  have heval (c' : Store) (hc : rely.rel c c') (now : ℕ) (ch : Choice) :=
    @eval_insertPayment_of (c'.after ws) req (by
    rw [hasAccount_after, (hS.later hc).hasAccount]
    exact hd) now ch
  have hrow (c' : Store) (hc : rely.rel c c') : (c'.after ws).rowRefusal req = c.rowRefusal req := by
    rw [(Later.after c' ws).rowRefusal, (hS.later hc).rowRefusal]
  apply Prog.wp_bind
  apply wp_query
  · intro hl c' hc now
    obtain rfl := hS.still (hS.alone hl) hc
    obtain ⟨id, hid⟩ := Table.exists_fresh _ (hroom hl)
    refine ⟨{ id }, ?_⟩
    rw [heval _ hc, Store.hasPayment, hid]
    rfl
  · intro c₁ hc₁ now ch id new he c₂ hc₂
    rw [heval _ hc₁, hrow _ hc₁] at he
    cases hfree : (c₁.after ws).hasPayment ch.id with
    | true => simp [hfree] at he
    | false =>
      cases hr : c.rowRefusal req with
      | some e => simp [hfree, hr] at he
      | none =>
        obtain ⟨row, hnew⟩ := (rowRefusal_none.mp hr).2 ch.id
        obtain ⟨a, -, cur, -, ref, -, hshape⟩ := PaymentRow.new_ok.mp hnew
        have hid : row.id = ch.id := by rw [hshape]
        rw [hfree, hr, hnew] at he
        cases he
        have hlater₂ := rely.trans hc₁ hc₂
        have hread (c' : Store) :
            ∃ row', (c'.after (ws ++ [.insertPayment row])).payments.find row.id = some row' := by
          rw [c'.after_append]
          show ∃ row', ((c'.after ws).payments.insert row).find row.id = some row'
          cases hf : (c'.after ws).payments.find row.id with
          | none => exact ⟨row, by simp [Table.find_insert hf]⟩
          | some row' => exact ⟨row', Table.find_insert_of_some hf⟩
        rw [← hid]
        apply Prog.wp_bind
        apply wp_read (f := fun st => st.payments.find row.id) fun _ _ _ => rfl
        intro c₃ hc₃ c₄ hc₄
        obtain ⟨row', hfound⟩ := hread c₃
        rw [hfound]
        intro c₅ hc₅
        rw [← hid] at hnew
        have hsame : row'.toDomain.id = row.id := by
          show row'.id = row.id
          exact Table.find_key hfound
        refine hcreated hr c₅ (rely.trans hlater₂ (rely.trans hc₃ (rely.trans hc₄ hc₅))) row
          row'.toDomain hnew hsame ?_
        intro halone
        obtain rfl := hS.still halone hc₁
        obtain rfl := hS.still halone hc₂
        obtain rfl := hS.still halone hc₃
        have hnone : (c₃.after ws).payments.find row.id = none := by
          rwa [Store.hasPayment, Option.isSome_eq_false_iff, Option.isNone_iff_eq_none, ← hid] at hfree
        have hself : (c₃.after (ws ++ [.insertPayment row])).payments.find row.id = some row := by
          rw [c₃.after_append]
          show ((c₃.after ws).payments.insert row).find row.id = some row
          simp [Table.find_insert hnone]
        rw [hself] at hfound
        exact ⟨by rw [Option.some.inj hfound], hnone⟩
  · intro c₁ hc₁ now ch e he c₂ hc₂
    rw [heval _ hc₁, hrow _ hc₁] at he
    cases hfree : (c₁.after ws).hasPayment ch.id with
    | true => simp [hfree] at he
    | false =>
      cases hr : c.rowRefusal req with
      | some e' =>
        rw [hfree, hr] at he
        cases he
        exact hrefused e hr c₂ (rely.trans hc₁ hc₂)
      | none =>
        obtain ⟨row, hnew⟩ := (rowRefusal_none.mp hr).2 ch.id
        rw [hfree, hr, hnew] at he
        cases he

/-- A payment is created where nothing stands against its debtor and its row. -/
theorem wp_createPaymentWithin (hS : Setting live alone good rely)
    {Q : Except AppError Payment → Store → List Write → Prop}
    (hpayments : live → c.payments.rows.length < 2 ^ 128)
    (hdeliveries : live → c.webhookDeliveries.rows.length + c.activeSubscriptions.length ≤ 2 ^ 128)
    (hrefused : ∀ e, c.refusal req = some e → ∀ c', rely.rel c c' → Q (.error e) c' [])
    (hcreated : c.refusal req = none → ∀ c', rely.rel c c' → ∀ row p new, req.Makes row →
      (alone → p = row.toDomain ∧ c.payments.find row.id = none) → (∀ w ∈ new, w.follows = true) →
      Q (.ok p) c' (.insertPayment row :: new)) :
    (createPaymentWithin req).wp live rely Q c [] := by
  unfold Store.refusal at hrefused hcreated
  apply Prog.wp_bind
  apply wp_assertDebtorCurrencyMatches hS
  · intro e he c' hc
    rw [he] at hrefused
    exact hrefused e rfl c' hc
  intro hdebtor c₁ hc₁
  rw [hdebtor, Option.none_or] at hrefused hcreated
  have hcur : c₁.currencyOf req.debtorAccountId = some req.currency := by
    rw [(hS.later hc₁).currencyOf]
    exact Store.debtorRefusal_none.mp hdebtor
  apply Prog.wp_bind
  apply wp_createPayment hS (currencyOf_hasAccount hcur)
  · intro hl
    obtain rfl := hS.still (hS.alone hl) hc₁
    exact hpayments hl
  · intro e he c' hc
    rw [(hS.later hc₁).rowRefusal] at he
    exact hrefused (.db e) (by rw [he]; rfl) c' (rely.trans hc₁ hc)
  intro hrow c₂ hc₂ row p hnew hid hsame
  rw [(hS.later hc₁).rowRefusal] at hrow
  have hlater₂ := rely.trans hc₁ hc₂
  have there (c' : Store) (new : List Write) : (c'.after (.insertPayment row :: new)).hasPayment p.id = true := by
    rw [hid, Store.after_cons]
    apply (Later.after _ new).hasPayment
    show ((c'.payments.insert row).find row.id).isSome = true
    cases hf : c'.payments.find row.id with
    | none => simp [Table.find_insert hf]
    | some row' => simp [Table.find_insert_of_some hf]
  apply Prog.wp_bind
  apply wp_recordStatusTransition (fun c' _ => there c' []) ⟨none, rfl⟩
  intro c₃ hc₃ h
  have hlater₃ := rely.trans hlater₂ hc₃
  apply Prog.wp_bind
  apply wp_enqueuePaymentWebhookEvent hS (by decide)
  · intro hl
    obtain rfl := hS.still (hS.alone hl) hlater₃
    exact hdeliveries hl
  · exact fun c' _ => there c' [.insertHistory h]
  intro c₄ hc₄ new hnews c₅ hc₅
  apply hcreated (by rw [hrow]; rfl) c₅ (rely.trans hlater₃ (rely.trans hc₄ hc₅)) row p
    (.insertHistory h :: new) hnew
  · intro halone
    have hc : c₁ = c := hS.still halone hc₁
    rw [← hc]
    exact hsame halone
  · intro w hw
    rcases List.mem_cons.mp hw with rfl | hw
    · rfl
    · obtain ⟨d, rfl⟩ := hnews w hw
      rfl

theorem wp_initiatePaymentBlock (hS : Setting live alone good rely)
    {Q : Except AppError Payment → Store → List Write → Prop}
    (hpayments : live → c.payments.rows.length < 2 ^ 128)
    (hdeliveries : live → c.webhookDeliveries.rows.length + c.activeSubscriptions.length ≤ 2 ^ 128)
    (hrefused : ∀ e, c.refusal req = some e → ∀ c', rely.rel c c' → Q (.error e) c' [])
    (hcreated : c.refusal req = none → ∀ c', rely.rel c c' → ∀ row p new, req.Makes row →
      (alone → p = row.toDomain ∧ c.payments.find row.id = none) → (∀ w ∈ new, w.follows = true) →
      ∀ c'', rely.rel (c'.after (.insertPayment row :: new)) c'' → Q (.ok p) c'' []) :
    ((initiatePaymentBlock req).uow).wp live rely Q c [] := by
  apply Prog.wp_uow
  apply Prog.wp_bind
  apply wp_createPaymentWithin hS hpayments hdeliveries
  · exact hrefused
  intro hnone c₁ hc₁ row p new hmakes hsame hnew c₂ hc₂ c₃ hc₃
  exact hcreated hnone c₂ (rely.trans hc₁ hc₂) row p new hmakes hsame hnew c₃ hc₃

/-- An unused key is claimed by a debtor that nothing stands against. -/
theorem wp_claimBlock (hS : Setting live alone good rely) {rt : Runtime} {key : String} {body : PyDict}
    {Q : Except AppError IdempotencyOutcome → Store → List Write → Prop}
    (hkeys : live → c.idempotencyKeys.rows.length < 2 ^ 128)
    (hfree : ∀ c', rely.rel c c' → ∀ stored, varchar 255 key = .ok stored →
      c'.idempotencyKeys.find (idempotencyEndpointInitiatePayment, stored) = none)
    (hrefused : ∀ e, c.debtorRefusal req = some e → ∀ c', rely.rel c c' → Q (.error e) c' [])
    (hunstorable : c.debtorRefusal req = none → ∀ e, varchar 255 key = .error e →
      ∀ c', rely.rel c c' → Q (.error (.db e)) c' [])
    (hclaimed : c.debtorRefusal req = none → ∀ stored, varchar 255 key = .ok stored → ∀ c', rely.rel c c' → ∀ id,
      ∀ c'', rely.rel
        (c'.after [.insertKey ⟨id, stored, idempotencyEndpointInitiatePayment, rt.hashRequestBody body,
        .inProgress, none, none⟩]) c'' → Q (.ok .started) c'' []) :
    ((claimBlock rt key body req).uow).wp live rely Q c [] := by
  have heval (c' : Store) (hc : rely.rel c c') (now : ℕ) (ch : Choice) :
      Stmt.eval c' now ch (.insertIdempotencyKey key idempotencyEndpointInitiatePayment (rt.hashRequestBody body)) =
        if c'.hasKeyId ch.id then none else some (match varchar 255 key with
          | .error e => .error e
          | .ok stored => .ok (true,
              [.insertKey ⟨ch.id, stored, idempotencyEndpointInitiatePayment, rt.hashRequestBody body,
              .inProgress, none, none⟩])) := by
    have hendpoint : varchar 100 idempotencyEndpointInitiatePayment = .ok idempotencyEndpointInitiatePayment := by
      decide
    simp only [Stmt.eval, IdempotencyKeyRow.new, hendpoint, hash_varchar]
    cases hkey : varchar 255 key with
    | error e => simp [bind, Except.bind]
    | ok stored => simp [hfree c' hc stored hkey, bind, Except.bind, pure, Except.pure]
  apply Prog.wp_uow
  apply Prog.wp_bind
  apply wp_assertDebtorCurrencyMatches hS
  · exact hrefused
  intro hdebtor c₁ hc₁
  apply Prog.wp_bind
  apply Prog.wp_bind
  apply wp_query
  · intro hl c' hc now
    obtain rfl := hS.still (hS.alone hl) hc₁
    obtain rfl := hS.still (hS.alone hl) hc
    obtain ⟨id, hid⟩ := exists_fresh_id (c'.idempotencyKeys.rows.map IdempotencyKeyRow.id) (by
      rw [List.length_map]
      exact hkeys hl)
    have hnew : c'.hasKeyId id = false := by
      rw [Store.hasKeyId, List.any_eq_false]
      intro row hrow hsame
      exact hid (List.mem_map.mpr ⟨row, hrow, of_decide_eq_true hsame⟩)
    refine ⟨{ id }, ?_⟩
    rw [Store.after_nil, heval _ hc, hnew]
    rfl
  · intro c₂ hc₂ now ch inserted new he c₃ hc₃
    have hlater₂ := rely.trans hc₁ hc₂
    rw [Store.after_nil, heval _ hlater₂] at he
    split at he
    · cases he
    · cases hkey : varchar 255 key with
      | error e =>
        rw [hkey] at he
        cases he
      | ok stored =>
        rw [hkey] at he
        cases he
        intro c₄ hc₄ c₅ hc₅ c₆ hc₆
        exact hclaimed hdebtor stored hkey c₅
          (rely.trans hlater₂ (rely.trans hc₃ (rely.trans hc₄ hc₅))) ch.id c₆ hc₆
  · intro c₂ hc₂ now ch e he c₃ hc₃
    have hlater₂ := rely.trans hc₁ hc₂
    rw [Store.after_nil, heval _ hlater₂] at he
    split at he
    · cases he
    · cases hkey : varchar 255 key with
      | error e' =>
        rw [hkey] at he
        cases he
        exact hunstorable hdebtor e hkey c₃ (rely.trans hlater₂ hc₃)
      | ok stored =>
        rw [hkey] at he
        cases he

theorem wp_completeBlock (hS : Setting live alone good rely) {key : String}
    {Q : Except AppError (ℕ × PyDict) → Store → List Write → Prop}
    (hpayments : live → c.payments.rows.length < 2 ^ 128)
    (hdeliveries : live → c.webhookDeliveries.rows.length + c.activeSubscriptions.length ≤ 2 ^ 128)
    (hrefused : ∀ e, c.refusal req = some e → ∀ c', rely.rel c c' → Q (.error e) c' [])
    (hcreated : c.refusal req = none → ∀ c', rely.rel c c' → ∀ row p new, req.Makes row →
      (alone → p = row.toDomain ∧ c.payments.find row.id = none) → (∀ w ∈ new, w.follows = true) →
      ∀ c'', rely.rel (c'.after (.insertPayment row :: new)) c'' → Q (.ok (201, paymentResponseDict p)) c'' []) :
    ((completeBlock key req).uow).wp live rely Q c [] := by
  apply Prog.wp_uow
  apply Prog.wp_bind
  apply wp_createPaymentWithin hS hpayments hdeliveries
  · exact hrefused
  intro hnone c₁ hc₁ row p new hmakes hsame hnew
  apply Prog.wp_bind
  apply wp_query
  · intro _ c' _ now
    refine ⟨{}, ?_⟩
    simp only [Stmt.eval]
    split <;> rfl
  · intro c₂ hc₂ now ch r done he c₃ hc₃ c₄ hc₄ c₅ hc₅
    have hdone : ∀ w ∈ done, w.follows = true := by
      intro w hw
      rcases eval_updateIdempotencyKey.mp he with ⟨-, rfl⟩ | ⟨-, rfl⟩
      · obtain rfl := List.mem_singleton.mp hw
        rfl
      · cases hw
    refine hcreated hnone c₄ (rely.trans hc₁ (rely.trans hc₂ (rely.trans hc₃ hc₄))) row p
      (new ++ done) hmakes hsame ?_ c₅ hc₅
    intro w hw
    rcases List.mem_append.mp hw with hw | hw
    · exact hnew w hw
    · exact hdone w hw
  · intro c₂ _ now ch e he
    simp only [Stmt.eval] at he
    split at he <;> cases he

/-- The store between the two transactions of an idempotent call. -/
def Between (rely : Rely postgres) (rt : Runtime) (body : PyDict) (stored : String) (c c' : Store) : Prop :=
  ∃ c₁ id, rely.rel c c₁ ∧ rely.rel (c₁.after [.insertKey ⟨id, stored, idempotencyEndpointInitiatePayment,
    rt.hashRequestBody body, .inProgress, none, none⟩]) c'

theorem Between.later (hS : Setting live alone good rely) {rt : Runtime} {body : PyDict}
    {stored : String} {c' : Store}
    (h : Between rely rt body stored c c') : Later c c' := by
  obtain ⟨c₁, id, hc₁, hc'⟩ := h
  exact (hS.later hc₁).trans ((Later.after c₁ _).trans (hS.later hc'))

/-- With an unused key, the call ends in what stands against its request, which the second transaction finds
again; else it creates the payment. -/
theorem wp_initiatePaymentIdempotent (hS : Setting live alone good rely) {rt : Runtime}
    {key : String} {body : PyDict}
    {Q : Except AppError (ℕ × PyDict) → Store → List Write → Prop} (hroom : live → c.Room)
    (hfree : ∀ c', rely.rel c c' → ∀ stored, varchar 255 key = .ok stored →
      c'.idempotencyKeys.find (idempotencyEndpointInitiatePayment, stored) = none)
    (hinvalid : ∀ e, validateNewPayment req.amount req.debtorAccountId req.creditorAccountId = .error e →
      ∀ c', rely.rel c c' → Q (.error e) c' [])
    (hrefused : validateNewPayment req.amount req.debtorAccountId req.creditorAccountId = .ok () →
      ∀ e, c.debtorRefusal req = some e → ∀ c', rely.rel c c' → Q (.error e) c' [])
    (hunstorable : validateNewPayment req.amount req.debtorAccountId req.creditorAccountId = .ok () →
      c.debtorRefusal req = none → ∀ e, varchar 255 key = .error e → ∀ c', rely.rel c c' → Q (.error (.db e)) c' [])
    (horphaned : validateNewPayment req.amount req.debtorAccountId req.creditorAccountId = .ok () →
      c.debtorRefusal req = none → ∀ stored, varchar 255 key = .ok stored → ∀ e, c.rowRefusal req = some e →
      ∀ c', Between rely rt body stored c c' → Q (.error (.db e)) c' [])
    (hcreated : validateNewPayment req.amount req.debtorAccountId req.creditorAccountId = .ok () →
      c.refusal req = none → ∀ stored, varchar 255 key = .ok stored → ∀ c', Between rely rt body stored c c' →
      ∀ row p new, req.Makes row → (alone → p = row.toDomain ∧ c.payments.find row.id = none) →
      (∀ w ∈ new, w.follows = true) → ∀ c'', rely.rel (c'.after (.insertPayment row :: new)) c'' →
      Q (.ok (201, paymentResponseDict p)) c'' []) :
    (initiatePaymentIdempotent rt key body req).wp live rely Q c [] := by
  apply Prog.wp_bind
  apply Prog.wp_ofExcept
  cases hvalid : validateNewPayment req.amount req.debtorAccountId req.creditorAccountId with
  | error e => exact fun c' hc => hinvalid e hvalid c' hc
  | ok u =>
    intro c₁ hc₁
    apply Prog.wp_bind
    apply wp_claimBlock hS
    · intro hl
      obtain rfl := hS.still (hS.alone hl) hc₁
      exact (hroom hl).keys
    · exact fun c' hc => hfree c' (rely.trans hc₁ hc)
    · intro e he c' hc
      rw [(hS.later hc₁).debtorRefusal] at he
      exact hrefused hvalid e he c' (rely.trans hc₁ hc)
    · intro hdebtor e he c' hc
      rw [(hS.later hc₁).debtorRefusal] at hdebtor
      exact hunstorable hvalid hdebtor e he c' (rely.trans hc₁ hc)
    · intro hdebtor stored hstored c₂ hc₂ id c₃ hc₃
      rw [(hS.later hc₁).debtorRefusal] at hdebtor
      have hlater₂ := rely.trans hc₁ hc₂
      have hbetween : Between rely rt body stored c c₃ := ⟨c₂, id, hlater₂, hc₃⟩
      have hrow : c₃.rowRefusal req = c.rowRefusal req := (hbetween.later hS).rowRefusal
      have hrefusal : c₃.refusal req = (c.rowRefusal req).map .db := by
        rw [Store.refusal, (hbetween.later hS).debtorRefusal, hdebtor, hrow, Option.none_or]
      apply wp_completeBlock hS
      · intro hl
        obtain rfl := hS.still (hS.alone hl) hlater₂
        obtain rfl := hS.still (hS.alone hl) hc₃
        exact (hroom hl).payments
      · intro hl
        obtain rfl := hS.still (hS.alone hl) hlater₂
        obtain rfl := hS.still (hS.alone hl) hc₃
        exact (hroom hl).deliveries
      · intro e he c₄ hc₄
        rw [hrefusal] at he
        obtain ⟨e', he', rfl⟩ := Option.map_eq_some_iff.mp he
        exact horphaned hvalid hdebtor stored hstored e' he' c₄ ⟨c₂, id, hlater₂, rely.trans hc₃ hc₄⟩
      · intro hnone c₄ hc₄ row p new hmakes hsame hnew c₅ hc₅
        rw [hrefusal, Option.map_eq_none_iff] at hnone
        refine hcreated hvalid (Store.refusal_none.mpr ⟨hdebtor, hnone⟩) stored hstored c₄
          ⟨c₂, id, hlater₂, rely.trans hc₃ hc₄⟩
          row p new hmakes ?_ hnew c₅ hc₅
        intro halone
        obtain rfl := hS.still halone hlater₂
        obtain rfl := hS.still halone hc₃
        exact hsame halone

end Rules

theorem sampleStore_room : sampleStore.Room := by
  refine ⟨?_, ?_, ?_, ?_⟩ <;> decide

end PaymentLedger
