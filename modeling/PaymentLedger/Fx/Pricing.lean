import PaymentLedger.Fx.Conversion
import PaymentLedger.Payments.Deadlocks

namespace PaymentLedger

namespace Decimal

variable {ctx : DecimalContext} {s : Bool} {c : ℕ} {e x : ℤ} {d : Decimal}

/-- Rounding keeps the sign, and zero. -/
theorem fix_sign (h : fix ctx (.finite s c e) = .ok d) : ∃ c' e', d = .finite s c' e' ∧ (c = 0 → c' = 0) := by
  simp only [fix] at h
  by_cases hc : c = 0
  · rw [if_pos hc] at h
    cases h
    exact ⟨0, _, rfl, fun _ => rfl⟩
  · rw [if_neg hc] at h
    split_ifs at h <;> cases h <;> exact ⟨_, _, rfl, fun hz => absurd hz hc⟩

theorem quantize_sign (h : quantize ctx x (.finite s c e) = .ok d) :
    ∃ c' e', d = .finite s c' e' ∧ (c = 0 → c' = 0) := by
  simp only [quantize] at h
  by_cases hc : c = 0
  · split_ifs at h
    obtain ⟨c', e', rfl, hz⟩ := fix_sign h
    exact ⟨c', e', rfl, fun _ => hz rfl⟩
  · split_ifs at h
    obtain ⟨c', e', rfl, -⟩ := fix_sign h
    exact ⟨c', e', rfl, fun hz => absurd hz hc⟩

end Decimal

/-- A conversion with a positive result has a positive rate. -/
theorem positive_rate {c : ℕ} {e : ℤ} {rate : Numeric 8} {d : Decimal}
    (h : convertAmount (.finite false c e) rate.toDecimal = .ok d) (hd : d.nonPositive = .ok false) :
    0 < rate.toDecimal.toRat := by
  cases rate with
  | nan =>
    have hnan : d = .nan false := by
      simp [convertAmount, Numeric.toDecimal, Decimal.mul, Decimal.isSignaling, bind,
        Except.bind, Decimal.quantize] at h
      exact h.symm
    rw [hnan] at hd
    cases hd
  | num z lt =>
    rw [Numeric.toDecimal, Decimal.ofInt_toRat]
    obtain ⟨product, hmul, hquantize⟩ : ∃ product, Decimal.mul defaultContext (.finite false c e)
        (Decimal.ofInt z false (-8)) = .ok product ∧ Decimal.quantize defaultContext (-2) product = .ok d := by
      cases hm : Decimal.mul defaultContext (.finite false c e) (Decimal.ofInt z false (-8)) with
      | error err =>
        have hmul : Decimal.mul defaultContext (.finite false c e) (Numeric.toDecimal (.num z lt)) =
            .error err := hm
        simp [convertAmount, hmul, bind, Except.bind] at h
      | ok product =>
        have hmul : Decimal.mul defaultContext (.finite false c e) (Numeric.toDecimal (.num z lt)) =
            .ok product := hm
        simp only [convertAmount, hmul, bind, Except.bind] at h
        exact ⟨product, rfl, h⟩
    have hfix : Decimal.fix defaultContext
      (.finite (if z = 0 then false else decide (z < 0)) (c * z.natAbs) (e + -8)) =
        .ok product := by
      simpa [Decimal.mul, Decimal.ofInt, Decimal.isSignaling] using hmul
    obtain ⟨c₁, e₁, rfl, hzero₁⟩ := Decimal.fix_sign hfix
    obtain ⟨c₂, e₂, rfl, hzero₂⟩ := Decimal.quantize_sign hquantize
    simp only [Decimal.nonPositive, Except.ok.injEq, Bool.or_eq_false_iff, decide_eq_false_iff_not] at hd
    obtain ⟨hsign, hcoeff⟩ := hd
    have hne : z ≠ 0 := by
      rintro rfl
      exact hcoeff (hzero₂ (hzero₁ (by simp)))
    rw [if_neg hne] at hsign
    have hpos : 0 < z := by
      have := of_decide_eq_false hsign
      omega
    have hpos' : (0 : ℚ) < z := by exact_mod_cast hpos
    positivity

/-- What a conversion with a positive result is made from. -/
theorem storedConversion {a : Amount} {rate : Numeric 8} {n : Numeric 2}
    (h : convertAmount a.toDecimal rate.toDecimal = .ok n.toDecimal) (hn : n.toDecimal.nonPositive = .ok false) :
    StoredConversion a.toDecimal rate.toDecimal n.toDecimal := by
  obtain ⟨value, positive⟩ := a
  cases value with
  | nan =>
    have hconvert : convertAmount (.nan false) rate.toDecimal = .ok (.nan false) := by cases rate <;> rfl
    have hnan : n.toDecimal = .nan false := Except.ok.inj (h.symm.trans hconvert)
    rw [hnan] at hn
    cases hn
  | num z lt =>
    have hpos : 0 < z := positive
    have hamount : (Numeric.num z lt : Numeric 2).toDecimal = .finite false z.natAbs (-2) := by
      rw [Numeric.toDecimal, Decimal.ofInt, if_neg hpos.ne', decide_eq_false (by omega)]
      rfl
    have hrate : 0 < rate.toDecimal.toRat := by
      apply positive_rate (c := z.natAbs) (e := -2) _ hn
      rw [← hamount]
      exact h
    refine ⟨⟨?_, z, lt, Numeric.toDecimal_toRat z lt⟩, ?_, ?_, hrate, h, n, Numeric.ofDecimal_toDecimal n⟩
    · exact trivial
    · show 0 < (Numeric.num z lt : Numeric 2).toDecimal.toRat
      rw [Numeric.toDecimal_toRat]
      have hpos' : (0 : ℚ) < z := by exact_mod_cast hpos
      positivity
    · cases rate with
      | nan => simp [Numeric.toDecimal, Decimal.toRat] at hrate
      | num w ltw => exact ⟨trivial, w, ltw, Numeric.toDecimal_toRat w ltw⟩

section Runs

variable {ι : Type} [DecidableEq ι] (step : Feed → Feed → Prop) (calls : ι → Call) (st₀ : Store)

/-- The transaction of `c`, which has committed after `l`, has read this rate when it was the latest of its pair. -/
def Quoted (l : List (Commit postgres ι)) (c : Commit postgres ι) (base quote : String) (r : FxRateRow) : Prop :=
  ∃ e ∈ c.tx, ∃ st, Did (.selectLatestRate base quote) (some r) e ∧
    History (feedEnv step) st₀ (l.take e.seen) st ∧ History (feedEnv step) st (l.drop e.seen) c.before ∧
    r ∈ st.rates base quote ∧ ∀ r' ∈ st.rates base quote, r'.bookedAt ≤ r.bookedAt

/-- A converted amount that comes from the settlement of the payment, between the currencies of its accounts. -/
def Priced (log : List (Commit postgres ι)) (row : PaymentRow) (n : Numeric 2) : Prop :=
  ∃ l c l' base quote r, log = l ++ c :: l' ∧ (∃ attempts, calls c.caller = .settlePayment row.id attempts) ∧
    Quoted step st₀ l c base quote r ∧ st₀.currencyOf row.debtorAccountId = some base ∧
    st₀.currencyOf row.creditorAccountId = some quote ∧ base ≠ quote ∧ row.fxRateId = some r.id ∧
    StoredConversion row.amount.toDecimal r.rate.toDecimal n.toDecimal

end Runs

section Runs

variable {ι : Type} [DecidableEq ι] {rt : Runtime} {step : Feed → Feed → Prop} {st₀ : Store}
  {calls : ι → Call} {σ : Config postgres ι Value}

omit [DecidableEq ι] in
theorem Priced.later {log rest : List (Commit postgres ι)} {row row' : PaymentRow} {n : Numeric 2}
    (h : Priced step calls st₀ log row n) (hid : row'.id = row.id)
    (hdebtor : row'.debtorAccountId = row.debtorAccountId)
    (hcreditor : row'.creditorAccountId = row.creditorAccountId) (hrate : row'.fxRateId = row.fxRateId)
    (hamount : row'.amount = row.amount) : Priced step calls st₀ (log ++ rest) row' n := by
  obtain ⟨l, c, l', base, quote, r, rfl, hcall, hquoted, hd, hc, hne, hr, hconv⟩ := h
  refine ⟨l, c, l' ++ rest, base, quote, r, by simp, ?_, hquoted, ?_, ?_, hne, ?_, ?_⟩
  · rw [hid]
    exact hcall
  · rw [hdebtor]
    exact hd
  · rw [hcreditor]
    exact hc
  · rw [hrate]
    exact hr
  · rw [hamount]
    exact hconv

/-- What was read of the rates in a committed transaction. -/
theorem WellFormed.quoted (h : WellFormed (feedEnv step) st₀ (fun i => (calls i).prog rt) σ)
    {l l' : List (Commit postgres ι)} {c : Commit postgres ι} (hl : σ.world.log = l ++ c :: l') {e : Event postgres}
    {base quote : String} {r : FxRateRow} (he : e ∈ c.tx) (hd : Did (.selectLatestRate base quote) (some r) e) :
    Quoted step st₀ l c base quote r := by
  have hrecorded := (h.committed l c l' hl).2.1.evaluated
  obtain ⟨pre, st, hev⟩ := hrecorded.of_mem he
  obtain ⟨choice, hc⟩ := hev.eval
  obtain ⟨-, -, ⟨r', hr', hmem, hlatest⟩ | ⟨hnone, -⟩⟩ :=
    eval_selectLatestRate.mp (hd.eval (postgres_eval_ok.mp hc))
  · obtain rfl := Option.some.inj hr'
    have hrates : ∀ base quote, (st.after (writesOf pre)).rates base quote = st.rates base quote := by
      intro base quote
      rw [Store.rates, Store.after_feed]
      rfl
    exact ⟨e, he, st, hd, hev.past, hev.since, by rw [← hrates]; exact hmem, by rw [← hrates]; exact hlatest⟩
  · cases hnone

/-- A settlement with a conversion is priced. -/
theorem WellFormed.settlement_priced (h : WellFormed (feedEnv step) st₀ (fun i => (calls i).prog rt) σ)
    {l l' : List (Commit postgres ι)} {c : Commit postgres ι} (hl : σ.world.log = l ++ c :: l') {row : PaymentRow}
    {x : Uuid × Numeric 2} {entry : JournalEntry} {posting : Posting} {subs : List WebhookSubscription}
    {ds : List WebhookDeliveryRow} {attempts : ℕ} (hcall : calls c.caller = .settlePayment row.id attempts)
    (ht : Transition rt c.before c.began row .settled (some x) (some (entry, posting)) subs ds)
    (hshape : (calls c.caller).Shape rt c.tx (some (.payment (row.moved .settled (some x)).toDomain))) :
    Priced step calls st₀ (l ++ [c]) (row.moved .settled (some x)) x.2 := by
  have hrecorded := (h.committed l c l' hl).2.1
  have hcurrency {id : Uuid} {cur : String} (hcur : c.before.currencyOf id = some cur) :
      st₀.currencyOf id = some cur := by
    rw [← (h.committed l c l' hl).1.currencyOf]
    exact hcur
  obtain ⟨rateId, n⟩ := x
  have hbooking := ht.booking
  have hpositive := (validateJournalEntry_ok.mp (ht.posted _ rfl).1).2.1
  rw [Option.map_some] at hbooking
  cases hbooking with
  | @conversion dc cc suspense _ _ hdc hcc hne hs =>
  have hn : n.toDecimal.nonPositive = .ok false :=
    hpositive ⟨suspense, .debit, n.toDecimal, cc⟩ (by simp)
  rw [hcall] at hshape
  obtain ⟨p, hp, hmoved⟩ := hshape
  have hsound := hmoved.sound (fun _ _ _ _ hpath hr => settlementLines_sound hpath hr) (h.witnessed hl)
  obtain ⟨row', built, u, e₁, tb, tp, e₂, e₃, te, htx, h₁, -, hbuilt, -, -, -, -, rfl, -⟩ := hmoved
  obtain rfl : row' = row := by
    have hreplayed := (h.witnessed hl).replayed hsound
    rw [htx] at hreplayed
    have hfound := (payment_found hreplayed.1 h₁).1
    exact Option.some.inj (hfound.symm.trans ht.found)
  have hmem : ∀ e ∈ tb, e ∈ c.tx := by
    intro e he
    rw [htx]
    simp [he]
  obtain ⟨d, cr, e₄, e₅, tr, rfl, h₄, h₅, hcase⟩ := path_settlementLines hbuilt
  have hd := hrecorded.account_read (hmem e₄ (by simp)) h₄
  have hc := hrecorded.account_read (hmem e₅ (by simp)) h₅
  obtain rfl : d.currency = dc := Option.some.inj (hd.symm.trans hdc)
  obtain rfl : cr.currency = cc := Option.some.inj (hc.symm.trans hcc)
  rcases hcase with ⟨hsame, -, -⟩ | ⟨-, rate, amount, suspense', e₆, e₇, e₈, rfl, h₆, hconv, -, -, rfl⟩
  · exact absurd hsame hne
  · have hpayment :
        (row'.moved .settled (some (rateId, n))).toDomain = row'.toDomain.moved .settled (some (rate.id, amount)) :=
      Value.payment.inj (Option.some.inj hp)
    have hrate : some rateId = some rate.id := congrArg Payment.fxRateId hpayment
    have hamount : some n.toDecimal = some amount := congrArg Payment.creditorAmount hpayment
    obtain rfl := Option.some.inj hrate
    obtain rfl := Option.some.inj hamount
    exact ⟨l, c, [], d.currency, cr.currency, rate, rfl, ⟨attempts, hcall⟩, h.quoted hl (hmem e₆ (by simp)) h₆,
      hcurrency hdc, hcurrency hcc, hne, rfl, storedConversion hconv hn⟩

/-- Only a settlement converts. -/
theorem Deed.Of.converts {rt : Runtime} {st : Store} {now : ℕ} {call : Call} {v : Option Value} {row : PaymentRow}
    {toStatus : PaymentStatus} {reason : Option String} {x : Uuid × Numeric 2}
    {posting : Option (JournalEntry × Posting)}
    {subs : List WebhookSubscription} {ds : List WebhookDeliveryRow}
    (h : (Deed.transition row toStatus reason (some x) posting subs ds).Of rt st now call v) :
    (∃ attempts, call = .settlePayment row.id attempts) ∧ toStatus = .settled ∧
    (∃ entry p, posting = some (entry, p)) ∧
      v = some (.payment (row.moved .settled (some x)).toDomain) := by
  cases call with
  | initiatePayment req =>
    obtain ⟨_, _, _, heq, -⟩ := h
    cases heq
  | initiatePaymentIdempotent key body req =>
    rcases h with ⟨_, heq, -⟩ | ⟨_, _, _, _, heq, -⟩ <;> cases heq
  | authorisePayment id n =>
    obtain ⟨_, _, _, _, heq, -⟩ := h
    cases heq
  | failPayment id reason n =>
    obtain ⟨_, _, _, _, heq, -⟩ := h
    cases heq
  | settlePayment id n =>
    obtain ⟨_, _, _, entry, p, _, _, heq, rfl, -, hv⟩ := h
    cases heq
    exact ⟨⟨n, rfl⟩, rfl, ⟨entry, p, rfl⟩, hv⟩
  | reversePayment id n =>
    obtain ⟨_, _, _, _, _, _, _, heq, -, ht, -⟩ := h
    cases heq
    cases ht.booking
  | postJournalEntry entry n =>
    obtain ⟨_, heq, -⟩ := h
    cases heq
  | runReconciliation batchId records windowStart windowEnd =>
    obtain ⟨_, _, _, heq, -⟩ := h
    cases heq

/-- Every converted amount has been priced. -/
theorem WellFormed.priced (h : WellFormed (feedEnv step) st₀ (fun i => (calls i).prog rt) σ) (h₀ : Fresh st₀) :
    ∀ id row, σ.world.store.payments.find id = some row → ∀ n, row.creditorAmount = some n →
      Priced step calls st₀ σ.world.log row n := by
  apply h.history.invariant fun log (st : Store) => ∀ id row, st.payments.find id = some row → ∀ n,
    row.creditorAmount = some n → Priced step calls st₀ log row n
  · intro id row hrow
    have hmem := Table.mem_of_find hrow
    rw [h₀.payments] at hmem
    cases hmem
  · intro l st st' hP he
    obtain ⟨f, -, rfl⟩ := he
    exact hP
  · intro l c l' hl hP id row hrow n hn
    have hc : c ∈ σ.world.log := by
      rw [hl]
      simp
    obtain ⟨v, d, hd⟩ := h.does hc
    have hlegal := hd.deed.legal
    have hafter : c.after = c.before.after (d.writes c.began) := by
      rw [← hd.writes]
      rfl
    have hold {old : PaymentRow} (hfind : c.before.payments.find id = some old) (hrow : some old = some row) :
        Priced step calls st₀ (l ++ [c]) row n := by
      obtain rfl := Option.some.inj hrow
      exact (hP id old hfind n hn).later rfl rfl rfl rfl rfl
    rw [hafter, Deed.payment_effect hlegal] at hrow
    cases d with
    | initiate new subs ds completion =>
      by_cases hid : new.id = id
      · rw [Deed.payment, if_pos hid] at hrow
        obtain rfl := Option.some.inj hrow
        obtain ⟨⟨req, hi⟩, -⟩ := hlegal
        obtain ⟨a, -, cur, -, ref, -, hnew⟩ := PaymentRow.new_ok.mp hi.stored
        rw [hnew] at hn
        cases hn
      · rw [Deed.payment, if_neg hid] at hrow
        exact hold hrow rfl
    | transition old toStatus reason fx posting subs ds =>
      by_cases hid : old.id = id
      · rw [Deed.payment, if_pos hid] at hrow
        obtain rfl := Option.some.inj hrow
        have ht : Transition rt c.before c.began old toStatus fx posting subs ds := hlegal
        cases fx with
        | none => exact (hP old.id old ht.found n hn).later rfl rfl rfl rfl rfl
        | some x =>
          obtain rfl : x.2 = n := Option.some.inj hn
          obtain ⟨⟨attempts, hcall⟩, rfl, ⟨entry, p, rfl⟩, rfl⟩ := hd.deed.converts
          exact h.settlement_priced hl hcall ht hd.shape
      · rw [Deed.payment, if_neg hid] at hrow
        exact hold hrow rfl
    | _ => exact hold hrow rfl

/-- Whatever becomes of the rates meanwhile: every amount that a payment was converted to is its amount at a rate
that was the latest of its pair of currencies when the settlement of the payment read it, rounded half up to the
cent. -/
theorem conversions_at_latest_rate (h₀ : Fresh st₀) (h : Reachable rt step st₀ calls σ) {row : PaymentRow}
    (hrow : row ∈ σ.world.store.payments.rows) {n : Numeric 2} (hn : row.creditorAmount = some n) :
    ∃ l c l' base quote r, σ.world.log = l ++ c :: l' ∧
    (∃ attempts, calls c.caller = .settlePayment row.id attempts) ∧
      Quoted step st₀ l c base quote r ∧ st₀.currencyOf row.debtorAccountId = some base ∧
      st₀.currencyOf row.creditorAccountId = some quote ∧ base ≠ quote ∧ row.fxRateId = some r.id ∧
      0 < r.rate.toDecimal.toRat ∧
      n.toDecimal.toRat = halfUp (-2) (row.amount.toDecimal.toRat * r.rate.toDecimal.toRat) ∧
      |n.toDecimal.toRat - row.amount.toDecimal.toRat * r.rate.toDecimal.toRat| ≤ 1 / 200 := by
  obtain ⟨clock, hr⟩ := h
  obtain ⟨l, c, l', base, quote, r, hlog, hcall, hquoted, hd, hc, hne, hrate, hconv⟩ :=
    (reaches_wellFormed hr).priced h₀ row.id row (Table.find_of_mem hrow) n hn
  have hexact := hconv.exact.2
  refine ⟨l, c, l', base, quote, r, hlog, hcall, hquoted, hd, hc, hne, hrate, hconv.ratePos, hexact, ?_⟩
  rw [hexact]
  have hhalf := abs_halfUp_sub_le (-2) (row.amount.toDecimal.toRat * r.rate.toDecimal.toRat)
  norm_num at hhalf ⊢
  exact hhalf

end Runs

section Sample

/-- The sample store with an older and a newer rate from euros to dollars. -/
def pricedStore : Store :=
  { sampleStore with feed := { sampleStore.feed with
      fxRates := ⟨[⟨70, "EUR", "USD", .num 90000000 (by decide), 0, "test"⟩,
        ⟨71, "EUR", "USD", .num 112000000 (by decide), 5, "test"⟩], by decide⟩ } }

/-- Ten euros for the account in dollars, from their initiation to their settlement. -/
def pricedCalls : Fin 3 → Call
  | 0 => .initiatePayment ⟨1, 3, cents 1000, "EUR", none⟩
  | 1 => .authorisePayment 10 3
  | 2 => .settlePayment 10 3

def pricedSchedule : List (Fin 3 × Choice) :=
  let subscriptions := sampleStore.feed.webhookSubscriptions.rows
  List.replicate 4 (0, { id := 10 }) ++ List.replicate 4 (0, { id := 80, subscriptions }) ++
    List.replicate 7 (1, { id := 81, subscriptions }) ++
    List.replicate 20 (2, { id := 82, rate := pricedStore.feed.fxRates.rows.getLast?, subscriptions })

theorem conversions_at_latest_rate_newer : ∃ σ row n base quote, ∃ r : FxRateRow,
    Reachable sampleRuntime (fun _ _ => False) pricedStore pricedCalls σ ∧ row ∈ σ.world.store.payments.rows ∧
    row.creditorAmount = some n ∧ n.units = 1120 ∧ pricedStore.currencyOf row.debtorAccountId = some base ∧
    pricedStore.currencyOf row.creditorAccountId = some quote ∧ row.fxRateId = some r.id ∧
    n.toDecimal.toRat = halfUp (-2) (row.amount.toDecimal.toRat * r.rate.toDecimal.toRat) := by
  have hend : ((System sampleRuntime pricedStore 0 pricedCalls).run pricedSchedule).any fun σ => decide (
      ∃ row ∈ σ.world.store.payments.rows, row.creditorAmount.map Numeric.units = some 1120) := by decide +kernel
  obtain ⟨σ, hσ, hrows⟩ := (Option.any_eq_true _ _).mp hend
  obtain ⟨row, hrow, hcents⟩ := of_decide_eq_true hrows
  obtain ⟨n, hn, hunits⟩ := Option.map_eq_some_iff.mp hcents
  have hfresh : Fresh pricedStore := ⟨by decide, rfl, rfl, rfl, rfl, rfl, rfl⟩
  have hreach : Reachable sampleRuntime (fun _ _ => False) pricedStore pricedCalls σ := reachable_of_run hσ
  obtain ⟨_, _, _, base, quote, r, -, -, -, hd, hc, -, hr, -, hexact, -⟩ :=
    conversions_at_latest_rate hfresh hreach hrow hn
  exact ⟨σ, row, n, base, quote, r, hreach, hrow, hn, hunits, hd, hc, hr, hexact⟩

end Sample
end PaymentLedger
