import PaymentLedger.Ledger.Linearization
import PaymentLedger.Ledger.ZeroSum

namespace PaymentLedger

/-- What the line moves on an account once it is stored. -/
def JournalLine.moves (line : JournalLine) (a : Uuid) (ccy : String) : ℤ :=
  match JournalLineRow.new 0 line with
  | .ok row => amountOn (some row.accountId) (some row.currency) row.signedCents a ccy
  | .error _ => 0

/-- What a call that posts an entry by hand moves on an account. -/
def Call.posts (call : Call) (a : Uuid) (ccy : String) : ℤ :=
  match call with
  | .postJournalEntry entry _ => (entry.lines.map fun line => line.moves a ccy).sum
  | _ => 0

/-- What the creditor receives in the currency of its account, in cents. -/
def PaymentRow.credited (row : PaymentRow) : ℤ := (row.creditorAmount.map Numeric.units).getD row.amount.cents

namespace Store

variable (st : Store)

def settled : List PaymentRow := st.payments.rows.filter fun row => row.status = .settled

/-- What the settled payments have paid into an account. -/
def received (a : Uuid) : ℤ :=
  ((st.settled.filter fun row => row.creditorAccountId = a).map PaymentRow.credited).sum

/-- What the settled payments have taken from an account. -/
def sent (a : Uuid) : ℤ :=
  ((st.settled.filter fun row => row.debtorAccountId = a).map fun row => row.amount.cents).sum

end Store

section Lines

variable {rt : Runtime} {st : Store} {entry : JournalEntry} {p : Posting}

theorem JournalLine.moves_stored {id : Uuid} {line : JournalLine} {row : JournalLineRow}
    (h : JournalLineRow.new id line = .ok row) (a : Uuid) (ccy : String) :
    line.moves a ccy = amountOn (some row.accountId) (some row.currency) row.signedCents a ccy := by
  obtain ⟨amount, hamount, cur, hcur, rfl⟩ := JournalLineRow.new_ok.mp h
  have hzero : JournalLineRow.new 0 line = .ok ⟨0, line.accountId, line.direction, amount, cur⟩ :=
    JournalLineRow.new_ok.mpr ⟨amount, hamount, cur, hcur, rfl⟩
  rw [moves, hzero]
  rfl

theorem postedOn_stored {id : Uuid} {lines : List JournalLine} {rows : List JournalLineRow}
    (h : List.Forall₂ (fun line row => JournalLineRow.new id line = .ok row) lines rows) (a : Uuid) (ccy : String) :
    Bank.postedOn (rows.map JournalLineRow.bankLine) a ccy = (lines.map fun line => line.moves a ccy).sum := by
  rw [← netOn_bankLines]
  induction h with
  | nil => rfl
  | cons hrow _ ih => rw [netOn_cons, ih, List.map_cons, List.sum_cons, JournalLine.moves_stored hrow]

theorem Call.Performs.posted {call : Call} {e : BankEvent} (h : call.Performs e) (a : Uuid) (ccy : String) :
    postedBy [e] a ccy = call.posts a ccy := by
  cases call with
  | initiatePayment req =>
    obtain ⟨p, rfl, -⟩ := h
    rfl
  | initiatePaymentIdempotent key body req =>
    rcases h with rfl | ⟨p, rfl, -⟩ <;> rfl
  | settlePayment id n =>
    obtain ⟨converted, rfl⟩ := h
    rfl
  | postJournalEntry entry n =>
    obtain ⟨id, rows, hrows, rfl⟩ := h
    rw [posts, ← postedOn_stored hrows]
    simp [postedBy]
  | _ =>
    obtain rfl := h
    rfl

/-- A posting stores numbers alone. -/
theorem Posting.Stores.numbers (h : p.Stores rt st entry) (hv : validateJournalEntry entry.lines = .ok ()) :
    ∀ l ∈ p.lines, l.amount.value ≠ .nan := by
  intro l hl
  obtain ⟨line, hline, hrow⟩ := forall₂_mem_right h.lines hl
  obtain ⟨amount, hamount, cur, -, rfl⟩ := JournalLineRow.new_ok.mp hrow
  have hpositive := (validateJournalEntry_ok.mp hv).2.1 line hline
  have hstored := Amount.ofDecimal_ok.mp hamount
  rintro hnan
  rw [show amount.value = .nan from hnan] at hstored
  cases ha : line.amount with
  | finite s c e =>
    simp only [ha, Numeric.ofDecimal] at hstored
    split at hstored <;> cases hstored
  | infinity s => simp [ha, Numeric.ofDecimal] at hstored
  | nan s => simp [ha, Decimal.nonPositive] at hpositive

end Lines

section Run

variable {ι : Type} [DecidableEq ι] {rt : Runtime} {step : Feed → Feed → Prop} {st₀ : Store}
  {calls : ι → Call} {σ : Config postgres ι Value}

/-- No line holds NaN, whatever was posted. -/
theorem WellFormed.numbers (h : WellFormed (feedEnv step) st₀ (fun i => (calls i).prog rt) σ) (h₀ : Fresh st₀) :
    ∀ l ∈ σ.world.store.journalLines, l.amount.value ≠ .nan := by
  apply h.invariant fun _ st => ∀ l ∈ st.journalLines, l.amount.value ≠ .nan
  · simp [h₀.lines]
  · intro l st f hst
    exact hst
  · intro log c v d hd hst
    have hlegal := hd.deed.legal
    rw [Deed.lines_effect hlegal]
    intro l hl
    rcases List.mem_append.mp hl with hold | hnew
    · exact hst l hold
    · cases hc : (calls c.caller).postsEntry with
      | false =>
        rw [hd.deed.postings_nil hc] at hnew
        cases hnew
      | true =>
        obtain ⟨entry, p, -, hv, hp, hs⟩ := hd.deed.books hc
        rw [hp] at hnew
        exact hs.numbers hv l (by simpa using hnew)

theorem getBalance_numbers {st : Store} (h : ∀ l ∈ st.journalLines, l.amount.value ≠ .nan)
    (a : Uuid) (ccy : String) :
    st.getBalance a ccy = some (netOn st.journalLines a ccy) := by
  rw [Store.getBalance, if_neg]
  simp only [List.any_eq_true, decide_eq_true_eq, not_exists, not_and]
  intro l hl _ _
  exact h l hl

omit [DecidableEq ι] in
theorem Linearized.posted {log : List (Commit postgres ι)} {st : Store} {es : List BankEvent}
    (h : Linearized calls st₀ log st es) (a : Uuid) (ccy : String) :
    postedBy es a ccy = (log.map fun c => (calls c.caller).posts a ccy).sum := by
  have heach := h.each
  clear h
  induction heach with
  | nil => rfl
  | cons hce _ ih =>
    rw [List.map_cons, List.sum_cons, ← hce.1.posted, ← ih]
    simp [postedBy]

omit [DecidableEq ι] in
theorem Linearized.accounted {log : List (Commit postgres ι)} {st : Store} {es : List BankEvent}
    (h : Linearized calls st₀ log st es) (h₀ : Fresh st₀) : st.bank.Accounted es :=
  h₀.opening.runs h.runs

theorem sum_if {α : Type} (rows : List α) (p : α → Prop) [DecidablePred p] (f : α → ℤ) :
    (rows.map fun x => if p x then f x else 0).sum = ((rows.filter fun x => p x).map f).sum := by
  induction rows with
  | nil => rfl
  | cons x rows ih =>
    by_cases hp : p x <;> simp [hp, ih]

/-- The position of the bank, from the rows of the store. -/
theorem position_bank {st : Store} {es : List BankEvent} (h : st.bank.Accounted es) (a : Uuid) (ccy : String) :
    st.bank.position a ccy = (st.settled.map fun row => st.transferOf row a ccy).sum := by
  have hmoved : ∀ row ∈ st.payments.rows,
      (if row.bankPayment.status = .settled then st.bank.movement row.bankPayment a ccy else 0) =
        if row.status = .settled then st.transferOf row a ccy else 0 := by
    intro row hrow
    have hfound : st.bank.payments.find row.id = some row.bankPayment := by
      rw [find_bank, Table.find_of_mem hrow, Option.map_some]
    rw [movement_bank (h.sound _ _ hfound).debtor]
    rfl
  have hrows : st.bank.payments.rows = st.payments.rows.map PaymentRow.bankPayment := rfl
  rw [Bank.position, hrows, List.map_map, Store.settled, ← sum_if]
  exact congrArg List.sum (List.map_congr_left hmoved)

/-- At every moment of a run each balance is the sum of what the settled payments have transferred and of what was
posted by hand, in every currency and on the suspense account too. -/
theorem balance_of_payments (h₀ : Fresh st₀) (h : Reachable rt step st₀ calls σ) (a : Uuid) (ccy : String) :
    σ.world.store.getBalance a ccy = some (
      (σ.world.store.settled.map fun row => σ.world.store.transferOf row a ccy).sum +
        (σ.world.log.map fun c => (calls c.caller).posts a ccy).sum) := by
  obtain ⟨clock, hr⟩ := h
  have hwf := reaches_wellFormed hr
  obtain ⟨es, hes⟩ := hwf.linearized h₀
  have hbooks := hes.accounted h₀
  have hbalance : netOn σ.world.store.journalLines a ccy = σ.world.store.bank.position a ccy + postedBy es a ccy :=
    hbooks.balance a ccy
  rw [getBalance_numbers (hwf.numbers h₀), hbalance, position_bank hbooks, hes.posted]

theorem sample_balance : Fresh sampleStore ∧ sampleEnd.world.store.getBalance 2 "EUR" = some (
    (sampleEnd.world.store.settled.map fun row => sampleEnd.world.store.transferOf row 2 "EUR").sum +
      (sampleEnd.world.log.map fun c => (sampleCalls c.caller).posts 2 "EUR").sum) :=
  ⟨sampleStore_fresh, balance_of_payments sampleStore_fresh (sampleEnd_reachable Eq) 2 "EUR"⟩

theorem amountOn_own {account : Uuid} {currency : Option String} {a : Uuid} {ccy : String} (z : ℤ)
    (h : account = a → currency = some ccy) :
    amountOn (some account) currency z a ccy = if account = a then z else 0 := by
  rw [amountOn]
  by_cases ha : account = a
  · rw [if_pos ⟨congrArg some ha, h ha⟩, if_pos ha]
  · rw [if_neg (fun hand => ha (Option.some.inj hand.1)), if_neg ha]

/-- In the currency of the account a settled payment pays its creditor in full and takes its amount from its
debtor. -/
theorem transferOf_own {st : Store} {row : PaymentRow} {a : Uuid} {ccy : String}
    (hsound : st.bank.Sound row.bankPayment)
    (hsettled : row.status = .settled) (hccy : st.currencyOf a = some ccy) (hs : st.suspense ≠ some a) :
    st.transferOf row a ccy = (if row.creditorAccountId = a then row.credited else 0) -
      if row.debtorAccountId = a then row.amount.cents else 0 := by
  have hdebtor : row.debtorAccountId = a → st.currencyOf row.debtorAccountId = some ccy := by
    rintro rfl
    exact hccy
  have hcreditor : row.creditorAccountId = a → st.currencyOf row.creditorAccountId = some ccy := by
    rintro rfl
    exact hccy
  have hsuspense (currency : Option String) (z : ℤ) : amountOn st.suspense currency z a ccy = 0 := by
    rw [amountOn, if_neg]
    rintro ⟨hsus, -⟩
    exact hs hsus
  cases hn : row.creditorAmount with
  | none =>
    have hsame : st.currencyOf row.creditorAccountId = st.currencyOf row.debtorAccountId := by
      have hdirect := hsound.direct hsettled (by simp [PaymentRow.bankPayment, hn])
      exact hdirect.trans hsound.debtor.symm
    have hpaid : row.creditorAccountId = a → st.currencyOf row.debtorAccountId = some ccy := by
      rw [← hsame]
      exact hcreditor
    simp only [Store.transferOf, hn, PaymentRow.credited, amountOn_own _ hdebtor,
      amountOn_own _ hpaid, Option.map_none, Option.getD_none]
    split_ifs <;> ring
  | some n =>
    simp only [Store.transferOf, hn, PaymentRow.credited, amountOn_own _ hdebtor,
      amountOn_own _ hcreditor, hsuspense, Option.map_some, Option.getD_some]
    split_ifs <;> ring

/-- The statement of an account: of its own currency it holds what its settled payments brought less what they took,
of any other currency nothing, and in both what was posted by hand. Only the suspense account is kept otherwise. -/
theorem account_statement (h₀ : Fresh st₀) (h : Reachable rt step st₀ calls σ) {a : Account}
    (ha : a ∈ σ.world.store.accounts.rows) (hs : a.accountNumber ≠ fxSuspenseAccountNumber) (ccy : String) :
    σ.world.store.getBalance a.id ccy = some (
      (if ccy = a.currency then σ.world.store.received a.id - σ.world.store.sent a.id else 0) +
        (σ.world.log.map fun c => (calls c.caller).posts a.id ccy).sum) := by
  obtain ⟨clock, hr⟩ := h
  have hwf := reaches_wellFormed hr
  obtain ⟨es, hes⟩ := hwf.linearized h₀
  have hbooks := hes.accounted h₀
  set st := σ.world.store
  have hcurrency : st.currencyOf a.id = some a.currency := by
    rw [Store.currencyOf, Table.find_of_mem ha, Option.map_some]
  have hsuspense : st.suspense ≠ some a.id := by
    intro hsus
    obtain ⟨a', hfound, hid⟩ := Option.map_eq_some_iff.mp hsus
    obtain rfl : a' = a := List.inj_on_of_nodup_map st.accounts.nodup (List.mem_of_find?_eq_some hfound) ha hid
    have hnumber := List.find?_some hfound
    exact hs (of_decide_eq_true hnumber)
  have hbalance : st.bank.balance a.id ccy = netOn st.journalLines a.id ccy := rfl
  rw [getBalance_numbers (hwf.numbers h₀), ← hes.posted, ← hbalance]
  congr 1
  by_cases hccy : ccy = a.currency
  · subst hccy
    rw [if_pos rfl, hbooks.balance, position_bank hbooks]
    congr 1
    have hrows : ∀ row ∈ st.settled, st.transferOf row a.id a.currency =
        (if row.creditorAccountId = a.id then row.credited else 0) -
          if row.debtorAccountId = a.id then row.amount.cents else 0 := by
      intro row hrow
      obtain ⟨hmem, hstatus⟩ := List.mem_filter.mp hrow
      apply transferOf_own _ (of_decide_eq_true hstatus) hcurrency hsuspense
      apply hbooks.sound row.id
      rw [find_bank, Table.find_of_mem hmem, Option.map_some]
    have hsplit := Multiset.sum_map_sub (m := (st.settled : Multiset PaymentRow))
      (f := fun row => if row.creditorAccountId = a.id then row.credited else 0)
      (g := fun row => if row.debtorAccountId = a.id then row.amount.cents else 0)
    simp only [Multiset.map_coe, Multiset.sum_coe, sum_if] at hsplit
    rw [List.map_congr_left hrows]
    exact hsplit
  · rw [if_neg hccy, zero_add]
    apply hbooks.foreign hsuspense
    rw [show st.bank.currencyOf a.id = some a.currency from hcurrency]
    exact fun heq => hccy (Option.some.inj heq).symm

theorem sample_statement : Fresh sampleStore ∧
    ∃ a, ∃ _ : a ∈ sampleEnd.world.store.accounts.rows, ∃ _ : a.accountNumber ≠ fxSuspenseAccountNumber,
      sampleEnd.world.store.getBalance a.id "EUR" = some (
        (if "EUR" = a.currency then sampleEnd.world.store.received a.id - sampleEnd.world.store.sent a.id else 0) +
          (sampleEnd.world.log.map fun c => (sampleCalls c.caller).posts a.id "EUR").sum) := by
  have hpayer :
      ({ sampleAccount 1 "DE01" "EUR" with version := 1 } : Account) ∈ sampleEnd.world.store.accounts.rows := by
    decide +kernel
  have hnumber : ({ sampleAccount 1 "DE01" "EUR" with version := 1 } : Account).accountNumber ≠
      fxSuspenseAccountNumber := by
    decide
  exact ⟨sampleStore_fresh, _, hpayer, hnumber,
    account_statement sampleStore_fresh (sampleEnd_reachable Eq) hpayer hnumber "EUR"⟩

end Run
end PaymentLedger
