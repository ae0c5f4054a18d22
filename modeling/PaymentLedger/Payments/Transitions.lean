import PaymentLedger.Ledger.Amounts
import PaymentLedger.Ledger.Conflicts
import PaymentLedger.Services.Rules

namespace PaymentLedger

/-- A payment whose accounts exist and whose amounts the ledger takes. -/
structure Payable (st : Store) (row : PaymentRow) : Prop where
  debtor : st.currencyOf row.debtorAccountId = some row.currency
  creditor : (st.currencyOf row.creditorAccountId).isSome = true
  amount : row.amount.toDecimal.IsAmount
  converted : ∀ n, row.creditorAmount = some n → n.toDecimal.IsAmount ∧ st.suspense.isSome = true

structure AllPayable (st : Store) : Prop where
  currencies : ∀ id cur, st.currencyOf id = some cur → varchar 3 cur = .ok cur
  payments : ∀ id row, st.payments.find id = some row → Payable st row

/-- The rate turns the amount into one that the ledger takes: it is not rounded to nothing, and within the
column. -/
def Converts (amount rate : Decimal) : Prop :=
  5 / 1000 ≤ amount.toRat * rate.toRat ∧ amount.toRat * rate.toRat < 10 ^ 16 - 5 / 1000

section Conversion

variable {c : ℕ}

/-- A number of at most 28 digits is not rounded. -/
theorem fix_short {e : ℤ} (hc : c ≠ 0) (hdigits : digitCount c ≤ 28) (he : e ∈ Set.Icc (-100) 100) :
    Decimal.fix defaultContext (.finite false c e) = .ok (.finite false c e) := by
  obtain ⟨hlow, hhigh⟩ := he
  have hmin : max (e + digitCount c - defaultContext.prec) defaultContext.etiny ≤ e := by
    simp only [defaultContext, DecimalContext.etiny]
    omega
  have htop : ¬defaultContext.etop < max (e + digitCount c - defaultContext.prec) defaultContext.etiny := by
    simp only [defaultContext, DecimalContext.etiny, DecimalContext.etop] at hmin ⊢
    omega
  rw [Decimal.fix, if_neg hc]
  dsimp only
  rw [if_neg htop, if_neg (not_lt.mpr hmin)]

/-- A product of ten decimals that rounds to an amount. -/
theorem quantize_product (hlow : 5 * 10 ^ 7 ≤ c) (hhigh : c < 10 ^ 26 - 5 * 10 ^ 7) :
    ∃ d, Decimal.quantize defaultContext (-2) (.finite false c (-10)) = .ok d ∧ d.IsAmount := by
  have hq : Decimal.rescaleHalfUp c (-10) (-2) = (2 * c + 100000000) / 200000000 := by
    rw [Decimal.rescaleHalfUp, if_neg (by decide), show (-2 - -10 : ℤ).toNat = 8 from rfl, roundHalfUp]
    norm_num
  have hqlow : 1 ≤ Decimal.rescaleHalfUp c (-10) (-2) := by omega
  have hqhigh : Decimal.rescaleHalfUp c (-10) (-2) < 10 ^ 18 := by omega
  have hdigits := (digitCount_le_iff c 26 (by decide)).mpr (by omega)
  have hdigits' := (digitCount_le_iff _ 18 (by decide)).mpr hqhigh
  refine ⟨_, ?_, _, hqlow, hqhigh, rfl⟩
  rw [Decimal.quantize, if_neg (by decide), if_neg (by omega), if_neg]
  · dsimp only
    rw [if_neg, fix_short (by omega) (by omega) (by simp)]
    simp only [defaultContext]
    omega
  · simp only [defaultContext]
    omega

/-- Under these bounds a conversion ends in an amount. -/
theorem Converts.amount {amount : Decimal} {rate : Numeric 8} (ha : amount.IsAmount)
    (h : Converts amount rate.toDecimal) : ∃ d, convertAmount amount rate.toDecimal = .ok d ∧ d.IsAmount := by
  obtain ⟨n, hn, -, rfl⟩ := ha
  obtain ⟨hlow, hhigh⟩ := h
  cases rate with
  | nan =>
    norm_num [Numeric.toDecimal, Decimal.toRat] at hlow
  | num z lt =>
    rw [Numeric.toDecimal_toRat, Decimal.toRat_finite] at hlow hhigh
    have hz : 0 < z := by
      by_contra hneg
      have hz' : (z : ℚ) ≤ 0 := by exact_mod_cast not_lt.mp hneg
      have hle : (n : ℚ) * z ≤ 0 := mul_nonpos_of_nonneg_of_nonpos (by positivity) hz'
      norm_num at hlow
      linarith
    have hzabs : (z.natAbs : ℤ) = z := Int.natAbs_of_nonneg hz.le
    have hcast : ((n * z.natAbs : ℕ) : ℚ) = n * z := by
      rw [Nat.cast_mul, ← hzabs]
      push_cast
      simp
    have hproduct : Decimal.mul defaultContext (.finite false n (-2)) (Numeric.num z lt : Numeric 8).toDecimal =
        Decimal.fix defaultContext (.finite false (n * z.natAbs) (-10)) := by
      rw [Numeric.toDecimal, Decimal.ofInt, if_neg hz.ne', decide_eq_false hz.not_gt]
      rfl
    have hlow' : 5 * 10 ^ 7 ≤ n * z.natAbs := by
      have hq : (5 * 10 ^ 7 : ℚ) ≤ (n * z.natAbs : ℕ) := by
        rw [hcast]
        norm_num at hlow ⊢
        linarith
      exact_mod_cast hq
    have hhigh' : n * z.natAbs < 10 ^ 26 - 5 * 10 ^ 7 := by
      have hq : ((n * z.natAbs : ℕ) : ℚ) < ((10 ^ 26 - 5 * 10 ^ 7 : ℕ) : ℚ) := by
        rw [hcast]
        norm_num at hhigh ⊢
        linarith
      exact_mod_cast hq
    have hdigits := (digitCount_le_iff (n * z.natAbs) 26 (by decide)).mpr (by omega)
    obtain ⟨d, hd, hda⟩ := quantize_product hlow' hhigh'
    refine ⟨d, ?_, hda⟩
    rw [convertAmount, hproduct, fix_short (by omega) (by omega) (by simp)]
    exact hd

end Conversion
/-- Every latest rate for the payment converts it, and there is an account for the conversion. -/
def Convertible (st : Store) (id : Uuid) : Prop :=
  ∀ row, st.payments.find id = some row → ∀ dc cc, st.currencyOf row.debtorAccountId = some dc →
    st.currencyOf row.creditorAccountId = some cc → dc ≠ cc → ∀ r, st.Latest dc cc r →
      Converts row.amount.toDecimal r.rate.toDecimal ∧ st.suspense.isSome = true

/-- Why a transition is declined. -/
inductive Declined (st : Store) (id : Uuid) (toStatus : PaymentStatus) : AppError → Prop
  | missing (h : st.payments.find id = none) : Declined st id toStatus (.paymentNotFound id)
  | forbidden {row : PaymentRow} (h : st.payments.find id = some row)
      (hs : toStatus ∉ allowedTransitions row.status) :
      Declined st id toStatus (.invalidTransition ⟨row.status, toStatus⟩)
  | unrated {row : PaymentRow} {dc cc : String} (h : st.payments.find id = some row) (hs : toStatus = .settled)
      (hd : st.currencyOf row.debtorAccountId = some dc) (hc : st.currencyOf row.creditorAccountId = some cc)
      (hne : dc ≠ cc) (hr : st.rates dc cc = []) : Declined st id toStatus (.fxRateNotFound dc cc)

/-- The entry that the lines make can be posted. -/
structure Postable (st : Store) (built : BuildLinesResult) : Prop where
  type : varchar 30 built.1 = .ok built.1
  valid : validateJournalEntry built.2.1 = .ok ()
  rows : ∀ entryId, ∀ line ∈ built.2.1, ∃ row, JournalLineRow.new entryId line = .ok row
  accounts : ∀ line ∈ built.2.1, st.hasAccount line.accountId = true

section Lines

variable {st : Store}

theorem netRat_pair (a b : Uuid) (x : Decimal) (cur ccy : String) :
    netRat [⟨a, .debit, x, cur⟩, ⟨b, .credit, x, cur⟩] ccy = 0 := by
  have hsplit := netRat_append [⟨a, .debit, x, cur⟩] [⟨b, .credit, x, cur⟩] ccy
  rw [List.singleton_append] at hsplit
  rw [hsplit, netRat_singleton, netRat_singleton]
  by_cases h : cur = ccy
  · simp [h, JournalLine.signedRat]
  · simp [h]

theorem currencyOf_hasAccount {id : Uuid} {cur : String} (h : st.currencyOf id = some cur) :
    st.hasAccount id = true := by
  obtain ⟨a, ha, -⟩ := Option.map_eq_some_iff.mp h
  rw [Store.hasAccount, ha]
  rfl

theorem suspense_hasAccount {id : Uuid} (h : st.suspense = some id) : st.hasAccount id = true := by
  obtain ⟨a, ha, rfl⟩ := Option.map_eq_some_iff.mp h
  rw [Store.hasAccount, Table.find_of_mem (List.mem_of_find?_eq_some ha)]
  rfl

/-- A transfer in one currency. -/
theorem postable_transfer {a b : Uuid} {x : Decimal} {cur type : String} {overrides : Option (Uuid × Decimal)}
    (ht : varchar 30 type = .ok type) (hx : x.IsAmount) (hcur : varchar 3 cur = .ok cur)
    (ha : st.hasAccount a = true) (hb : st.hasAccount b = true) :
    Postable st (type, [⟨a, .debit, x, cur⟩, ⟨b, .credit, x, cur⟩], overrides) where
  type := ht
  valid := by
    apply validateJournalEntry_balanced (by simp) (by simp)
    · intro line hline
      simp only [List.mem_cons, List.not_mem_nil, or_false] at hline
      rcases hline with rfl | rfl <;> exact hx
    · exact netRat_pair a b x cur
  rows := by
    intro entryId line hline
    simp only [List.mem_cons, List.not_mem_nil, or_false] at hline
    rcases hline with rfl | rfl
    · exact JournalLine.storable hx hcur entryId
    · exact JournalLine.storable hx hcur entryId
  accounts := by
    intro line hline
    simp only [List.mem_cons, List.not_mem_nil, or_false] at hline
    rcases hline with rfl | rfl
    · exact ha
    · exact hb

/-- Two transfers in two currencies. -/
theorem postable_conversion {a b c d : Uuid} {x y : Decimal} {cur cur' type : String}
    {overrides : Option (Uuid × Decimal)} (ht : varchar 30 type = .ok type)
    (hx : x.IsAmount) (hcur : varchar 3 cur = .ok cur) (hy : y.IsAmount) (hcur' : varchar 3 cur' = .ok cur')
    (ha : st.hasAccount a = true) (hb : st.hasAccount b = true) (hc : st.hasAccount c = true)
    (hd : st.hasAccount d = true) :
    Postable st (type, [⟨a, .debit, x, cur⟩, ⟨b, .credit, x, cur⟩, ⟨c, .debit, y, cur'⟩, ⟨d, .credit, y, cur'⟩],
      overrides) where
  type := ht
  valid := by
    apply validateJournalEntry_balanced (by simp) (by simp)
    · intro line hline
      simp only [List.mem_cons, List.not_mem_nil, or_false] at hline
      rcases hline with rfl | rfl | rfl | rfl
      · exact hx
      · exact hx
      · exact hy
      · exact hy
    · intro ccy
      have hsplit :=
        netRat_append [⟨a, .debit, x, cur⟩, ⟨b, .credit, x, cur⟩] [⟨c, .debit, y, cur'⟩, ⟨d, .credit, y, cur'⟩] ccy
      rw [netRat_pair, netRat_pair, add_zero] at hsplit
      exact hsplit
  rows := by
    intro entryId line hline
    simp only [List.mem_cons, List.not_mem_nil, or_false] at hline
    rcases hline with rfl | rfl | rfl | rfl
    · exact JournalLine.storable hx hcur entryId
    · exact JournalLine.storable hx hcur entryId
    · exact JournalLine.storable hy hcur' entryId
    · exact JournalLine.storable hy hcur' entryId
  accounts := by
    intro line hline
    simp only [List.mem_cons, List.not_mem_nil, or_false] at hline
    rcases hline with rfl | rfl | rfl | rfl
    · exact ha
    · exact hb
    · exact hc
    · exact hd

theorem Postable.later {st' : Store} {built : BuildLinesResult} (h : Postable st built) (hl : Later st st') :
    Postable st' built where
  type := h.type
  valid := h.valid
  rows := h.rows
  accounts := by
    intro line hline
    rw [hl.hasAccount]
    exact h.accounts line hline

end Lines
/-- There are ids left for the rows that a call inserts. -/
structure Store.Room (st : Store) : Prop where
  payments : st.payments.rows.length < 2 ^ 128
  entries : st.journalEntries.rows.length < 2 ^ 128
  keys : st.idempotencyKeys.rows.length < 2 ^ 128
  deliveries : st.webhookDeliveries.rows.length + st.activeSubscriptions.length ≤ 2 ^ 128

section Frames

variable {st : Store} {ws : List Write}

theorem deliveries_frame (h : ∀ w ∈ ws, w.deliveryRow = none) :
    (st.after ws).webhookDeliveries = st.webhookDeliveries := by
  apply st.after_eq Store.webhookDeliveries
  intro w hw st
  cases w with
  | insertDelivery d => exact absurd (h _ hw) (by simp [Write.deliveryRow])
  | _ => rfl

theorem accounts_frame (h : ∀ w ∈ ws, w.bumped = none) : (st.after ws).accounts = st.accounts := by
  apply st.after_eq Store.accounts
  intro w hw st
  cases w with
  | bumpAccount id => exact absurd (h _ hw) (by simp [Write.bumped])
  | _ => rfl

theorem entries_frame (h : ∀ w ∈ ws, w.entryRow = none) : (st.after ws).journalEntries = st.journalEntries := by
  apply st.after_eq Store.journalEntries
  intro w hw st
  cases w with
  | insertEntry row => exact absurd (h _ hw) (by simp [Write.entryRow])
  | _ => rfl

/-- Only a change of status changes the version of a payment. -/
theorem version_frame {id : Uuid} {row : PaymentRow} (hrow : st.payments.find id = some row)
    (h : ∀ w ∈ ws, ∀ status, w ≠ .setStatus id status) :
    ∃ row', (st.after ws).payments.find id = some row' ∧ row'.version = row.version := by
  refine ⟨_, payment_after ws hrow, ?_⟩
  clear hrow
  induction ws generalizing row with
  | nil => rfl
  | cons w ws ih =>
    have hw : (w.onRow id row).version = row.version := by
      cases w with
      | setStatus id' status =>
        have hne : id ≠ id' := by
          rintro rfl
          exact h _ List.mem_cons_self status rfl
        simp [Write.onRow, hne]
      | setFxDetails id' rate amount => by_cases hid : id = id' <;> simp [Write.onRow, hid]
      | _ => rfl
    rw [List.foldl_cons, ← hw]
    exact ih fun w hw => h w (List.mem_cons_of_mem _ hw)

end Frames

section Wp

variable {live alone : Prop} {good : Store → Prop} {rely : Rely postgres} {c : Store} {row : PaymentRow}
  {Q : Except AppError BuildLinesResult → Store → List Write → Prop}

/-- What the payment was when it was read still holds of its accounts and its amount. -/
theorem Payable.later {st st' : Store} (h : Payable st row) (hl : Later st st') : Payable st' row where
  debtor := by
    rw [hl.currencyOf]
    exact h.debtor
  creditor := by
    rw [hl.currencyOf]
    exact h.creditor
  amount := h.amount
  converted := by
    intro n hn
    rw [hl.suspense]
    exact h.converted n hn

theorem fixed_fields {row' : PaymentRow} (h : row'.fixed = row.fixed) : row'.debtorAccountId = row.debtorAccountId ∧
    row'.creditorAccountId = row.creditorAccountId ∧ row'.amount = row.amount := by
  simp only [PaymentRow.fixed, PaymentRow.mk.injEq] at h
  exact ⟨h.2.1, h.2.2.1, h.2.2.2.1⟩

theorem wp_settlementLines (hS : Setting live alone good rely)
    (hgood : ∀ st, good st → AllPayable st ∧ Convertible st row.id) (hc : good c)
    (hrow : c.payments.find row.id = some row)
    (hnone : ∀ e c', rely.rel c c' → Declined c' row.id .settled e → ∀ c'', rely.rel c' c'' → Q (.error e) c'' [])
    (h : ∀ c', rely.rel c c' → ∀ built new, Postable c' built →
      (∀ w ∈ new, ∃ rate n, w = .setFxDetails row.id rate n) → Q (.ok built) c' new) :
    (settlementLines row.toDomain).wp live rely Q c [] := by
  have hpay := (hgood c hc).1.payments row.id row hrow
  have hcurrencies := (hgood c hc).1.currencies
  obtain ⟨cc, hcc⟩ := Option.isSome_iff_exists.mp hpay.creditor
  apply Prog.wp_bind
  apply wp_getAccount hS hpay.debtor
  intro c₁ hc₁ debtor hdebtor hdcur
  have hcc₁ : c₁.currencyOf row.creditorAccountId = some cc := by
    rw [(hS.later hc₁).currencyOf]
    exact hcc
  apply Prog.wp_bind
  apply wp_getAccount hS hcc₁
  intro c₂ hc₂ creditor hcreditor hccur
  have hlater₂ := rely.trans hc₁ hc₂
  have hpay₂ := hpay.later (hS.later hlater₂)
  have hcur := hcurrencies _ _ hpay.debtor
  have hcur' := hcurrencies _ _ hcc
  dsimp only
  rw [hdcur, hccur]
  by_cases hsame : row.currency = cc
  · rw [if_pos hsame]
    intro c₃ hc₃
    have hlater₃ := rely.trans hlater₂ hc₃
    refine h c₃ hlater₃ _ [] ?_ (by simp)
    have hpay₃ := hpay₂.later (hS.later hc₃)
    exact postable_transfer (by decide) hpay.amount hcur (currencyOf_hasAccount hpay₃.debtor)
      (currencyOf_hasAccount ((hS.later hlater₃).currencyOf _ ▸ hcc))
  · rw [if_neg hsame]
    -- the payment and its accounts, when the rate is read
    have there {c₃ : Store} (hc₃ : rely.rel c c₃) : ∃ row₃, c₃.payments.find row.id = some row₃ ∧
      row₃.amount = row.amount ∧
        c₃.currencyOf row₃.debtorAccountId = some row.currency ∧
        c₃.currencyOf row₃.creditorAccountId = some cc := by
      obtain ⟨row₃, hrow₃, hfixed⟩ := (hS.later hc₃).payments row.id row hrow
      obtain ⟨hd, hcr, ha⟩ := fixed_fields hfixed
      refine ⟨row₃, hrow₃, ha, ?_, ?_⟩
      · rw [hd, (hS.later hc₃).currencyOf]
        exact hpay.debtor
      · rw [hcr, (hS.later hc₃).currencyOf]
        exact hcc
    apply Prog.wp_bind
    apply wp_getLatestRate
    · intro c₃ hc₃ hempty c₄ hc₄
      have hlater₃ := rely.trans hlater₂ hc₃
      obtain ⟨row₃, hrow₃, -, hd₃, hcr₃⟩ := there hlater₃
      exact hnone _ c₃ hlater₃ (.unrated hrow₃ rfl hd₃ hcr₃ hsame hempty) c₄ hc₄
    · intro c₃ hc₃ r hr c₄ hc₄
      have hlater₃ := rely.trans hlater₂ hc₃
      have hlater₄ := rely.trans hlater₃ hc₄
      obtain ⟨row₃, hrow₃, hamount, hd₃, hcr₃⟩ := there hlater₃
      obtain ⟨hbounds, hsuspense⟩ := (hgood c₃ (hS.good hlater₃ hc)).2 row₃ hrow₃ _ _ hd₃ hcr₃ hsame r hr
      rw [hamount] at hbounds
      obtain ⟨d, hd, hda⟩ := hbounds.amount hpay.amount
      obtain ⟨s, hs⟩ := Option.isSome_iff_exists.mp hsuspense
      apply Prog.wp_bind
      apply Prog.wp_ofExcept
      intro c₅ hc₅
      have hconvert : convertAmount row.toDomain.amount r.toDomain.rate = .ok d := hd
      rw [hconvert]
      have hlater₅ := rely.trans hlater₄ hc₅
      apply Prog.wp_bind
      have hs₅ : c₅.suspense = some s := by
        rw [(hS.later (rely.trans hc₄ hc₅)).suspense]
        exact hs
      apply wp_getSuspense hS hs₅
      intro c₆ hc₆ account haccount
      have hlater₆ := rely.trans hlater₅ hc₆
      obtain ⟨n, hn, -⟩ := hda.stored
      apply Prog.wp_bind
      have hp₆ : c₆.hasPayment row.id = true := by
        obtain ⟨row₆, hrow₆, -⟩ := there hlater₆
        rw [Store.hasPayment, hrow₆]
        rfl
      have hrate : c₆.hasRate r.id = true := by
        apply (hS.later (rely.trans hc₄ (rely.trans hc₅ hc₆))).rates
        have hmem := hr.1
        rw [Store.rates, List.mem_filter] at hmem
        rw [Store.hasRate, Table.find_of_mem hmem.1]
        rfl
      apply wp_setFxDetails hS hn hp₆ hrate
      intro c₇ hc₇ c₈ hc₈
      have hlater₈ := rely.trans hlater₆ (rely.trans hc₇ hc₈)
      have hs₈ : c₈.suspense = some account.id := by
        rw [haccount, (hS.later (rely.trans hc₆ (rely.trans hc₇ hc₈))).suspense]
        exact hs₅
      have hpay₈ := hpay.later (hS.later hlater₈)
      refine h c₈ hlater₈ _ _ ?_ (by simp)
      exact postable_conversion (by decide) hpay.amount hcur hda hcur' (currencyOf_hasAccount hpay₈.debtor)
        (suspense_hasAccount hs₈) (suspense_hasAccount hs₈)
        (currencyOf_hasAccount ((hS.later hlater₈).currencyOf _ ▸ hcc))

theorem wp_reversalLines (hS : Setting live alone good rely) (hc : AllPayable c)
    (hrow : c.payments.find row.id = some row)
    (h : ∀ c', rely.rel c c' → ∀ built, Postable c' built → Q (.ok built) c' []) :
    (reversalLines row.toDomain).wp live rely Q c [] := by
  have hpay := hc.payments row.id row hrow
  obtain ⟨cc, hcc⟩ := Option.isSome_iff_exists.mp hpay.creditor
  have hcur := hc.currencies _ _ hpay.debtor
  have hcur' := hc.currencies _ _ hcc
  cases hn : row.creditorAmount with
  | none =>
    have hamount : row.toDomain.creditorAmount = none := by simp [PaymentRow.toDomain, hn]
    rw [reversalLines, hamount]
    intro c₁ hc₁
    have hpay₁ := hpay.later (hS.later hc₁)
    exact h c₁ hc₁ _ (postable_transfer (by decide) hpay.amount hcur
      (currencyOf_hasAccount ((hS.later hc₁).currencyOf _ ▸ hcc)) (currencyOf_hasAccount hpay₁.debtor))
  | some n =>
    have hamount : row.toDomain.creditorAmount = some n.toDecimal := by simp [PaymentRow.toDomain, hn]
    obtain ⟨hda, hsuspense⟩ := hpay.converted n hn
    obtain ⟨s, hs⟩ := Option.isSome_iff_exists.mp hsuspense
    rw [reversalLines, hamount]
    apply Prog.wp_bind
    apply wp_getAccount hS hpay.debtor
    intro c₁ hc₁ debtor _ hdcur
    have hcc₁ : c₁.currencyOf row.creditorAccountId = some cc := by
      rw [(hS.later hc₁).currencyOf]
      exact hcc
    apply Prog.wp_bind
    apply wp_getAccount hS hcc₁
    intro c₂ hc₂ creditor _ hccur
    have hlater₂ := rely.trans hc₁ hc₂
    have hs₂ : c₂.suspense = some s := by
      rw [(hS.later hlater₂).suspense]
      exact hs
    apply Prog.wp_bind
    apply wp_getSuspense hS hs₂
    intro c₃ hc₃ account haccount c₄ hc₄
    have hlater₄ := rely.trans hlater₂ (rely.trans hc₃ hc₄)
    have hpay₄ := hpay.later (hS.later hlater₄)
    have hs₄ : c₄.suspense = some account.id := by
      rw [haccount, (hS.later hlater₄).suspense]
      exact hs
    apply h c₄ hlater₄
    rw [hdcur, hccur]
    exact postable_conversion (by decide) hpay.amount hcur hda hcur' (suspense_hasAccount hs₄)
      (currencyOf_hasAccount hpay₄.debtor) (currencyOf_hasAccount ((hS.later hlater₄).currencyOf _ ▸ hcc))
      (suspense_hasAccount hs₄)

end Wp

section Attempts

variable {live alone : Prop} {good : Store → Prop} {rely : Rely postgres} {c : Store} {id : Uuid}
  {toStatus : PaymentStatus} {ws : List Write}

/-- How one attempt at a transition ends. -/
def AttemptEnds (alone : Prop) (rely : Rely postgres) (c : Store) (id : Uuid) (toStatus : PaymentStatus)
    (r : Except AppError (Option Payment)) (c' : Store) (_ : List Write) : Prop :=
  match r with
  | .ok (some _) => True
  | .ok none => ¬alone ∧ rely.rel c c'
  | .error e => ∃ c₁, rely.rel c c₁ ∧ Declined c₁ id toStatus e

theorem eventType_stored (s : PaymentStatus) :
    varchar 50 ("payment." ++ s.value) = .ok ("payment." ++ s.value) := by
  cases s <;> decide

/-- The end of an attempt whose update has found the row: its history, its event, and the commit. -/
theorem wp_finish (hS : Setting live alone good rely) {reason : Option PyStr} {fromStatus : Option PaymentStatus}
    {payment : Payment} (hp : c.hasPayment id = true) (hreason : ∃ r, nullable pyText reason = .ok r)
    (hroom : live → c.Room) (hws : ∀ w ∈ ws, w.deliveryRow = none)
    {Q : Except AppError (Option Payment) → Store → List Write → Prop} (hQ : ∀ p c' ws, Q (.ok (some p)) c' ws) :
    Prog.wp live rely Q (do
      recordStatusTransition id fromStatus toStatus reason
      enqueuePaymentWebhookEvent id ("payment." ++ toStatus.value) (paymentResponseDict payment)
      Prog.commitTx
      return some payment) c ws := by
  have there (ws : List Write) {c' : Store} (hc : rely.rel c c') : (c'.after ws).hasPayment id = true :=
    (Later.after c' ws).hasPayment ((hS.later hc).hasPayment hp)
  apply Prog.wp_bind
  apply wp_recordStatusTransition (fun c' hc => there ws hc) hreason
  intro c₁ hc₁ row
  apply Prog.wp_bind
  apply wp_enqueuePaymentWebhookEvent hS (eventType_stored toStatus)
  · intro hl
    obtain rfl := hS.still (hS.alone hl) hc₁
    have hframe : (c₁.after (ws ++ [.insertHistory row])).webhookDeliveries = c₁.webhookDeliveries := by
      apply deliveries_frame
      intro w hw
      rcases List.mem_append.mp hw with hw | hw
      · exact hws w hw
      · obtain rfl := List.mem_singleton.mp hw
        rfl
    rw [hframe]
    exact (hroom hl).deliveries
  · exact fun c₂ hc₂ => there _ (rely.trans hc₁ hc₂)
  · intro c₂ hc₂ new _ c₃ hc₃ c₄ hc₄
    exact hQ payment c₄ []

theorem wp_transitionStatusOnlyAttempt (hS : Setting live alone good rely) {reason : Option PyStr}
    (hreason : ∃ r, nullable pyText reason = .ok r) (hroom : live → c.Room) :
    (transitionStatusOnlyAttempt id toStatus reason).wp live rely (AttemptEnds alone rely c id toStatus) c [] := by
  apply Prog.wp_bind
  apply wp_getPayment
  · exact fun c₁ hc₁ hnone c₂ _ => ⟨c₁, hc₁, .missing hnone⟩
  · intro c₁ hc₁ row hrow c₂ hc₂
    have hlater₂ := rely.trans hc₁ hc₂
    have hp₂ : c₂.hasPayment id = true := by
      apply (hS.later hc₂).hasPayment
      rw [Store.hasPayment, hrow]
      rfl
    apply Prog.wp_bind
    apply Prog.wp_ofExcept
    intro c₃ hc₃
    by_cases hallowed : toStatus ∈ allowedTransitions row.status
    · have hassert : assertTransitionAllowed row.toDomain.status toStatus = .ok () := if_pos hallowed
      rw [hassert]
      have hlater₃ := rely.trans hlater₂ hc₃
      apply Prog.wp_bind
      apply wp_updatePaymentStatus hS
      · intro halone
        obtain rfl := hS.still halone hc₂
        obtain rfl := hS.still halone hc₃
        exact ⟨row, hrow, rfl⟩
      · intro c₄ hc₄ b hb
        have hlater₄ := rely.trans hlater₃ hc₄
        cases b with
        | true =>
          apply wp_finish hS ((hS.later (rely.trans hc₃ hc₄)).hasPayment hp₂) hreason
          · intro hl
            obtain rfl := hS.still (hS.alone hl) hlater₄
            exact hroom hl
          · simp [Write.deliveryRow]
          · exact fun _ _ _ => trivial
        | false =>
          intro c₅ hc₅
          refine ⟨?_, rely.trans hlater₄ hc₅⟩
          intro halone
          exact Bool.false_ne_true (hb halone)
    · have hassert : assertTransitionAllowed row.toDomain.status toStatus = .error ⟨row.status, toStatus⟩ :=
        if_neg hallowed
      rw [hassert]
      exact ⟨c₁, hc₁, .forbidden hrow hallowed⟩

/-- Lines that are built without a failure, from a payment that may move, make an entry that can be posted. -/
def Builds (live : Prop) (rely : Rely postgres) (c : Store) (id : Uuid) (toStatus : PaymentStatus)
    (buildLines : Payment → App BuildLinesResult) : Prop :=
  ∀ c', rely.rel c c' → ∀ row, c'.payments.find id = some row → toStatus ∈ allowedTransitions row.status →
    ∀ Q : Except AppError BuildLinesResult → Store → List Write → Prop,
      (∀ e c₁, rely.rel c' c₁ → Declined c₁ id toStatus e → ∀ c₂, rely.rel c₁ c₂ → Q (.error e) c₂ []) →
      (∀ c₁, rely.rel c' c₁ → ∀ built new, Postable c₁ built →
        (∀ w ∈ new, ∃ rate n, w = .setFxDetails id rate n) → Q (.ok built) c₁ new) →
      (buildLines row.toDomain).wp live rely Q c' []

/-- What a movement writes before its status: none of it a change of status or a delivery. -/
theorem quiet_moves {fx posts bumps : List Write} (hfx : ∀ w ∈ fx, ∃ rate n, w = .setFxDetails id rate n)
    (hposts : ∀ w ∈ posts, w.posts = true) (hbumps : ∀ w ∈ bumps, ∃ a, w = .bumpAccount a) :
    ∀ w ∈ fx ++ posts ++ bumps, w.deliveryRow = none ∧ ∀ i status, w ≠ .setStatus i status := by
  intro w hw
  rcases List.mem_append.mp hw with hw | hw
  · rcases List.mem_append.mp hw with hw | hw
    · obtain ⟨rate, n, rfl⟩ := hfx w hw
      exact ⟨rfl, fun _ _ h => by cases h⟩
    · have hp := hposts w hw
      cases w with
      | insertEntry row => exact ⟨rfl, fun _ _ h => by cases h⟩
      | insertLine row => exact ⟨rfl, fun _ _ h => by cases h⟩
      | _ => cases hp
  · obtain ⟨a, rfl⟩ := hbumps w hw
    exact ⟨rfl, fun _ _ h => by cases h⟩

theorem quiet_posts {fx posts : List Write} (hfx : ∀ w ∈ fx, ∃ rate n, w = .setFxDetails id rate n)
    (hposts : ∀ w ∈ posts, w.posts = true) : ∀ w ∈ fx ++ posts, w.bumped = none := by
  intro w hw
  rcases List.mem_append.mp hw with hw | hw
  · obtain ⟨rate, n, rfl⟩ := hfx w hw
    rfl
  · have hp := hposts w hw
    cases w with
    | insertEntry row => rfl
    | insertLine row => rfl
    | _ => cases hp

theorem wp_transitionWithLedgerEntryAttempt (hS : Setting live alone good rely) {rt : Runtime}
    {buildLines : Payment → App BuildLinesResult} (hbuild : Builds live rely c id toStatus buildLines)
    (hroom : live → c.Room) :
    (transitionWithLedgerEntryAttempt rt id toStatus buildLines).wp live rely
      (AttemptEnds alone rely c id toStatus) c [] := by
  apply Prog.wp_bind
  apply wp_getPayment
  · exact fun c₁ hc₁ hnone c₂ _ => ⟨c₁, hc₁, .missing hnone⟩
  intro c₁ hc₁ row hrow c₂ hc₂
  have hlater₂ := rely.trans hc₁ hc₂
  have hid : row.id = id := Table.find_key hrow
  apply Prog.wp_bind
  apply Prog.wp_ofExcept
  intro c₃ hc₃
  by_cases hallowed : toStatus ∈ allowedTransitions row.status
  swap
  · have hassert : assertTransitionAllowed row.toDomain.status toStatus = .error ⟨row.status, toStatus⟩ :=
      if_neg hallowed
    rw [hassert]
    exact ⟨c₁, hc₁, .forbidden hrow hallowed⟩
  have hassert : assertTransitionAllowed row.toDomain.status toStatus = .ok () := if_pos hallowed
  rw [hassert]
  have hlater₃ := rely.trans hlater₂ hc₃
  have hp₃ : c₃.hasPayment id = true := by
    apply (hS.later (rely.trans hc₂ hc₃)).hasPayment
    rw [Store.hasPayment, hrow]
    rfl
  apply Prog.wp_bind
  apply Prog.wp_rely (rely.trans hc₂ hc₃)
  apply hbuild c₁ hc₁ row hrow hallowed
  · exact fun e c₄ hc₄ href c₅ _ => ⟨c₄, rely.trans hc₁ hc₄, href⟩
  intro c₄ hc₄ built fx hpost hfx
  obtain ⟨entryType, lines, overrides⟩ := built
  have hlater₄ := rely.trans hc₁ hc₄
  apply Prog.wp_bind
  apply Prog.wp_ofExcept
  intro c₅ hc₅
  have hvalid : validateJournalEntry lines = .ok () := hpost.valid
  rw [hvalid]
  have hlater₅ := rely.trans hlater₄ hc₅
  have hpost₅ := hpost.later (hS.later hc₅)
  apply Prog.wp_bind
  apply wp_getAccountVersions hS
  · intro a ha
    obtain ⟨line, hline, rfl⟩ := List.mem_map.mp ((rt.order.mem_iter _ a).mp ha)
    exact hpost₅.accounts line hline
  intro c₆ hc₆ versions hversions hread
  have hlater₆ := rely.trans hlater₅ hc₆
  apply Prog.wp_bind
  apply wp_insertJournalEntry hS
  · intro hl
    obtain rfl := hS.still (hS.alone hl) hlater₆
    rw [entries_frame fun w hw => (hfx w hw).elim fun _ hw => hw.elim fun _ hw => hw ▸ rfl]
    exact (hroom hl).entries
  · exact hpost.type
  · rfl
  · intro p hp
    obtain rfl : row.id = p := Option.some.inj hp
    rw [hid]
    apply (hS.later (rely.trans hc₄ (rely.trans hc₅ hc₆))).hasPayment
    rw [Store.hasPayment, hrow]
    rfl
  · exact hpost.rows
  · exact (hpost₅.later (hS.later hc₆)).accounts
  intro c₇ hc₇ entryId posts hposts
  have hlater₇ := rely.trans hlater₆ hc₇
  apply Prog.wp_bind
  apply wp_bumpAccounts hS (rt.order.nodup _) hversions
  · intro halone a ha
    obtain rfl := hS.still halone hc₇
    rw [accounts_frame (quiet_posts hfx hposts)]
    rw [accounts_frame fun w hw => (hfx w hw).elim fun _ hw => hw.elim fun _ hw => hw ▸ rfl] at hread
    exact hread halone a ha
  intro c₈ hc₈ b bumps hb hbumps
  have hlater₈ := rely.trans hlater₇ hc₈
  cases b with
  | false => exact fun c₉ hc₉ => ⟨fun halone => Bool.false_ne_true (hb halone), rely.trans hlater₈ hc₉⟩
  | true =>
    apply Prog.wp_bind
    apply wp_updatePaymentStatus hS
    · intro halone
      have hrow₈ : c₈.payments.find id = some row := by
        obtain rfl := hS.still halone (rely.trans hc₄ (rely.trans hc₅ (rely.trans hc₆ (rely.trans hc₇ hc₈))))
        exact hrow
      exact version_frame hrow₈ fun w hw status => (quiet_moves hfx hposts hbumps w hw).2 id status
    · intro c₉ hc₉ b' hb'
      have hlater₉ := rely.trans hlater₈ hc₉
      cases b' with
      | false =>
        intro c₁₀ hc₁₀
        exact ⟨fun halone => Bool.false_ne_true (hb' halone), rely.trans hlater₉ hc₁₀⟩
      | true =>
        apply wp_finish hS
        · apply (hS.later
            (rely.trans hc₄ (rely.trans hc₅ (rely.trans hc₆ (rely.trans hc₇ (rely.trans hc₈ hc₉)))))).hasPayment
          rw [Store.hasPayment, hrow]
          rfl
        · exact ⟨none, rfl⟩
        · intro hl
          obtain rfl := hS.still (hS.alone hl) hlater₉
          exact hroom hl
        · intro w hw
          rcases List.mem_append.mp hw with hw | hw
          · exact (quiet_moves hfx hposts hbumps w hw).1
          · obtain rfl := List.mem_singleton.mp hw
            rfl
        · exact fun _ _ _ => trivial

end Attempts

/-- The payment that a call moves, and where to. -/
def Call.transition : Call → Option (Uuid × PaymentStatus)
  | .authorisePayment id _ => some (id, .authorised)
  | .failPayment id _ _ => some (id, .failed)
  | .settlePayment id _ => some (id, .settled)
  | .reversePayment id _ => some (id, .reversed)
  | _ => none

/-- What a transition takes for granted: a reason that the text column holds, and rates that convert. -/
def Call.Met (st : Store) : Call → Prop
  | .failPayment _ reason _ => ∀ s ∈ reason, ¬s.Unstorable
  | .settlePayment id _ => Convertible st id
  | _ => True

/-- How a transition ends: it succeeds, it is declined on a store of its run, or it gives up after losing
every attempt to another. -/
def TransitionEnds (alone : Prop) (rely : Rely postgres) (c : Store) (id : Uuid) (toStatus : PaymentStatus) (n : ℕ)
    (r : Except AppError Value) (_ : Store) (_ : List Write) : Prop :=
  ∀ e, r = .error e → (∃ c₁, rely.rel c c₁ ∧ Declined c₁ id toStatus e) ∨
    (e = .concurrentPaymentModification id n ∧ (alone → n = 0))

section Calls

variable {live alone : Prop} {good : Store → Prop} {rely : Rely postgres} {c : Store} {id : Uuid}
  {toStatus : PaymentStatus} {rt : Runtime}

theorem wp_attempts {attempt : App (Option Payment)} {n : ℕ}
    (hattempt : ∀ c', rely.rel c c' → attempt.wp live rely (AttemptEnds alone rely c' id toStatus) c' []) :
    ((retry attempt (.concurrentPaymentModification id n) n).bind fun p => .ret (Value.payment p)).wp live rely
      (TransitionEnds alone rely c id toStatus n) c [] := by
  apply Prog.wp_bind
  refine @wp_retry live alone rely c _ _ _ n _ ?_ ?_
  · intro c' hc
    apply Prog.wp_mono _ (hattempt c' hc)
    intro r c'' ws hr
    cases r with
    | ok o =>
      cases o with
      | some p => exact fun c₃ _ c₄ _ e he => by cases he
      | none => exact hr
    | error e =>
      obtain ⟨c₁, hc₁, hd⟩ := hr
      intro e' he
      cases he
      exact .inl ⟨c₁, rely.trans hc hc₁, hd⟩
  · intro hn c' _ e he
    cases he
    exact .inr ⟨rfl, hn⟩

theorem wp_transition (hS : Setting live alone good rely) {call : Call} (ht : call.transition = some (id, toStatus))
    (hgood : ∀ st, good st → AllPayable st ∧ call.Met st) (hc : good c) (hroom : live → c.Room) :
    (call.prog rt).wp live rely (TransitionEnds alone rely c id toStatus call.maxAttempts) c [] := by
  have room {c' : Store} (hc' : rely.rel c c') (hl : live) : c'.Room := by
    obtain rfl := hS.still (hS.alone hl) hc'
    exact hroom hl
  cases call with
  | authorisePayment id' n =>
    cases ht
    apply wp_attempts
    intro c' hc'
    exact wp_transitionStatusOnlyAttempt hS ⟨none, rfl⟩ (room hc')
  | failPayment id' reason n =>
    cases ht
    apply wp_attempts
    intro c' hc'
    refine wp_transitionStatusOnlyAttempt hS ?_ (room hc')
    have hmet := (hgood c hc).2
    cases reason with
    | none => exact ⟨none, rfl⟩
    | some s =>
      obtain ⟨t, ht⟩ := pyText_ok (hmet s rfl)
      exact ⟨some t, by rw [nullable, ht]; rfl⟩
  | settlePayment id' n =>
    cases ht
    apply wp_attempts
    intro c' hc'
    apply wp_transitionWithLedgerEntryAttempt hS _ (room hc')
    intro c₁ hc₁ row hrow _ Q hnone h
    obtain rfl := Table.find_key hrow
    exact wp_settlementLines hS hgood (hS.good (rely.trans hc' hc₁) hc) hrow hnone h
  | reversePayment id' n =>
    cases ht
    apply wp_attempts
    intro c' hc'
    apply wp_transitionWithLedgerEntryAttempt hS _ (room hc')
    intro c₁ hc₁ row hrow _ Q _ h
    obtain rfl := Table.find_key hrow
    exact wp_reversalLines hS (hgood c₁ (hS.good (rely.trans hc' hc₁) hc)).1 hrow
      fun c₂ hc₂ built hpost => h c₂ hc₂ built [] hpost (by simp)
  | _ => cases ht

end Calls

end PaymentLedger
