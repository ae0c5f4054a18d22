import PaymentLedger.Ledger.Tables

namespace PaymentLedger

def JournalLineRow.signedCents (l : JournalLineRow) : ℤ :=
  match l.direction with
  | .credit => l.amount.cents
  | .debit => -l.amount.cents

/-- The signed sum of the lines on one account and currency, in cents. -/
def netOn (lines : List JournalLineRow) (account : Uuid) (currency : String) : ℤ :=
  ((lines.filter fun l => l.accountId = account ∧ l.currency = currency).map JournalLineRow.signedCents).sum

namespace Store

variable (st : Store) (paymentId : Uuid)

/-- The entries tagged with a payment. -/
def entriesOf : List JournalEntryRow :=
  st.journalEntries.rows.filter fun e => e.paymentId = some paymentId

/-- The lines of the entries tagged with a payment. -/
def linesOf : List JournalLineRow :=
  st.journalLines.filter fun l => (st.entriesOf paymentId).any fun e => e.id = l.journalEntryId

end Store

/-- An amount on one account and currency, and nothing elsewhere. -/
def amountOn (account : Option Uuid) (currency : Option String) (z : ℤ) (a : Uuid) (ccy : String) : ℤ :=
  if account = some a ∧ currency = some ccy then z else 0

/-- The transfer that a settled payment has booked, on the given account and currency. -/
def Store.transferOf (st : Store) (row : PaymentRow) (a : Uuid) (ccy : String) : ℤ :=
  let debtorCurrency := st.currencyOf row.debtorAccountId
  let creditorCurrency := st.currencyOf row.creditorAccountId
  match row.creditorAmount with
  | none =>
    amountOn (some row.debtorAccountId) debtorCurrency (-row.amount.cents) a ccy +
      amountOn (some row.creditorAccountId) debtorCurrency row.amount.cents a ccy
  | some n =>
    amountOn (some row.debtorAccountId) debtorCurrency (-row.amount.cents) a ccy +
      amountOn st.suspense debtorCurrency row.amount.cents a ccy +
      amountOn st.suspense creditorCurrency (-n.units) a ccy +
      amountOn (some row.creditorAccountId) creditorCurrency n.units a ccy

/-- How many entries a payment has in each status. -/
def PaymentStatus.entryCount : PaymentStatus → ℕ
  | .initiated => 0
  | .authorised => 0
  | .failed => 0
  | .settled => 1
  | .reversed => 2

theorem amountOn_neg (account : Option Uuid) (currency : Option String) (z : ℤ) (a : Uuid) (ccy : String) :
    amountOn account currency (-z) a ccy = -amountOn account currency z a ccy := by
  unfold amountOn
  split <;> simp

theorem netOn_append (l l' : List JournalLineRow) (a : Uuid) (ccy : String) :
    netOn (l ++ l') a ccy = netOn l a ccy + netOn l' a ccy := by
  simp [netOn, List.filter_append]

theorem netOn_cons (l : JournalLineRow) (ls : List JournalLineRow) (a : Uuid) (ccy : String) :
    netOn (l :: ls) a ccy = amountOn (some l.accountId) (some l.currency) l.signedCents a ccy + netOn ls a ccy := by
  by_cases h : l.accountId = a ∧ l.currency = ccy
  · simp [netOn, amountOn, h]
  · have h' : ¬(some l.accountId = some a ∧ some l.currency = some ccy) := by simpa using h
    rw [amountOn, if_neg h', netOn, List.filter_cons_of_neg (by simpa using h), zero_add]
    rfl

/-- A line whose amount comes from a column. -/
structure ColumnLine where
  account : Uuid
  direction : Direction
  amount : Numeric 2
  currency : String

namespace ColumnLine

def line (c : ColumnLine) : JournalLine := ⟨c.account, c.direction, c.amount.toDecimal, c.currency⟩

def on (c : ColumnLine) (a : Uuid) (ccy : String) : ℤ :=
  amountOn (some c.account) (some c.currency)
    (match c.direction with | .credit => c.amount.units | .debit => -c.amount.units) a ccy

end ColumnLine

/-- Lines of column amounts in column currencies are stored with these amounts and currencies. -/
theorem netOn_stored {id : Uuid} {L : List ColumnLine} {rows : List JournalLineRow}
    (h : List.Forall₂ (fun line row => JournalLineRow.new id line = .ok row) (L.map ColumnLine.line) rows)
    (hc : ∀ c ∈ L, varchar 3 c.currency = .ok c.currency) (a : Uuid) (ccy : String) :
    netOn rows a ccy = (L.map fun c => c.on a ccy).sum := by
  induction L generalizing rows with
  | nil =>
    obtain rfl := List.forall₂_nil_left_iff.mp h
    rfl
  | cons c L ih =>
    obtain ⟨row, rest, hrow, hrest, rfl⟩ := List.forall₂_cons_left_iff.mp h
    have hcells := ih hrest fun c' hc' => hc c' (List.mem_cons_of_mem c hc')
    rw [netOn_cons, hcells, List.map_cons, List.sum_cons]
    congr 1
    obtain ⟨amount, hamount, cur, hcur, rfl⟩ := JournalLineRow.new_ok.mp hrow
    have hvalue : amount.value = c.amount := by
      rw [Amount.ofDecimal_ok, ColumnLine.line, Numeric.ofDecimal_toDecimal] at hamount
      exact (Except.ok.inj hamount).symm
    have hcurrency : cur = c.currency := by
      rw [ColumnLine.line, hc c List.mem_cons_self] at hcur
      exact (Except.ok.inj hcur).symm
    simp only [ColumnLine.on, ColumnLine.line, JournalLineRow.signedCents, Amount.cents, hvalue, hcurrency]

theorem Booking.tagged {st : Store} {row : PaymentRow} {toStatus : PaymentStatus}
    {fx : Option (Uuid × Numeric 2)} {e : JournalEntry} (h : Booking st row toStatus fx (some e)) :
    e.paymentId = some row.id := by
  cases h <;> rfl

/-- What an entry books: the transfer of the payment it settles, or its opposite. -/
theorem Booking.net {rt : Runtime} {st : Store} {row : PaymentRow} {toStatus : PaymentStatus}
    {fx : Option (Uuid × Numeric 2)} {e : JournalEntry} {p : Posting}
    (h : Booking st row toStatus fx (some e)) (hp : p.Stores rt st e)
    (hfit : ∀ id cur, st.currencyOf id = some cur → varchar 3 cur = .ok cur)
    (hcur : st.currencyOf row.debtorAccountId = some row.currency)
    (hnone : toStatus = .settled → row.creditorAmount = none) (a : Uuid) (ccy : String) :
    netOn p.lines a ccy = if toStatus = .settled then st.transferOf (row.moved toStatus fx) a ccy
      else -st.transferOf row a ccy := by
  have hrow := hfit _ _ hcur
  cases h with
  | transfer hd hc =>
    have hnet := netOn_stored (L := [⟨row.debtorAccountId, .debit, row.amount.value, row.currency⟩,
      ⟨row.creditorAccountId, .credit, row.amount.value, row.currency⟩]) hp.lines (by simp [hrow]) a ccy
    rw [hnet]
    simp [ColumnLine.on, Store.transferOf, PaymentRow.moved, hnone, hcur, Amount.cents]
  | @conversion dc cc suspense rateId n hd hc hne hs =>
    have hnet := netOn_stored (L := [⟨row.debtorAccountId, .debit, row.amount.value, dc⟩,
      ⟨suspense, .credit, row.amount.value, dc⟩, ⟨suspense, .debit, n, cc⟩,
      ⟨row.creditorAccountId, .credit, n, cc⟩]) hp.lines (by simp [hfit _ _ hd, hfit _ _ hc]) a ccy
    rw [hnet]
    simp [ColumnLine.on, Store.transferOf, PaymentRow.moved, hd, hc, hs, Amount.cents, add_assoc]
  | reversal hn =>
    have hnet := netOn_stored (L := [⟨row.creditorAccountId, .debit, row.amount.value, row.currency⟩,
      ⟨row.debtorAccountId, .credit, row.amount.value, row.currency⟩]) hp.lines (by simp [hrow]) a ccy
    rw [hnet]
    simp [ColumnLine.on, Store.transferOf, hn, hcur, Amount.cents, amountOn_neg]
  | @conversionReversal dc cc suspense n hn hd hc hs =>
    have hnet := netOn_stored (L := [⟨suspense, .debit, row.amount.value, dc⟩,
      ⟨row.debtorAccountId, .credit, row.amount.value, dc⟩, ⟨row.creditorAccountId, .debit, n, cc⟩,
      ⟨suspense, .credit, n, cc⟩]) hp.lines (by simp [hfit _ _ hd, hfit _ _ hc]) a ccy
    rw [hnet]
    simp only [ColumnLine.on, Store.transferOf, hn, hd, hc, hs, Amount.cents, amountOn_neg, List.map_cons,
      List.map_nil, List.sum_cons, List.sum_nil, reduceCtorEq, if_false]
    ring

section Effects

variable {rt : Runtime} {st : Store} {now : ℕ} {d : Deed}

theorem entriesOf_effect (h : d.Legal rt st now) (id : Uuid) : (st.after (d.writes now)).entriesOf id =
    st.entriesOf id ++ (d.postings.filter fun p => p.entry.paymentId = some id).map Posting.entry := by
  rw [Store.entriesOf, Deed.entries_effect h, List.filter_append, List.filter_map]
  rfl

/-- New entries have ids of their own, so they take no old line, and their lines go to no old entry. -/
theorem linesOf_effect (h : d.Legal rt st now) (hl : ∀ l ∈ st.journalLines, st.hasEntry l.journalEntryId = true)
    (id : Uuid) : (st.after (d.writes now)).linesOf id =
      st.linesOf id ++ (d.postings.filter fun p => p.entry.paymentId = some id).flatMap Posting.lines := by
  rw [Store.linesOf, Deed.lines_effect h, entriesOf_effect h, List.filter_append]
  rcases Deed.postings_stored h with hp | ⟨entry, p, hp, -, hs⟩
  · simp [hp, Store.linesOf]
  · have hold : ∀ l ∈ st.journalLines, p.entry.id ≠ l.journalEntryId := by
      intro l hmem heq
      have hno := hs.fresh
      rw [heq, hl l hmem] at hno
      cases hno
    have hnew : ∀ l ∈ p.lines, l.journalEntryId = p.entry.id := by
      intro l hmem
      obtain ⟨line, -, hrow⟩ := forall₂_mem_right hs.lines hmem
      obtain ⟨_, -, _, -, rfl⟩ := JournalLineRow.new_ok.mp hrow
      rfl
    have hfresh : ∀ e ∈ st.entriesOf id, e.id ≠ p.entry.id := by
      intro e he heq
      have hno := hs.fresh
      rw [← heq, Store.hasEntry, Table.find_of_mem (List.mem_of_mem_filter he)] at hno
      cases hno
    congr 1
    · apply List.filter_congr
      intro l hmem
      rw [hp, List.any_append]
      by_cases hpid : p.entry.paymentId = some id
      · simp [hpid, hold l hmem]
      · simp [hpid]
    · by_cases hpid : p.entry.paymentId = some id
      · simp only [hp, hpid, decide_true, List.filter_cons_of_pos, List.filter_nil, List.map_cons, List.map_nil,
          List.flatMap_cons, List.flatMap_nil, List.append_nil]
        rw [List.filter_eq_self]
        intro l hmem
        simp [hnew l hmem]
      · simp only [hp, hpid, decide_false, Bool.false_eq_true, not_false_eq_true, List.filter_cons_of_neg,
          List.filter_nil, List.map_nil, List.append_nil, List.flatMap_cons, List.flatMap_nil]
        rw [List.filter_eq_nil_iff]
        intro l hmem hany
        obtain ⟨e, he, heq⟩ := List.any_eq_true.mp hany
        rw [hnew l hmem] at heq
        exact hfresh e he (by simpa using heq)

end Effects

/-- The entries of a payment are those of its status, and they net to what it has booked. -/
structure BookedPayment (st : Store) (row : PaymentRow) : Prop where
  currency : st.currencyOf row.debtorAccountId = some row.currency
  unconverted : row.status = .initiated ∨ row.status = .authorised → row.creditorAmount = none
  converted : row.creditorAmount.isSome = true → st.suspense.isSome = true
  count : (st.entriesOf row.id).length = row.status.entryCount
  net : ∀ a ccy, netOn (st.linesOf row.id) a ccy = if row.status = .settled then st.transferOf row a ccy else 0

/-- The invariant of a ledger that only payments post to. -/
structure Booked (st : Store) : Prop where
  currencies : ∀ id cur, st.currencyOf id = some cur → varchar 3 cur = .ok cur
  lines : ∀ l ∈ st.journalLines, st.hasEntry l.journalEntryId = true
  entries : ∀ e ∈ st.journalEntries.rows, ∀ id, e.paymentId = some id → st.hasPayment id = true
  payments : ∀ id row, st.payments.find id = some row → BookedPayment st row

theorem Fresh.booked {st : Store} (h : Fresh st) : Booked st where
  currencies := by
    intro id cur hcur
    obtain ⟨a, ha, rfl⟩ := Option.map_eq_some_iff.mp hcur
    exact h.currencies a (Table.mem_of_find ha)
  lines := by simp [h.lines]
  entries := by simp [h.entries]
  payments := by
    intro id row hrow
    have hmem := Table.mem_of_find hrow
    rw [h.payments] at hmem
    simp at hmem

theorem transferOf_after (st : Store) (ws : List Write) (row : PaymentRow) (a : Uuid) (ccy : String) :
    (st.after ws).transferOf row a ccy = st.transferOf row a ccy := by
  simp only [Store.transferOf, Store.currencyOf_after, Store.suspense_after]

section Step

variable {rt : Runtime} {st : Store} {now : ℕ} {d : Deed}

/-- A payment that the deed does not touch stays booked. -/
theorem BookedPayment.frame {row : PaymentRow} (hb : BookedPayment st row) (h : d.Legal rt st now)
    (hl : ∀ l ∈ st.journalLines, st.hasEntry l.journalEntryId = true)
    (hp : ∀ p ∈ d.postings, p.entry.paymentId ≠ some row.id) :
    BookedPayment (st.after (d.writes now)) row := by
  have hnone : (d.postings.filter fun p => p.entry.paymentId = some row.id) = [] := by
    rw [List.filter_eq_nil_iff]
    intro p hmem
    simpa using hp p hmem
  refine ⟨?_, hb.unconverted, ?_, ?_, ?_⟩
  · rw [Store.currencyOf_after]
    exact hb.currency
  · rw [Store.suspense_after]
    exact hb.converted
  · rw [entriesOf_effect h, hnone]
    simpa using hb.count
  · intro a ccy
    rw [linesOf_effect h hl, hnone, transferOf_after]
    simpa using hb.net a ccy

/-- The payment that a transition moves is booked again. -/
theorem BookedPayment.transition {row : PaymentRow} {toStatus : PaymentStatus} {reason : Option String}
    {fx : Option (Uuid × Numeric 2)} {posting : Option (JournalEntry × Posting)}
    {subs : List WebhookSubscription} {ds : List WebhookDeliveryRow} (hb : BookedPayment st row)
    (hfit : ∀ id cur, st.currencyOf id = some cur → varchar 3 cur = .ok cur)
    (h : Transition rt st now row toStatus fx posting subs ds)
    (hl : ∀ l ∈ st.journalLines, st.hasEntry l.journalEntryId = true) :
    BookedPayment (st.after ((Deed.transition row toStatus reason fx posting subs ds).writes now))
      (row.moved toStatus fx) := by
  have hlegal : (Deed.transition row toStatus reason fx posting subs ds).Legal rt st now := h
  have hentries := entriesOf_effect hlegal row.id
  have hlines := linesOf_effect hlegal hl row.id
  cases posting with
  | none =>
    -- no money moves: the payment was not settled before, and is not settled now
    simp only [Deed.postings, Option.toList_none, List.map_nil, List.filter_nil, List.flatMap_nil,
      List.append_nil] at hentries hlines
    have hquiet : toStatus ≠ .settled ∧ row.status ≠ .settled ∧ fx = none ∧
        toStatus.entryCount = row.status.entryCount ∧
        (toStatus = .authorised → row.status = .initiated) := by
      have hallowed := h.allowed
      cases h.booking <;> cases hs :
        row.status <;> simp [allowedTransitions, hs, PaymentStatus.entryCount] at hallowed ⊢
    obtain ⟨hto, hfrom, rfl, hcount, hinit⟩ := hquiet
    refine ⟨?_, ?_, ?_, ?_, ?_⟩
    · rw [Store.currencyOf_after]
      exact hb.currency
    · intro hs
      apply hb.unconverted
      rw [moved_status] at hs
      rcases hs with rfl | rfl
      · have hallowed := h.allowed
        cases hs : row.status <;> simp [allowedTransitions, hs] at hallowed
      · exact .inl (hinit rfl)
    · rw [Store.suspense_after]
      exact hb.converted
    · rw [moved_id, hentries, moved_status, hcount]
      exact hb.count
    · intro a ccy
      rw [moved_id, hlines, moved_status, if_neg hto, hb.net a ccy, if_neg hfrom]
  | some x =>
    obtain ⟨e, p⟩ := x
    obtain ⟨-, hposting⟩ := h.posted (e, p) rfl
    have hbooking : Booking st row toStatus fx (some e) := h.booking
    have htag : p.entry.paymentId = some row.id := hposting.paymentId.trans hbooking.tagged
    simp only [Deed.postings, Option.toList_some, List.map_cons, List.map_nil, htag, decide_true,
      List.filter_cons_of_pos, List.filter_nil, List.flatMap_cons, List.flatMap_nil,
      List.append_nil] at hentries hlines
    have hedge : (toStatus = .settled ∧ row.status = .authorised) ∨
        (toStatus = .reversed ∧ row.status = .settled ∧ fx = none) := by
      have hallowed := h.allowed
      cases hbooking <;> cases hs : row.status <;> simp [allowedTransitions, hs] at hallowed ⊢
    have hnet := fun a ccy => hbooking.net hposting hfit hb.currency
      (fun hs => hb.unconverted (by rcases hedge with ⟨-, hr⟩ | ⟨hr, -⟩ <;> simp_all)) a ccy
    refine ⟨?_, ?_, ?_, ?_, ?_⟩
    · rw [Store.currencyOf_after, moved_debtor, moved_currency]
      exact hb.currency
    · intro hs
      rw [moved_status] at hs
      rcases hedge with ⟨rfl, -⟩ | ⟨rfl, -⟩ <;> simp at hs
    · rw [Store.suspense_after]
      intro hs
      cases hbooking with
      | transfer => exact hb.converted hs
      | conversion _ _ _ _ _ hsus =>
        rw [hsus]
        rfl
      | reversal => exact hb.converted hs
      | conversionReversal => exact hb.converted hs
    · rw [moved_id, hentries, moved_status, List.length_append, hb.count]
      rcases hedge with ⟨rfl, hr⟩ | ⟨rfl, hr, -⟩ <;> simp [hr, PaymentStatus.entryCount]
    · intro a ccy
      rw [moved_id, hlines, netOn_append, hb.net a ccy, hnet a ccy, moved_status, transferOf_after]
      rcases hedge with ⟨rfl, hr⟩ | ⟨rfl, hr, -⟩ <;> simp [hr]

/-- A new payment has no entry yet. -/
theorem Booked.initiation {row : PaymentRow} {subs : List WebhookSubscription} {ds : List WebhookDeliveryRow}
    {completion : Option (String × PyDict)} (hb : Booked st)
    (h : (Deed.initiate row subs ds completion).Legal rt st now) :
    BookedPayment (st.after ((Deed.initiate row subs ds completion).writes now)) row := by
  obtain ⟨⟨req, hi⟩, -⟩ := id h
  have hnone : st.entriesOf row.id = [] := by
    rw [Store.entriesOf, List.filter_eq_nil_iff]
    intro e he hid
    have hthere := hb.entries e he row.id (by simpa using hid)
    rw [Store.hasPayment, hi.fresh] at hthere
    cases hthere
  have hentries := entriesOf_effect h row.id
  have hlines := linesOf_effect h hb.lines row.id
  simp only [Deed.postings, List.filter_nil, List.map_nil, List.flatMap_nil, List.append_nil] at hentries hlines
  obtain ⟨a, -, cur, hcur, ref, -, hrow⟩ := PaymentRow.new_ok.mp hi.stored
  have hcurrency : req.currency = row.currency := by
    rw [hb.currencies _ _ hi.currency] at hcur
    rw [hrow]
    exact Except.ok.inj hcur
  have hdebtor : row.debtorAccountId = req.debtorAccountId := by rw [hrow]
  have hstatus : row.status = .initiated := by rw [hrow]
  have hamount : row.creditorAmount = none := by rw [hrow]
  refine ⟨?_, fun _ => hamount, ?_, ?_, ?_⟩
  · rw [Store.currencyOf_after, hdebtor, hi.currency, hcurrency]
  · intro hs
    rw [hamount] at hs
    cases hs
  · rw [hentries, hnone, hstatus]
    rfl
  · intro a ccy
    have hno : st.linesOf row.id = [] := by simp [Store.linesOf, hnone]
    rw [hlines, hno, hstatus]
    rfl

/-- Every deed keeps the bookings, if what is posted directly is not tagged with a payment. -/
theorem Booked.step (hb : Booked st) (h : d.Legal rt st now) (hpost : ∀ e p, d = .post e p → e.paymentId = none) :
    Booked (st.after (d.writes now)) := by
  have hpayment := Deed.payment_effect h
  have hkept : ∀ id, st.hasPayment id = true → (st.after (d.writes now)).hasPayment id = true :=
    fun id hid => (hasPayment_after _).mpr (.inl hid)
  refine ⟨?_, ?_, ?_, ?_⟩
  · intro id cur hcur
    rw [Store.currencyOf_after] at hcur
    exact hb.currencies id cur hcur
  · intro l hl
    rw [Store.hasEntry, Option.isSome_iff_exists]
    rw [Deed.lines_effect h] at hl
    rcases List.mem_append.mp hl with hl | hl
    · obtain ⟨e, he⟩ := Option.isSome_iff_exists.mp (hb.lines l hl)
      refine ⟨e, ?_⟩
      apply st.after_induction (P := fun st => st.journalEntries.find l.journalEntryId = some e) he
      intro w _ st hw
      exact entry_kept hw
    · obtain ⟨p, hp, hmem⟩ := List.mem_flatMap.mp hl
      refine ⟨p.entry, ?_⟩
      rcases Deed.postings_stored h with hnone | ⟨entry, q, hq, -, hs⟩
      · simp [hnone] at hp
      · obtain rfl : p = q := by simpa [hq] using hp
        obtain ⟨line, -, hrow⟩ := forall₂_mem_right hs.lines hmem
        obtain ⟨_, -, _, -, rfl⟩ := JournalLineRow.new_ok.mp hrow
        apply Table.find_of_mem
        rw [Deed.entries_effect h, hq]
        simp
  · intro e he id hid
    rw [Deed.entries_effect h] at he
    rcases List.mem_append.mp he with he | he
    · exact hkept id (hb.entries e he id hid)
    · cases d with
      | transition row toStatus reason fx posting subs ds =>
        cases posting with
        | none => simp [Deed.postings] at he
        | some x =>
          have hbooking : Booking st row toStatus fx (some x.1) := h.booking
          obtain ⟨-, hposting⟩ := h.posted x rfl
          have he' : e = x.2.entry := by simpa [Deed.postings] using he
          rw [he', hposting.paymentId, hbooking.tagged] at hid
          obtain rfl := Option.some.inj hid
          apply hkept
          rw [Store.hasPayment, h.found]
          rfl
      | post entry p =>
        have he' : e = p.entry := by simpa [Deed.postings] using he
        have hnone := hpost entry p rfl
        rw [he', h.2.paymentId, hnone] at hid
        cases hid
      | _ => simp [Deed.postings] at he
  · intro id row hrow
    rw [hpayment] at hrow
    cases d with
    | initiate new subs ds completion =>
      by_cases hid : new.id = id
      · rw [Deed.payment, if_pos hid] at hrow
        obtain rfl := Option.some.inj hrow
        exact Booked.initiation hb h
      · rw [Deed.payment, if_neg hid] at hrow
        exact (hb.payments id row hrow).frame h hb.lines (by simp [Deed.postings])
    | transition moved toStatus reason fx posting subs ds =>
      by_cases hid : moved.id = id
      · rw [Deed.payment, if_pos hid] at hrow
        obtain rfl := Option.some.inj hrow
        exact (hb.payments _ moved h.found).transition hb.currencies h hb.lines
      · rw [Deed.payment, if_neg hid] at hrow
        apply (hb.payments id row hrow).frame h hb.lines
        intro p hp
        obtain ⟨x, hx, rfl⟩ := List.mem_map.mp hp
        obtain ⟨-, hposting⟩ := h.posted x (by simpa using hx)
        have hx' : posting = some x := by simpa using hx
        subst hx'
        have hbooking : Booking st moved toStatus fx (some x.1) := h.booking
        rw [hposting.paymentId, hbooking.tagged]
        have hrid : row.id = id := Table.find_key hrow
        simp [hrid, hid]
    | post entry p =>
      apply (hb.payments id row hrow).frame h hb.lines
      intro q hq
      obtain rfl : q = p := by simpa [Deed.postings] using hq
      rw [h.2.paymentId, hpost entry q rfl]
      simp
    | claim key => exact (hb.payments id row hrow).frame h hb.lines (by simp [Deed.postings])
    | reconcile ws => exact (hb.payments id row hrow).frame h hb.lines (by simp [Deed.postings])

end Step

section Run

variable {ι : Type} [DecidableEq ι] {rt : Runtime} {step : Feed → Feed → Prop} {st₀ : Store}
  {calls : ι → Call} {σ : Config postgres ι Value}

/-- The calls that create a payment without a key, or move one. -/
def Call.movesPayments : Call → Bool
  | .initiatePayment _ => true
  | .authorisePayment _ _ => true
  | .settlePayment _ _ => true
  | .reversePayment _ _ => true
  | .failPayment _ _ _ => true
  | _ => false

/-- Only `post_journal_entry` posts an entry of its caller's. -/
theorem Deed.Of.post_call {st : Store} {now : ℕ} {call : Call} {v : Option Value} {e : JournalEntry} {p : Posting}
    (h : (Deed.post e p).Of rt st now call v) : ∃ n, call = .postJournalEntry e n := by
  cases call with
  | initiatePayment req =>
    obtain ⟨_, _, _, heq, -⟩ := h
    cases heq
  | initiatePaymentIdempotent key body req =>
    rcases h with ⟨_, heq, -⟩ | ⟨_, _, _, _, heq, -⟩ <;> cases heq
  | authorisePayment id n =>
    obtain ⟨_, _, _, _, heq, -⟩ := h
    cases heq
  | failPayment id reason n =>
    obtain ⟨_, _, _, _, heq, -⟩ := h
    cases heq
  | settlePayment id n =>
    obtain ⟨_, _, _, _, _, _, _, heq, -⟩ := h
    cases heq
  | reversePayment id n =>
    obtain ⟨_, _, _, _, _, _, _, heq, -⟩ := h
    cases heq
  | postJournalEntry entry n =>
    obtain ⟨posting, heq, -⟩ := h
    cases heq
    exact ⟨n, rfl⟩
  | runReconciliation batchId records windowStart windowEnd =>
    obtain ⟨_, _, _, heq, -⟩ := h
    cases heq

theorem Booked.feed {st : Store} (h : Booked st) (f : Feed) : Booked { st with feed := f } where
  currencies := h.currencies
  lines := h.lines
  entries := h.entries
  payments := by
    intro id row hrow
    obtain ⟨h₁, h₂, h₃, h₄, h₅⟩ := h.payments id row hrow
    exact ⟨h₁, h₂, h₃, h₄, h₅⟩

theorem WellFormed.booked (h : WellFormed (feedEnv step) st₀ (fun i => (calls i).prog rt) σ) (h₀ : Fresh st₀)
    (hc : ∀ i entry n, calls i = .postJournalEntry entry n → entry.paymentId = none) : Booked σ.world.store := by
  apply h.invariant fun _ st => Booked st
  · exact h₀.booked
  · intro l st f hb
    exact hb.feed f
  · intro l c v d hd hb
    apply hb.step hd.deed.legal
    rintro e p rfl
    obtain ⟨n, hcall⟩ := hd.deed.post_call
    exact hc c.caller e n hcall

/-- Payments move their money exactly once, and a reversal undoes it exactly, in every interleaving
and under any change of the rates. -/
theorem payments_booked (h₀ : Fresh st₀) (hc : ∀ i, (calls i).movesPayments = true)
    (h : Reachable rt step st₀ calls σ) {id : Uuid} {row : PaymentRow}
    (hrow : σ.world.store.payments.find id = some row) :
    (σ.world.store.entriesOf id).length = row.status.entryCount ∧
      (∀ a ccy, netOn (σ.world.store.linesOf id) a ccy =
        if row.status = .settled then σ.world.store.transferOf row a ccy else 0) ∧
      (row.creditorAmount.isSome = true → σ.world.store.suspense.isSome = true) := by
  obtain ⟨clock, hr⟩ := h
  have hwf := reaches_wellFormed hr
  have hbooked : Booked σ.world.store := by
    apply hwf.booked h₀
    intro i entry n hcall
    have hmoves := hc i
    rw [hcall] at hmoves
    cases hmoves
  obtain rfl : row.id = id := Table.find_key hrow
  have hb := hbooked.payments row.id row hrow
  exact ⟨hb.count, hb.net, hb.converted⟩

theorem payments_booked_settled : ∃ row, sampleEnd.world.store.payments.find 10 = some row ∧
    row.status = .settled ∧ (sampleEnd.world.store.entriesOf 10).length = 1 ∧
    netOn (sampleEnd.world.store.linesOf 10) 1 "EUR" = -1000 := by
  obtain ⟨row, hrow⟩ := Option.isSome_iff_exists.mp
    (by decide +kernel : (sampleEnd.world.store.payments.find 10).isSome = true)
  have hsettled : (sampleEnd.world.store.payments.find 10).map PaymentRow.status = some .settled := by
    decide +kernel
  rw [hrow] at hsettled
  have hstatus : row.status = .settled := Option.some.inj hsettled
  have hcalls : ∀ i, (sampleCalls i).movesPayments = true := by decide
  obtain ⟨hcount, hnet, -⟩ := payments_booked sampleStore_fresh hcalls
    (sampleEnd_reachable fun _ _ => False) hrow
  have htransfer : (sampleEnd.world.store.payments.find 10).map
      (fun row => sampleEnd.world.store.transferOf row 1 "EUR") = some (-1000) := by
    decide +kernel
  rw [hrow] at htransfer
  refine ⟨row, hrow, hstatus, ?_, ?_⟩
  · rw [hcount, hstatus]
    rfl
  · rw [hnet, if_pos hstatus]
    exact Option.some.inj htransfer

end Run
end PaymentLedger
