import PaymentLedger.Domain.Netting
import PaymentLedger.Ledger.Bookings
import PaymentLedger.Ledger.Postings

namespace PaymentLedger

section Fibers

variable {α κ M : Type} [DecidableEq κ] [AddCommMonoid M]

/-- A sum over the elements with these keys, key by key. -/
theorem sum_fibers (l : List α) (k : α → κ) (f : α → M) (s : Finset κ) :
    ∑ c ∈ s, ((l.filter fun x => k x = c).map f).sum = ((l.filter fun x => k x ∈ s).map f).sum := by
  induction l with
  | nil => simp
  | cons x l ih =>
    have hcons (c : κ) : (((x :: l).filter fun x => k x = c).map f).sum =
        (if k x = c then f x else 0) + ((l.filter fun x => k x = c).map f).sum := by
      by_cases hc : k x = c <;> simp [hc]
    simp only [hcons, Finset.sum_add_distrib, ih, Finset.sum_ite_eq]
    by_cases hx : k x ∈ s <;> simp [hx]

end Fibers

/-- The amounts of the entry are whole cents, and together less than a sum in the default context
can tell exactly. -/
def JournalEntry.WholeCents (entry : JournalEntry) : Prop :=
  (∀ line ∈ entry.lines, ∃ z : ℤ, line.amount.toRat = z / 100) ∧
    (entry.lines.map fun line => |line.amount.toRat|).sum < 10 ^ 26

section Exact

open Decimal (Fits)

theorem fits_cents {z : ℤ} (h : |(z : ℚ) / 100| < 10 ^ 26) : Fits defaultContext ((z : ℚ) / 100) := by
  refine ⟨z, -2, ?_, by decide, by decide, ?_⟩
  · rw [abs_div, div_lt_iff₀ (by norm_num)] at h
    have hz : (z.natAbs : ℚ) < 10 ^ 28 := by
      rw [Nat.cast_natAbs, Int.cast_abs]
      refine h.trans_eq ?_
      norm_num
    exact_mod_cast hz
  · rw [zpow_neg]
    norm_num
    ring

theorem abs_signedRat (line : JournalLine) : |line.signedRat| = |line.amount.toRat| := by
  unfold JournalLine.signedRat
  cases line.direction with
  | credit => rfl
  | debit => rw [abs_neg]

theorem signedRat_cents {line : JournalLine} (h : ∃ z : ℤ, line.amount.toRat = z / 100) :
    ∃ z : ℤ, line.signedRat = z / 100 := by
  obtain ⟨z, hz⟩ := h
  unfold JournalLine.signedRat
  cases line.direction with
  | credit => exact ⟨z, hz⟩
  | debit => exact ⟨-z, by rw [hz]; push_cast; ring⟩

theorem netRat_cents {lines : List JournalLine} (h : ∀ line ∈ lines, ∃ z : ℤ, line.amount.toRat = z / 100)
    (ccy : String) : ∃ z : ℤ, netRat lines ccy = z / 100 := by
  induction lines with
  | nil => exact ⟨0, by simp [netRat]⟩
  | cons line lines ih =>
    obtain ⟨z, hz⟩ := ih fun l hl => h l (List.mem_cons_of_mem _ hl)
    obtain ⟨y, hy⟩ := signedRat_cents (h line List.mem_cons_self)
    have hcons : netRat (line :: lines) ccy = netRat [line] ccy + netRat lines ccy := netRat_append [line] lines ccy
    rw [hcons, netRat_singleton, hz, hy]
    by_cases hc : line.currency = ccy
    · exact ⟨y + z, by rw [if_pos hc]; push_cast; ring⟩
    · exact ⟨z, by rw [if_neg hc, zero_add]⟩

theorem abs_netRat_le (lines : List JournalLine) (ccy : String) :
    |netRat lines ccy| ≤ (lines.map fun line => |line.amount.toRat|).sum := by
  induction lines with
  | nil => simp [netRat]
  | cons line lines ih =>
    have hcons : netRat (line :: lines) ccy = netRat [line] ccy + netRat lines ccy := netRat_append [line] lines ccy
    have hline : |netRat [line] ccy| ≤ |line.amount.toRat| := by
      rw [netRat_singleton, ← abs_signedRat]
      by_cases hc : line.currency = ccy
      · rw [if_pos hc]
      · rw [if_neg hc, abs_zero]
        exact abs_nonneg _
    rw [hcons, List.map_cons, List.sum_cons]
    exact (abs_add_le _ _).trans (add_le_add hline ih)

/-- Whole cents that are together below this bound are never rounded. -/
theorem unrounded_cents {lines : List JournalLine} (hcents : ∀ line ∈ lines, ∃ z : ℤ, line.amount.toRat = z / 100)
    (hsum : (lines.map fun line => |line.amount.toRat|).sum < 10 ^ 26) : Unrounded lines := by
  have hnonneg : ∀ x ∈ lines.map fun line => |line.amount.toRat|, 0 ≤ x := by
    intro x hx
    obtain ⟨line, -, rfl⟩ := List.mem_map.mp hx
    exact abs_nonneg _
  constructor
  · intro line hline _
    obtain ⟨z, hz⟩ := hcents line hline
    have hle : |line.amount.toRat| ≤ (lines.map fun line => |line.amount.toRat|).sum :=
      List.single_le_sum hnonneg _ (List.mem_map_of_mem hline)
    rw [hz] at hle ⊢
    exact fits_cents (hle.trans_lt hsum)
  · intro pre hpre ccy
    obtain ⟨z, hz⟩ := netRat_cents (fun line hline => hcents line (hpre.subset hline)) ccy
    have hsub : (pre.map fun line => |line.amount.toRat|).sum ≤ (lines.map fun line => |line.amount.toRat|).sum :=
      (hpre.sublist.map _).sum_le_sum hnonneg
    have hle := (abs_netRat_le pre ccy).trans hsub
    rw [hz] at hle ⊢
    exact fits_cents (hle.trans_lt hsum)

/-- An entry of whole cents that validation accepts nets to zero exactly. -/
theorem JournalEntry.WholeCents.net_zero {entry : JournalEntry} (h : entry.WholeCents)
    (hf : ∀ line ∈ entry.lines, line.amount.IsFinite) (hv : validateJournalEntry entry.lines = .ok ())
    (ccy : String) : netRat entry.lines ccy = 0 :=
  validateJournalEntry_exact hf (unrounded_cents h.1 h.2) hv ccy

end Exact

/-- The signed sum of the lines in one currency, in cents. -/
def netIn (lines : List JournalLineRow) (ccy : String) : ℤ :=
  ((lines.filter fun l => l.currency = ccy).map JournalLineRow.signedCents).sum

theorem netIn_append (l l' : List JournalLineRow) (ccy : String) :
    netIn (l ++ l') ccy = netIn l ccy + netIn l' ccy := by
  simp [netIn, List.filter_append]

section Stored

theorem rescaleHalfUp_exact {c m : ℕ} {e x : ℤ} (h : (c : ℚ) * 10 ^ e = m * 10 ^ x) :
    Decimal.rescaleHalfUp c e x = m := by
  unfold Decimal.rescaleHalfUp
  by_cases hx : x ≤ e
  · rw [if_pos hx]
    exact (Decimal.scaled_eq_iff c m e x hx).mp h
  · rw [if_neg hx]
    have hc := (Decimal.scaled_eq_iff m c x e (by omega)).mp h.symm
    rw [← hc]
    exact roundHalfUp_mul m _ (by positivity)

/-- Whole cents are stored as they are. -/
theorem Numeric.units_of_cents {d : Decimal} {n : Numeric 2} {z : ℤ} (h : Numeric.ofDecimal 2 d = .ok n)
    (hf : d.IsFinite) (hz : d.toRat = z / 100) : n ≠ .nan ∧ n.units = z := by
  cases d with
  | finite s c e =>
    have hp : (0 : ℚ) < 10 ^ e := by positivity
    have habs : (c : ℚ) * 10 ^ e = z.natAbs * 10 ^ (-2 : ℤ) := by
      rw [← Decimal.abs_toRat s c e, hz, Nat.cast_natAbs, Int.cast_abs, abs_div, zpow_neg]
      norm_num
      ring
    have hr := rescaleHalfUp_exact habs
    simp only [Numeric.ofDecimal, show (-((2 : ℕ) : ℤ)) = -2 from rfl, hr] at h
    split at h
    · cases h
      refine ⟨by simp, ?_⟩
      simp only [Numeric.units]
      cases s with
      | true =>
        have hsign : (z : ℚ) ≤ 0 := by
          have hneg : (Decimal.finite true c e).toRat ≤ 0 := by simp [Decimal.toRat]; positivity
          rw [hz] at hneg
          linarith
        have hz0 : z ≤ 0 := by exact_mod_cast hsign
        simp only [if_true]
        omega
      | false =>
        have hsign : (0 : ℚ) ≤ z := by
          have hpos : 0 ≤ (Decimal.finite false c e).toRat := by simp [Decimal.toRat]; positivity
          rw [hz] at hpos
          linarith
        have hz0 : 0 ≤ z := by exact_mod_cast hsign
        simp only [Bool.false_eq_true, if_false]
        omega
    · cases h
  | infinity s => exact hf.elim
  | nan s => exact hf.elim

/-- A line of whole cents is stored with its amount. -/
theorem JournalLineRow.new_cents {id : Uuid} {line : JournalLine} {row : JournalLineRow}
    (h : JournalLineRow.new id line = .ok row) (hf : line.amount.IsFinite)
    (hz : ∃ z : ℤ, line.amount.toRat = z / 100) : row.amount.value ≠ .nan ∧
    (row.signedCents : ℚ) = 100 * line.signedRat ∧
      varchar 3 line.currency = .ok row.currency := by
  obtain ⟨amount, hamount, cur, hcur, rfl⟩ := JournalLineRow.new_ok.mp h
  obtain ⟨z, hz⟩ := hz
  obtain ⟨hnan, hunits⟩ := Numeric.units_of_cents (Amount.ofDecimal_ok.mp hamount) hf hz
  refine ⟨hnan, ?_, hcur⟩
  unfold JournalLineRow.signedCents JournalLine.signedRat
  cases line.direction with
  | credit =>
    simp only [Amount.cents, hunits, hz]
    ring
  | debit =>
    simp only [Amount.cents, hunits, hz]
    push_cast
    ring

theorem netIn_stored {id : Uuid} {lines : List JournalLine} {rows : List JournalLineRow}
    (h : List.Forall₂ (fun line row => JournalLineRow.new id line = .ok row) lines rows)
    (hf : ∀ line ∈ lines, line.amount.IsFinite) (hz : ∀ line ∈ lines, ∃ z : ℤ, line.amount.toRat = z / 100)
    (ccy : String) : (netIn rows ccy : ℚ) =
      100 * ((lines.filter fun line => varchar 3 line.currency = .ok ccy).map JournalLine.signedRat).sum := by
  induction h with
  | nil => simp [netIn]
  | @cons line row lines rows hrow _ ih =>
    obtain ⟨-, hcents, hcur⟩ :=
      JournalLineRow.new_cents hrow (hf line List.mem_cons_self) (hz line List.mem_cons_self)
    have hrest := ih (fun l hl => hf l (List.mem_cons_of_mem _ hl)) fun l hl => hz l (List.mem_cons_of_mem _ hl)
    have hcons : netIn (row :: rows) ccy = netIn [row] ccy + netIn rows ccy := netIn_append [row] rows ccy
    rw [hcons, Int.cast_add, hrest]
    by_cases hc : row.currency = ccy
    · have hv : varchar 3 line.currency = .ok ccy := by rw [hcur, hc]
      simp [netIn, hc, hv, hcents, mul_add]
    · have hv : varchar 3 line.currency ≠ .ok ccy := by
        rw [hcur]
        simpa using hc
      simp [netIn, hc, hv]

/-- What is stored of a balanced entry of whole cents is balanced, in every currency as stored. -/
theorem Posting.Stores.balanced {rt : Runtime} {st : Store} {entry : JournalEntry} {p : Posting}
    (hs : p.Stores rt st entry) (hv : validateJournalEntry entry.lines = .ok ()) (hw : entry.WholeCents) :
    (∀ l ∈ p.lines, l.amount.value ≠ .nan) ∧ ∀ ccy, netIn p.lines ccy = 0 := by
  have hfinite : ∀ line ∈ entry.lines, line.amount.IsFinite := by
    intro line hline
    obtain ⟨row, -, hrow⟩ := forall₂_exists_right hs.lines hline
    obtain ⟨amount, hamount, -⟩ := JournalLineRow.new_ok.mp hrow
    have hstored := Amount.ofDecimal_ok.mp hamount
    have hpos := (validateJournalEntry_ok.mp hv).2.1 line hline
    cases ha : line.amount with
    | finite s c e => trivial
    | infinity s => simp [ha, Numeric.ofDecimal] at hstored
    | nan s => simp [ha, Decimal.nonPositive] at hpos
  constructor
  · intro l hl
    obtain ⟨line, hline, hrow⟩ := forall₂_mem_right hs.lines hl
    exact (JournalLineRow.new_cents hrow (hfinite line hline) (hw.1 line hline)).1
  · intro ccy
    set s := (entry.lines.map JournalLine.currency).toFinset.filter fun c => varchar 3 c = .ok ccy
    have hfilter : (entry.lines.filter fun line => varchar 3 line.currency = .ok ccy) =
        entry.lines.filter fun line => line.currency ∈ s := by
      apply List.filter_congr
      intro line hline
      simp only [s, Finset.mem_filter, List.mem_toFinset, List.mem_map, decide_eq_decide]
      constructor
      · intro h
        exact ⟨⟨line, hline, rfl⟩, h⟩
      · intro h
        exact h.2
    have hnet := netIn_stored hs.lines hfinite hw.1 ccy
    rw [hfilter, ← sum_fibers entry.lines JournalLine.currency JournalLine.signedRat s] at hnet
    have hzero : ∑ c ∈ s, ((entry.lines.filter fun line => line.currency = c).map JournalLine.signedRat).sum = 0 :=
      Finset.sum_eq_zero fun c _ => hw.net_zero hfinite hv c
    rw [hzero, mul_zero] at hnet
    exact_mod_cast hnet

/-- The entries that transitions book have amounts from columns. -/
theorem Booking.wholeCents {st : Store} {row : PaymentRow} {toStatus : PaymentStatus}
    {fx : Option (Uuid × Numeric 2)} {entry : JournalEntry} (h : Booking st row toStatus fx (some entry)) :
    entry.WholeCents := by
  have column (n : Numeric 2) : (∃ z : ℤ, n.toDecimal.toRat = z / 100) ∧ |n.toDecimal.toRat| ≤ 10 ^ 16 := by
    cases n with
    | nan => exact ⟨⟨0, by simp [Numeric.toDecimal, Decimal.toRat]⟩, by simp [Numeric.toDecimal, Decimal.toRat]⟩
    | num z lt =>
      have hval : (Numeric.num z lt : Numeric 2).toDecimal.toRat = z / 100 := by
        rw [Numeric.toDecimal_toRat, zpow_neg]
        norm_num
        ring
      refine ⟨⟨z, hval⟩, ?_⟩
      have hz : (z.natAbs : ℚ) ≤ 10 ^ 18 := by exact_mod_cast lt.le
      rw [Nat.cast_natAbs, Int.cast_abs] at hz
      rw [hval, abs_div, div_le_iff₀ (by norm_num)]
      refine hz.trans_eq ?_
      norm_num
  have two (a : Uuid × Direction × String) (b : Uuid × Direction × String) (n : Numeric 2) (e : JournalEntry)
      (he : e.lines = [⟨a.1, a.2.1, n.toDecimal, a.2.2⟩, ⟨b.1, b.2.1, n.toDecimal, b.2.2⟩]) : e.WholeCents := by
    obtain ⟨hz, hle⟩ := column n
    refine ⟨by simp [he, hz], ?_⟩
    simp only [he, List.map_cons, List.map_nil, List.sum_cons, List.sum_nil]
    linarith
  have four (a b c d : Uuid × Direction × String) (n m : Numeric 2) (e : JournalEntry)
      (he : e.lines = [⟨a.1, a.2.1, n.toDecimal, a.2.2⟩, ⟨b.1, b.2.1, n.toDecimal, b.2.2⟩,
        ⟨c.1, c.2.1, m.toDecimal, c.2.2⟩, ⟨d.1, d.2.1, m.toDecimal, d.2.2⟩]) : e.WholeCents := by
    obtain ⟨hz, hle⟩ := column n
    obtain ⟨hz', hle'⟩ := column m
    refine ⟨by simp [he, hz, hz'], ?_⟩
    simp only [he, List.map_cons, List.map_nil, List.sum_cons, List.sum_nil]
    linarith
  cases h with
  | transfer hd hc => exact two (_, _, _) (_, _, _) row.amount.value _ rfl
  | conversion rateId n hd hc hne hs => exact four (_, _, _) (_, _, _) (_, _, _) (_, _, _) row.amount.value n _ rfl
  | reversal hn => exact two (_, _, _) (_, _, _) row.amount.value _ rfl
  | @conversionReversal dc cc suspense n hn hd hc hs =>
    exact four (_, _, _) (_, _, _) (_, _, _) (_, _, _) row.amount.value n _ rfl

end Stored

namespace Store

/-- `get_balance` in cents; there is no number when a line holds NaN. -/
def getBalance (st : Store) (accountId : Uuid) (currency : String) : Option ℤ :=
  if st.journalLines.any fun l => l.accountId = accountId ∧ l.currency = currency ∧ l.amount.value = .nan then none
  else some (netOn st.journalLines accountId currency)

end Store

/-- The zero sum of a stored ledger. -/
structure Balanced (st : Store) : Prop where
  entries : ∀ l ∈ st.journalLines, st.hasEntry l.journalEntryId = true
  accounts : ∀ l ∈ st.journalLines, st.hasAccount l.accountId = true
  numbers : ∀ l ∈ st.journalLines, l.amount.value ≠ .nan
  each : ∀ id ccy, netIn (st.linesAt id) ccy = 0
  total : ∀ ccy, netIn st.journalLines ccy = 0

/-- The balances of all accounts add up to the net of all lines. -/
theorem Balanced.balances {st : Store} (h : Balanced st) (ccy : String) : ∃ balance : Uuid → ℤ,
    (∀ a ∈ st.accounts.rows, st.getBalance a.id ccy = some (balance a.id)) ∧
      (st.accounts.rows.map fun a => balance a.id).sum = 0 := by
  refine ⟨fun id => netOn st.journalLines id ccy, ?_, ?_⟩
  · intro a _
    have hnone :
        ¬(st.journalLines.any fun l => l.accountId = a.id ∧ l.currency = ccy ∧ l.amount.value = .nan) = true := by
      simp only [List.any_eq_true, decide_eq_true_eq, not_exists, not_and]
      intro l hl _ _
      exact h.numbers l hl
    rw [Store.getBalance, if_neg hnone]
  · set lines := st.journalLines.filter fun l => l.currency = ccy
    have hon (id : Uuid) : netOn st.journalLines id ccy =
        ((lines.filter fun l => l.accountId = id).map JournalLineRow.signedCents).sum := by
      rw [netOn, List.filter_filter]
      simp [Bool.decide_and]
    have hall : (lines.filter fun l => l.accountId ∈ (st.accounts.rows.map Account.id).toFinset) = lines := by
      rw [List.filter_eq_self]
      intro l hl
      obtain ⟨a, ha⟩ := Option.isSome_iff_exists.mp (h.accounts l (List.mem_of_mem_filter hl))
      have hmem : l.accountId ∈ st.accounts.rows.map Account.id :=
        List.mem_map.mpr ⟨a, Table.mem_of_find ha, Table.find_key ha⟩
      simpa using hmem
    have hsum := sum_fibers lines JournalLineRow.accountId JournalLineRow.signedCents
      (st.accounts.rows.map Account.id).toFinset
    rw [hall, List.sum_toFinset _ st.accounts.nodup, List.map_map] at hsum
    simp only [hon]
    exact hsum.trans (h.total ccy)

section Runs

variable {ι : Type} {rt : Runtime} {step : Feed → Feed → Prop} {st₀ : Store} {calls : ι → Call}
  {σ : Config postgres ι Value}

/-- What a deed posts, when the entry of a direct posting is in whole cents. -/
theorem Deed.Of.balanced {st : Store} {now : ℕ} {call : Call} {v : Option Value} {d : Deed}
    (h : d.Of rt st now call v) (hw : ∀ entry n, call = .postJournalEntry entry n → entry.WholeCents) :
    d.postings = [] ∨ ∃ entry p, d.postings = [p] ∧ p.Stores rt st entry ∧ (∀ l ∈ p.lines, l.amount.value ≠ .nan) ∧
      ∀ ccy, netIn p.lines ccy = 0 := by
  cases hc : call.postsEntry with
  | false => exact .inl (h.postings_nil hc)
  | true =>
    obtain ⟨entry, p, hbooks, hv, hp, hs⟩ := h.books hc
    have hwhole : entry.WholeCents := by
      cases call with
      | postJournalEntry posted n =>
        obtain rfl : entry = posted := hbooks
        exact hw entry n rfl
      | settlePayment id n =>
        obtain ⟨row, fx, -, hb⟩ := hbooks
        exact hb.wholeCents
      | reversePayment id n =>
        obtain ⟨row, fx, -, hb⟩ := hbooks
        exact hb.wholeCents
      | _ => cases hc
    exact .inr ⟨entry, p, hp, hs, hs.balanced hv hwhole⟩

theorem Balanced.commit {c : Commit postgres ι} {v : Option Value} {d : Deed}
    (h : Balanced c.before) (hd : c.Does rt calls v d)
    (hw : ∀ i entry n, calls i = .postJournalEntry entry n → entry.WholeCents) :
    Balanced (c.before.after (d.writes c.began)) := by
  have hlegal := hd.deed.legal
  have hlines := Deed.lines_effect hlegal
  have hentries := Deed.entries_effect hlegal
  have hkept {id : Uuid} (he : c.before.hasEntry id = true) :
      (c.before.after (d.writes c.began)).hasEntry id = true := by
    obtain ⟨e, he⟩ := Option.isSome_iff_exists.mp he
    rw [Store.hasEntry, ← Table.find_key he]
    rw [Table.find_of_mem (by rw [hentries]; exact List.mem_append_left _ (Table.mem_of_find he))]
    rfl
  rcases hd.deed.balanced fun entry n hc => hw c.caller entry n hc with hp | ⟨entry, p, hp, hs, hnan, hnet⟩
  · have hsame : (c.before.after (d.writes c.began)).journalLines = c.before.journalLines := by simp [hlines, hp]
    refine ⟨?_, ?_, ?_, ?_, ?_⟩
    · intro x hx
      rw [hsame] at hx
      exact hkept (h.entries x hx)
    · intro x hx
      rw [hsame] at hx
      rw [hasAccount_after]
      exact h.accounts x hx
    · rw [hsame]
      exact h.numbers
    · intro id ccy
      rw [Store.linesAt, hsame]
      exact h.each id ccy
    · rw [hsame]
      exact h.total
  · have hgrown : (c.before.after (d.writes c.began)).journalLines = c.before.journalLines ++ p.lines := by
      simp [hlines, hp]
    have hnew : ∀ x ∈ p.lines, x.journalEntryId = p.entry.id ∧ c.before.hasAccount x.accountId = true := by
      intro x hx
      obtain ⟨line, hline, hrow⟩ := forall₂_mem_right hs.lines hx
      obtain ⟨_, -, _, -, rfl⟩ := JournalLineRow.new_ok.mp hrow
      refine ⟨rfl, hs.exist _ ?_⟩
      rw [hs.accounts, JournalEntry.accountIds, rt.order.mem_iter]
      exact List.mem_map_of_mem hline
    refine ⟨?_, ?_, ?_, ?_, ?_⟩
    · intro x hx
      rw [hgrown] at hx
      rcases List.mem_append.mp hx with hx | hx
      · exact hkept (h.entries x hx)
      · rw [(hnew x hx).1, Store.hasEntry, Table.find_of_mem (by rw [hentries, hp]; simp : p.entry ∈ _)]
        rfl
    · intro x hx
      rw [hgrown] at hx
      rw [hasAccount_after]
      rcases List.mem_append.mp hx with hx | hx
      · exact h.accounts x hx
      · exact (hnew x hx).2
    · intro x hx
      rw [hgrown] at hx
      rcases List.mem_append.mp hx with hx | hx
      · exact h.numbers x hx
      · exact hnan x hx
    · intro id ccy
      rw [linesAt_effect hlegal, netIn_append, h.each, hp]
      by_cases hid : p.entry.id = id
      · simp [hid, hnet]
      · simp [hid, netIn]
    · intro ccy
      rw [hgrown, netIn_append, h.total, hnet, add_zero]

/-- Every entry nets to zero in every currency as stored, and so do the balances of all accounts. -/
def ZeroSum (st : Store) : Prop :=
  (∀ e ∈ st.journalEntries.rows, (∀ l ∈ st.linesAt e.id, l.amount.value ≠ .nan) ∧
    ∀ ccy, netIn (st.linesAt e.id) ccy = 0) ∧
  ∀ ccy, ∃ balance : Uuid → ℤ, (∀ a ∈ st.accounts.rows, st.getBalance a.id ccy = some (balance a.id)) ∧
    (st.accounts.rows.map fun a => balance a.id).sum = 0

variable [DecidableEq ι]

/-- The stored ledger sums to zero at every moment of a run in which every directly posted entry is in
whole cents. -/
theorem ledger_zero_sum (h₀ : Fresh st₀)
    (hw : ∀ i entry n, calls i = .postJournalEntry entry n → entry.WholeCents)
    (h : Reachable rt step st₀ calls σ) : ZeroSum σ.world.store := by
  obtain ⟨clock, hr⟩ := h
  have hwf := reaches_wellFormed hr
  have hbalanced : Balanced σ.world.store := by
    apply hwf.invariant fun _ st => Balanced st
    · refine ⟨by simp [h₀.lines], by simp [h₀.lines], by simp [h₀.lines], ?_, by simp [h₀.lines, netIn]⟩
      intro id ccy
      simp [Store.linesAt, h₀.lines, netIn]
    · intro l st f hb
      exact ⟨hb.entries, hb.accounts, hb.numbers, hb.each, hb.total⟩
    · intro l c v d hd hb
      exact hb.commit hd hw
  refine ⟨?_, hbalanced.balances⟩
  intro e _
  refine ⟨?_, hbalanced.each e.id⟩
  intro l hl
  exact hbalanced.numbers l (List.mem_of_mem_filter hl)

/-- The run in which one caller posts one entry on the sample store. -/
def postingRun (entry : JournalEntry) : Option (Config postgres (Fin 1) Value) :=
  (System sampleRuntime sampleStore 0 fun _ => .postJournalEntry entry 3).run
    (List.replicate (entry.lines.length + 6) (0, { id := 70 }))

/-- Ten euros from the first account to the second. -/
def sampleEntry : JournalEntry where
  entryType := "transfer"
  lines := [⟨1, .debit, cents 1000, "EUR"⟩, ⟨2, .credit, cents 1000, "EUR"⟩]

theorem ledger_zero_sum_posted : ∃ σ, postingRun sampleEntry = some σ ∧
    σ.world.store.journalEntries.rows.length = 1 ∧ ZeroSum σ.world.store := by
  obtain ⟨σ, hσ⟩ := Option.isSome_iff_exists.mp (by decide +kernel : (postingRun sampleEntry).isSome = true)
  have hlen : (postingRun sampleEntry).map (fun σ => σ.world.store.journalEntries.rows.length) = some 1 := by
    decide +kernel
  refine ⟨σ, hσ, by simpa [hσ] using hlen, ?_⟩
  have hreach : Reachable sampleRuntime (fun _ _ => False) sampleStore
      (fun _ => .postJournalEntry sampleEntry 3) σ := reachable_of_run hσ
  apply ledger_zero_sum sampleStore_fresh _ hreach
  intro i entry n hc
  cases hc
  refine ⟨?_, ?_⟩
  · intro line hline
    simp only [sampleEntry, List.mem_cons, List.not_mem_nil, or_false] at hline
    refine ⟨1000, ?_⟩
    rcases hline with rfl | rfl <;> norm_num [cents, Decimal.toRat]
  · norm_num [sampleEntry, cents, Decimal.toRat, abs_of_pos]

/-- Two debits of half a cent against a credit of one cent. -/
def halfCents : JournalEntry where
  entryType := "transfer"
  lines := [⟨1, .debit, .finite false 5 (-3), "EUR"⟩, ⟨1, .debit, .finite false 5 (-3), "EUR"⟩,
    ⟨2, .credit, cents 1, "EUR"⟩]

theorem halfCents_unbalanced : ∃ σ, Reachable sampleRuntime (fun _ _ => False) sampleStore
    (fun _ : Fin 1 => .postJournalEntry halfCents 3) σ ∧ ¬ZeroSum σ.world.store := by
  obtain ⟨σ, hσ⟩ := Option.isSome_iff_exists.mp (by decide +kernel : (postingRun halfCents).isSome = true)
  refine ⟨σ, reachable_of_run hσ, ?_⟩
  intro hzero
  have hnet : (postingRun halfCents).map (fun σ =>
      σ.world.store.journalEntries.rows.map fun e => netIn (σ.world.store.linesAt e.id) "EUR") = some [-1] := by
    decide +kernel
  rw [hσ, Option.map_some, Option.some.injEq] at hnet
  obtain ⟨e, he, hminus⟩ := List.mem_map.mp (by rw [hnet]; simp :
    (-1 : ℤ) ∈ σ.world.store.journalEntries.rows.map fun e => netIn (σ.world.store.linesAt e.id) "EUR")
  have h0 := (hzero.1 e he).2 "EUR"
  rw [h0] at hminus
  cases hminus

end Runs
end PaymentLedger
