import PaymentLedger.Ledger.Tables

namespace PaymentLedger

/-- The entries that a transaction creates. -/
def entriesCreated (tx : List (Event postgres)) : List JournalEntryRow :=
  (writesOf (D := postgres) tx).filterMap Write.entryRow

/-- The lines that a transaction creates. -/
def linesCreated (tx : List (Event postgres)) : List JournalLineRow :=
  (writesOf (D := postgres) tx).filterMap Write.lineRow

def Call.postsEntry : Call → Bool
  | .postJournalEntry _ _ => true
  | .settlePayment _ _ => true
  | .reversePayment _ _ => true
  | _ => false

/-- The entry that a call posts on a store. -/
def Call.Books (st : Store) (entry : JournalEntry) : Call → Prop
  | .postJournalEntry posted _ => entry = posted
  | .settlePayment id _ => ∃ row fx, st.payments.find id = some row ∧ Booking st row .settled fx (some entry)
  | .reversePayment id _ => ∃ row fx, st.payments.find id = some row ∧ Booking st row .reversed fx (some entry)
  | _ => False

namespace Store

/-- The lines of an entry. -/
def linesAt (st : Store) (entryId : Uuid) : List JournalLineRow :=
  st.journalLines.filter fun l => l.journalEntryId = entryId

/-- The number of entries with a line on the account. -/
def entriesOn (st : Store) (account : Uuid) : ℕ :=
  st.journalEntries.rows.countP fun e => (st.linesAt e.id).any fun l => l.accountId = account

end Store

/-- The journal of a store: every line has its entry, every account version counts the entries on the
account, and what a commit has posted is still there, whole. -/
structure Journaled {ι : Type} (st₀ : Store) (log : List (Commit postgres ι)) (st : Store) : Prop where
  lines : ∀ l ∈ st.journalLines, st.hasEntry l.journalEntryId = true
  versions : ∀ id a, st.accounts.find id = some a →
    ∃ a₀, st₀.accounts.find id = some a₀ ∧ a.version = a₀.version + st.entriesOn id
  posted : ∀ c ∈ log, ∀ e ∈ entriesCreated c.tx,
    e ∈ st.journalEntries.rows ∧ st.linesAt e.id = linesCreated c.tx

section Step

variable {rt : Runtime} {st : Store} {now : ℕ} {d : Deed}

/-- The lines of an old entry stay; those of a new one are its own. -/
theorem linesAt_effect (h : d.Legal rt st now) (id : Uuid) : (st.after (d.writes now)).linesAt id =
    st.linesAt id ++ (d.postings.filter fun p => p.entry.id = id).flatMap Posting.lines := by
  rw [Store.linesAt, Deed.lines_effect h, List.filter_append]
  congr 1
  rcases Deed.postings_stored h with hp | ⟨entry, p, hp, -, hs⟩
  · simp [hp]
  · have hnew : ∀ l ∈ p.lines, l.journalEntryId = p.entry.id := by
      intro l hmem
      obtain ⟨line, -, hrow⟩ := forall₂_mem_right hs.lines hmem
      obtain ⟨_, -, _, -, rfl⟩ := JournalLineRow.new_ok.mp hrow
      rfl
    by_cases hid : p.entry.id = id
    · simp only [hp, hid, decide_true, List.filter_cons_of_pos, List.filter_nil, List.flatMap_cons,
        List.flatMap_nil, List.append_nil]
      rw [List.filter_eq_self]
      intro l hmem
      simp [hnew l hmem, hid]
    · simp only [hp, hid, decide_false, Bool.false_eq_true, not_false_eq_true, List.filter_cons_of_neg,
        List.filter_nil, List.flatMap_cons, List.flatMap_nil, List.append_nil]
      rw [List.filter_eq_nil_iff]
      intro l hmem
      simp [hnew l hmem, hid]

theorem linesAt_fresh (hl : ∀ l ∈ st.journalLines, st.hasEntry l.journalEntryId = true) {id : Uuid}
    (h : st.hasEntry id = false) : st.linesAt id = [] := by
  rw [Store.linesAt, List.filter_eq_nil_iff]
  intro l hmem heq
  have hthere := hl l hmem
  rw [of_decide_eq_true heq, h] at hthere
  cases hthere

/-- A posting adds one to the entries of each of its accounts. -/
theorem entriesOn_effect (h : d.Legal rt st now) (hl : ∀ l ∈ st.journalLines, st.hasEntry l.journalEntryId = true)
    (id : Uuid) : (st.after (d.writes now)).entriesOn id =
      st.entriesOn id + (d.postings.flatMap Posting.accounts).count id := by
  have hlines := linesAt_effect h
  rw [Store.entriesOn, Deed.entries_effect h, List.countP_append]
  rcases Deed.postings_stored h with hp | ⟨entry, p, hp, -, hs⟩
  · simp [hp, hlines, Store.entriesOn]
  · have hold : (st.journalEntries.rows.countP fun e =>
        ((st.after (d.writes now)).linesAt e.id).any fun l => l.accountId = id) = st.entriesOn id := by
      apply List.countP_congr
      intro e he
      have hne : p.entry.id ≠ e.id := by
        intro heq
        have hfresh := hs.fresh
        rw [heq, Store.hasEntry, Table.find_of_mem he] at hfresh
        cases hfresh
      rw [hlines, hp]
      simp [hne]
    have hnew : (st.after (d.writes now)).linesAt p.entry.id = p.lines := by
      rw [hlines, hp, linesAt_fresh hl hs.fresh]
      simp
    have haccounts : id ∈ p.accounts ↔ ∃ l ∈ p.lines, l.accountId = id := by
      rw [hs.accounts, JournalEntry.accountIds, rt.order.mem_iter, List.mem_map]
      constructor
      · rintro ⟨line, hline, rfl⟩
        obtain ⟨l, hl, hrow⟩ := forall₂_exists_right hs.lines hline
        obtain ⟨_, -, _, -, rfl⟩ := JournalLineRow.new_ok.mp hrow
        exact ⟨_, hl, rfl⟩
      · rintro ⟨l, hl, rfl⟩
        obtain ⟨line, hline, hrow⟩ := forall₂_mem_right hs.lines hl
        obtain ⟨_, -, _, -, rfl⟩ := JournalLineRow.new_ok.mp hrow
        exact ⟨line, hline, rfl⟩
    have hnodup : p.accounts.Nodup := by
      rw [hs.accounts]
      exact rt.order.nodup _
    rw [hold, hp]
    simp only [List.map_cons, List.map_nil, List.countP_singleton, hnew, List.flatMap_cons, List.flatMap_nil,
      List.append_nil, hnodup.count, haccounts]
    simp

theorem Deed.entriesCreated_eq {ι : Type} {c : Commit postgres ι} (h : d.Legal rt st now)
    (hw : writesOf c.tx = d.writes now) : entriesCreated c.tx = d.postings.map Posting.entry := by
  rw [entriesCreated, hw, Deed.entryRows h]

theorem Deed.linesCreated_eq {ι : Type} {c : Commit postgres ι} (h : d.Legal rt st now)
    (hw : writesOf c.tx = d.writes now) : linesCreated c.tx = d.postings.flatMap Posting.lines := by
  rw [linesCreated, hw, Deed.lineRows h]

end Step

section Run

variable {ι : Type} {rt : Runtime} {step : Feed → Feed → Prop} {st₀ : Store} {calls : ι → Call}
  {σ : Config postgres ι Value}

theorem Journaled.commit {l : List (Commit postgres ι)} {c : Commit postgres ι} {v : Option Value} {d : Deed}
    (h : Journaled st₀ l c.before) (hd : c.Does rt calls v d) :
    Journaled st₀ (l ++ [c]) (c.before.after (d.writes c.began)) := by
  have hlegal := hd.deed.legal
  have hentries := Deed.entries_effect hlegal
  have hlines := linesAt_effect hlegal
  refine ⟨?_, ?_, ?_⟩
  · intro x hx
    rw [Deed.lines_effect hlegal] at hx
    rcases List.mem_append.mp hx with hx | hx
    · obtain ⟨e, he⟩ := Option.isSome_iff_exists.mp (h.lines x hx)
      rw [Store.hasEntry, ← Table.find_key he]
      rw [Table.find_of_mem (by rw [hentries]; exact List.mem_append_left _ (Table.mem_of_find he))]
      rfl
    · rcases Deed.postings_stored hlegal with hp | ⟨entry, p, hp, -, hs⟩
      · simp [hp] at hx
      · have hmem : x ∈ p.lines := by simpa [hp] using hx
        obtain ⟨line, -, hrow⟩ := forall₂_mem_right hs.lines hmem
        obtain ⟨_, -, _, -, rfl⟩ := JournalLineRow.new_ok.mp hrow
        rw [Store.hasEntry, Table.find_of_mem (by rw [hentries, hp]; simp : p.entry ∈ _)]
        rfl
  · intro id a ha
    have hthere : c.before.hasAccount id = true := by
      rw [← hasAccount_after c.before (d.writes c.began), Store.hasAccount, ha]
      rfl
    obtain ⟨b, hb⟩ := Option.isSome_iff_exists.mp hthere
    obtain ⟨a₀, ha₀, hversion⟩ := h.versions id b hb
    rw [Deed.accounts_effect hlegal hb] at ha
    obtain rfl := Option.some.inj ha
    refine ⟨a₀, ha₀, ?_⟩
    rw [entriesOn_effect hlegal h.lines]
    simp only [hversion]
    omega
  · intro c' hc' e he
    rcases List.mem_append.mp hc' with hc' | hc'
    · obtain ⟨hrow, hsame⟩ := h.posted c' hc' e he
      refine ⟨by rw [hentries]; exact List.mem_append_left _ hrow, ?_⟩
      rw [hlines, hsame]
      rcases Deed.postings_stored hlegal with hp | ⟨entry, p, hp, -, hs⟩
      · simp [hp]
      · have hne : p.entry.id ≠ e.id := by
          intro heq
          have hfresh := hs.fresh
          rw [heq, Store.hasEntry, Table.find_of_mem hrow] at hfresh
          cases hfresh
        simp [hp, hne]
    · obtain rfl := List.mem_singleton.mp hc'
      rw [Deed.entriesCreated_eq hlegal hd.writes] at he
      rw [Deed.linesCreated_eq hlegal hd.writes, hentries, hlines]
      rcases Deed.postings_stored hlegal with hp | ⟨entry, p, hp, -, hs⟩
      · simp [hp] at he
      · obtain rfl : e = p.entry := by simpa [hp] using he
        refine ⟨by simp [hp], ?_⟩
        rw [linesAt_fresh h.lines hs.fresh, hp]
        simp

theorem Fresh.journaled (h : Fresh st₀) : Journaled st₀ ([] : List (Commit postgres ι)) st₀ := by
  refine ⟨by simp [h.lines], ?_, by simp⟩
  intro id a ha
  exact ⟨a, ha, by simp [Store.entriesOn, h.entries]⟩

/-- The deed of a call that posts is one posting of the entry it books. -/
theorem Deed.Of.books {st : Store} {now : ℕ} {call : Call} {v : Option Value} {d : Deed}
    (h : d.Of rt st now call v) (hc : call.postsEntry = true) :
    ∃ entry p, call.Books st entry ∧ validateJournalEntry entry.lines = .ok () ∧ d.postings = [p] ∧
      p.Stores rt st entry := by
  cases call with
  | postJournalEntry entry n =>
    obtain ⟨p, rfl, hv, hp, -⟩ := h
    exact ⟨entry, p, rfl, hv, rfl, hp⟩
  | settlePayment id n =>
    obtain ⟨row, reason, fx, entry, p, subs, ds, rfl, rfl, ht, -⟩ := h
    obtain ⟨hv, hp⟩ := ht.posted (entry, p) rfl
    exact ⟨entry, p, ⟨row, fx, ht.found, ht.booking⟩, hv, rfl, hp⟩
  | reversePayment id n =>
    obtain ⟨row, reason, fx, entry, p, subs, ds, rfl, rfl, ht, -⟩ := h
    obtain ⟨hv, hp⟩ := ht.posted (entry, p) rfl
    exact ⟨entry, p, ⟨row, fx, ht.found, ht.booking⟩, hv, rfl, hp⟩
  | _ => cases hc

theorem Deed.Of.postings_nil {st : Store} {now : ℕ} {call : Call} {v : Option Value} {d : Deed}
    (h : d.Of rt st now call v) (hc : call.postsEntry = false) : d.postings = [] := by
  cases call with
  | initiatePayment req =>
    obtain ⟨row, subs, ds, rfl, -⟩ := h
    rfl
  | initiatePaymentIdempotent key body req =>
    rcases h with ⟨claimed, rfl, -⟩ | ⟨row, subs, ds, completion, rfl, -⟩ <;> rfl
  | authorisePayment id n =>
    obtain ⟨row, reason, subs, ds, rfl, -⟩ := h
    rfl
  | failPayment id reason n =>
    obtain ⟨row, reason, subs, ds, rfl, -⟩ := h
    rfl
  | runReconciliation batchId records windowStart windowEnd =>
    obtain ⟨ws, runId, result, rfl, -⟩ := h
    rfl
  | _ => cases hc

variable [DecidableEq ι]

/-- A call that returns has committed exactly one entry, with all of its lines; a call that raises has
committed nothing; and every account version counts the entries on the account. -/
theorem posted_exactly_once (h₀ : Fresh st₀) (h : Reachable rt step st₀ calls σ) :
    (∀ i v, (calls i).postsEntry = true → (σ.session i).prog = some (.ret v) →
      ∃ c ∈ σ.world.log, ∃ entry row, c.caller = i ∧ ownOf i σ.world.log = [c.tx] ∧
        (calls i).Books c.before entry ∧ entriesCreated c.tx = [row] ∧
        List.Forall₂ (fun line l => JournalLineRow.new row.id line = .ok l) entry.lines (linesCreated c.tx) ∧
        row ∈ σ.world.store.journalEntries.rows ∧ σ.world.store.linesAt row.id = linesCreated c.tx) ∧
    (∀ i e, (calls i).postsEntry = true → (σ.session i).prog = some (.raise e) → ownOf i σ.world.log = []) ∧
    History (feedEnv step) st₀ σ.world.log σ.world.store ∧
    ∀ id a, σ.world.store.accounts.find id = some a →
      ∃ a₀, st₀.accounts.find id = some a₀ ∧ a.version = a₀.version + σ.world.store.entriesOn id := by
  obtain ⟨clock, hr⟩ := h
  have hwf := reaches_wellFormed hr
  have hjournal : Journaled st₀ σ.world.log σ.world.store := by
    apply hwf.invariant (Journaled st₀) h₀.journaled
    · intro l st f hj
      exact ⟨hj.lines, hj.versions, hj.posted⟩
    · intro l c v d hd hj
      exact hj.commit hd
  have hsingle {i : ι} (hc : (calls i).postsEntry = true) : (calls i).idempotent = false := by
    cases hcall : calls i <;> simp [hcall, Call.postsEntry, Call.idempotent] at hc ⊢
  refine ⟨?_, ?_, hwf.history, hjournal.versions⟩
  · intro i v hc hv
    obtain ⟨tx, hown, hshape⟩ := hwf.returned (hsingle hc) hv
    obtain ⟨c, hmem, rfl, rfl⟩ := mem_of_ownOf (by rw [hown]; simp : tx ∈ ownOf i σ.world.log)
    obtain ⟨l, l', hl⟩ := List.append_of_mem hmem
    obtain ⟨d, hd⟩ := hwf.deed hl hshape
    have hlegal := hd.deed.legal
    obtain ⟨entry, p, hbooks, -, hp, hs⟩ := hd.deed.books hc
    have hentries : entriesCreated c.tx = [p.entry] := by
      rw [Deed.entriesCreated_eq hlegal hd.writes, hp]
      rfl
    have hlines : linesCreated c.tx = p.lines := by
      rw [Deed.linesCreated_eq hlegal hd.writes, hp]
      simp
    obtain ⟨hrow, hat⟩ := hjournal.posted c hmem p.entry (by rw [hentries]; simp)
    refine ⟨c, hmem, entry, p.entry, rfl, hown, hbooks, hentries, ?_, hrow, hat⟩
    rw [hlines]
    exact hs.lines
  · intro i e hc he
    exact hwf.raised (hsingle hc) he

theorem posted_exactly_once_settled : ∃ row, row ∈ sampleEnd.world.store.journalEntries.rows ∧
    (sampleEnd.world.store.linesAt row.id).length = 2 ∧
    ∀ a, sampleEnd.world.store.accounts.find 1 = some a → a.version = 1 := by
  obtain ⟨v, hv⟩ := result_returned (by decide +kernel :
    ((sampleEnd.session 2).result.bind Except.toOption).isSome = true)
  obtain ⟨hreturned, -, -, hversions⟩ := posted_exactly_once sampleStore_fresh
    (sampleEnd_reachable fun _ _ => False)
  obtain ⟨c, hmem, entry, row, -, -, -, -, -, hrow, -⟩ := hreturned 2 v rfl (result_ok.mp hv)
  have hlines : ∀ row ∈ sampleEnd.world.store.journalEntries.rows,
      (sampleEnd.world.store.linesAt row.id).length = 2 := by decide +kernel
  refine ⟨row, hrow, hlines row hrow, ?_⟩
  intro a ha
  obtain ⟨a₀, ha₀, hversion⟩ := hversions 1 a ha
  have hfirst : sampleStore.accounts.find 1 = some (sampleAccount 1 "DE01" "EUR") := by decide
  have hone : sampleEnd.world.store.entriesOn 1 = 1 := by decide +kernel
  rw [hfirst] at ha₀
  rw [hversion, hone, ← Option.some.inj ha₀]
  rfl

end Run
end PaymentLedger
