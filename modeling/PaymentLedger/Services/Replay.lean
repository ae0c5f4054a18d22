import PaymentLedger.Services.Shapes
import PaymentLedger.Db.Drift

namespace PaymentLedger

/-- Results that differ at most in account versions. -/
def Stmt.Same : (s : Stmt) → s.Res → s.Res → Prop
  | selectAccount _, r, r' => r'.map Account.fixed = r.map Account.fixed
  | selectAccountByNumber _, r, r' => r'.map Account.fixed = r.map Account.fixed
  | selectAccountVersions _, r, r' => r' = r
  | updateAccountVersion _ _, r, r' => r' = r
  | insertEntry _ _ _, r, r' => r' = r
  | insertLine _ _, r, r' => r' = r
  | insertPayment _ _ _ _ _, r, r' => r' = r
  | selectPayment _, r, r' => r' = r
  | updatePaymentStatus _ _ _, r, r' => r' = r
  | updateFxDetails _ _ _, r, r' => r' = r
  | insertHistory _ _ _ _, r, r' => r' = r
  | insertIdempotencyKey _ _ _, r, r' => r' = r
  | selectIdempotencyKey _ _, r, r' => r' = r
  | updateIdempotencyKey _ _ _ _, r, r' => r' = r
  | selectActiveSubscriptions, r, r' => r' = r
  | insertDelivery _ _ _ _, r, r' => r' = r
  | selectLatestRate _ _, r, r' => r' = r
  | insertRecord _ _, r, r' => r' = r
  | selectSettled _ _, r, r' => r' = r
  | insertRun _ _ _ _, r, r' => r' = r
  | insertBreak _ _, r, r' => r' = r

/-- The result of a read on `st` is what `st'` holds, and an update has found its row. The statements
on idempotency keys and of reconciliation are not promised anything. -/
def Stmt.Held (st st' : Store) : (s : Stmt) → s.Res → Prop
  | selectPayment id, r => st'.payments.find id = r
  | selectAccountVersions ids, r => st'.accountVersions ids = r
  | updateAccountVersion _ _, r => r = true
  | updatePaymentStatus _ _ _, r => r = true
  | updateFxDetails id _ _, _ => st.hasPayment id = true
  | insertIdempotencyKey _ _ _, _ => False
  | selectIdempotencyKey _ _, _ => False
  | updateIdempotencyKey _ _ _ _, _ => False
  | insertRecord _ _, _ => False
  | selectSettled _ _, _ => False
  | insertRun _ _ _ _, _ => False
  | insertBreak _ _, _ => False
  | _, _ => True

section Stable

variable {L : List RowKey} {st st' : Store}

theorem Store.find_fixed (h : st'.accounts.rows.map Account.fixed = st.accounts.rows.map Account.fixed)
    (id : Uuid) : (st'.accounts.find id).map Account.fixed = (st.accounts.find id).map Account.fixed := by
  have hfind (t : Table Account.id) :
      (t.find id).map Account.fixed = (t.rows.map Account.fixed).find? fun a => decide (a.id = id) := by
    rw [List.find?_map]
    rfl
  rw [hfind, hfind, h]

theorem Drift.find_account (h : Drift L st st') (id : Uuid) :
    (st'.accounts.find id).map Account.fixed = (st.accounts.find id).map Account.fixed :=
  Store.find_fixed h.accounts id

theorem Drift.find_accountNumber (h : Drift L st st') (number : String) :
    (st'.accounts.rows.find? fun a => decide (a.accountNumber = number)).map Account.fixed =
      (st.accounts.rows.find? fun a => decide (a.accountNumber = number)).map Account.fixed := by
  have hfind (t : Table Account.id) :
      (t.rows.find? fun a => decide (a.accountNumber = number)).map Account.fixed =
        (t.rows.map Account.fixed).find? fun a => decide (a.accountNumber = number) := by
    rw [List.find?_map]
    rfl
  rw [hfind, hfind, h.accounts]

theorem Drift.hasAccount (h : Drift L st st') (id : Uuid) : st'.hasAccount id = st.hasAccount id := by
  have hf := congrArg Option.isSome (h.find_account id)
  simpa [Store.hasAccount] using hf

theorem Drift.hasPayment (h : Drift L st st') {id : Uuid} (hid : st.hasPayment id = true) :
    st'.hasPayment id = true := by
  obtain ⟨row, hrow⟩ := Option.isSome_iff_exists.mp hid
  obtain ⟨row', hrow', _⟩ := h.payments id row hrow
  rw [Store.hasPayment, hrow']
  rfl

theorem Drift.all_hasPayment (h : Drift L st st') {id : Option Uuid} (hid : id.all st.hasPayment = true) :
    id.all st'.hasPayment = true := by
  cases id with
  | none => rfl
  | some id => exact h.hasPayment hid

theorem Drift.all_hasKeyId (h : Drift L st st') {id : Option Uuid} (hid : id.all st.hasKeyId = true) :
    id.all st'.hasKeyId = true := by
  cases id with
  | none => rfl
  | some id => exact h.keyIds id hid

theorem Drift.hasEntry (h : Drift L st st') {id : Uuid} (hid : st.hasEntry id = true) :
    st'.hasEntry id = true := by
  obtain ⟨row, hrow⟩ := Option.isSome_iff_exists.mp hid
  rw [Store.hasEntry, h.entries id row hrow]
  rfl

/-- A statement that took only locks in `L` runs again, with the same writes, after the store has
drifted, as long as its reads are held. -/
theorem eval_stable (h : Drift L st st') (hf : st'.feed = st.feed) {now : ℕ} {c : Choice} {s : Stmt}
    {r : s.Res} {ws : List Write} (he : Stmt.eval st now c s = some (.ok (r, ws)))
    (hL : ∀ w ∈ ws, ∀ k, w.locked = some k → k ∈ L) (hh : s.Held st st' r) :
    ∃ r', s.Same r r' ∧ Stmt.eval st' now c s = some (.ok (r', ws)) := by
  cases s with
  | selectAccount id =>
    obtain ⟨rfl, rfl⟩ := eval_selectAccount.mp he
    exact ⟨_, h.find_account id, eval_selectAccount.mpr ⟨rfl, rfl⟩⟩
  | selectAccountByNumber number =>
    obtain ⟨rfl, rfl⟩ := eval_selectAccountByNumber.mp he
    exact ⟨_, h.find_accountNumber number, eval_selectAccountByNumber.mpr ⟨rfl, rfl⟩⟩
  | selectAccountVersions ids =>
    obtain ⟨_, rfl⟩ := eval_selectAccountVersions.mp he
    exact ⟨r, rfl, eval_selectAccountVersions.mpr ⟨hh.symm, rfl⟩⟩
  | updateAccountVersion id v =>
    rcases eval_updateAccountVersion.mp he with ⟨rfl, rfl, ha⟩ | ⟨rfl, _⟩
    · rw [← h.account_held id (hL _ List.mem_cons_self _ rfl)] at ha
      exact ⟨true, rfl, eval_updateAccountVersion.mpr (.inl ⟨rfl, rfl, ha⟩)⟩
    · exact absurd hh (by simp [Stmt.Held])
  | insertEntry entryType paymentId keyId =>
    obtain ⟨rfl, hn, hp, hk, row, hrow, rfl⟩ := eval_insertEntry.mp he
    have hid : row.id = c.id := by
      obtain ⟨t, -, rfl⟩ := JournalEntryRow.new_ok.mp hrow
      rfl
    have hn' : st'.hasEntry c.id = false := by
      have hl := h.entry_held c.id (hL _ List.mem_cons_self _ (by rw [← hid]; rfl))
      rw [Store.hasEntry, hl]
      exact hn
    exact ⟨c.id, rfl, eval_insertEntry.mpr ⟨rfl, hn', h.all_hasPayment hp, h.all_hasKeyId hk, row, hrow, rfl⟩⟩
  | insertLine entryId line =>
    obtain ⟨hE, ha, row, hrow, rfl⟩ := eval_insertLine.mp he
    rw [← h.hasAccount] at ha
    exact ⟨r, rfl, eval_insertLine.mpr ⟨h.hasEntry hE, ha, row, hrow, rfl⟩⟩
  | insertPayment debtor creditor amount currency endToEndId =>
    obtain ⟨rfl, hn, hd, hc, row, hrow, rfl⟩ := eval_insertPayment.mp he
    have hid : row.id = c.id := by
      obtain ⟨a, -, cur, -, ref, -, rfl⟩ := PaymentRow.new_ok.mp hrow
      rfl
    have hn' : st'.hasPayment c.id = false := by
      have hl := h.payment_held c.id (hL _ List.mem_cons_self _ (by rw [← hid]; rfl))
      rw [Store.hasPayment, hl]
      exact hn
    rw [← h.hasAccount] at hd hc
    exact ⟨c.id, rfl, eval_insertPayment.mpr ⟨rfl, hn', hd, hc, row, hrow, rfl⟩⟩
  | selectPayment id =>
    obtain ⟨_, rfl⟩ := eval_selectPayment.mp he
    exact ⟨r, rfl, eval_selectPayment.mpr ⟨hh.symm, rfl⟩⟩
  | updatePaymentStatus id v status =>
    rcases eval_updatePaymentStatus.mp he with ⟨rfl, rfl, ha⟩ | ⟨rfl, _⟩
    · rw [← h.payment_held id (hL _ List.mem_cons_self _ rfl)] at ha
      exact ⟨true, rfl, eval_updatePaymentStatus.mpr (.inl ⟨rfl, rfl, ha⟩)⟩
    · exact absurd hh (by simp [Stmt.Held])
  | updateFxDetails id rateId amount =>
    obtain ⟨n, hn, ⟨hp, hr, rfl⟩ | ⟨hp, rfl⟩⟩ := eval_updateFxDetails.mp he
    · have hr' : st'.hasRate rateId = true := by
        rw [Store.hasRate, hf]
        exact hr
      exact ⟨r, rfl, eval_updateFxDetails.mpr ⟨n, hn, .inl ⟨h.hasPayment hp, hr', rfl⟩⟩⟩
    · exact absurd hh (by simp [Stmt.Held, hp])
  | insertHistory id fromStatus toStatus reason =>
    obtain ⟨hp, row, hrow, rfl⟩ := eval_insertHistory.mp he
    exact ⟨r, rfl, eval_insertHistory.mpr ⟨h.hasPayment hp, row, hrow, rfl⟩⟩
  | insertIdempotencyKey key endpoint hash => exact hh.elim
  | selectIdempotencyKey key endpoint => exact hh.elim
  | updateIdempotencyKey key endpoint code body => exact hh.elim
  | selectActiveSubscriptions =>
    obtain ⟨hr, hp, rfl⟩ := eval_selectActiveSubscriptions.mp he
    refine ⟨r, rfl, eval_selectActiveSubscriptions.mpr ⟨hr, ?_, rfl⟩⟩
    rw [Store.activeSubscriptions, hf]
    exact hp
  | insertDelivery subscriptionId paymentId eventType payload =>
    obtain ⟨rfl, hn, hs, hp, row, hrow, rfl⟩ := eval_insertDelivery.mp he
    have hid : row.id = c.id := by
      obtain ⟨t, -, rfl⟩ := WebhookDeliveryRow.new_ok.mp hrow
      rfl
    have hn' : st'.hasDelivery c.id = false := by
      have hl := h.delivery_held c.id (hL _ List.mem_cons_self _ (by rw [← hid]; rfl))
      rw [Store.hasDelivery, hl]
      exact hn
    have hs' : st'.hasSubscription subscriptionId = true := by
      rw [Store.hasSubscription, hf]
      exact hs
    exact ⟨c.id, rfl, eval_insertDelivery.mpr ⟨rfl, hn', hs', h.all_hasPayment hp, row, hrow, rfl⟩⟩
  | selectLatestRate base quote =>
    obtain ⟨hr, rfl, hrates⟩ := eval_selectLatestRate.mp he
    refine ⟨r, rfl, eval_selectLatestRate.mpr ⟨hr, rfl, ?_⟩⟩
    have hsame : st'.rates base quote = st.rates base quote := by rw [Store.rates, hf]; rfl
    rw [hsame]
    exact hrates
  | insertRecord batchId record => exact hh.elim
  | selectSettled windowStart windowEnd => exact hh.elim
  | insertRun batchId matched broken status => exact hh.elim
  | insertBreak runId b => exact hh.elim

end Stable

/-- A statement of a transaction that has committed on `before`: it was evaluated on a view from
which the committed store has only drifted, and which has the payments read until then. -/
def Witnessed (before : Store) (b : ℕ) (pre : List (Event postgres)) (e : Event postgres) : Prop :=
  ∃ st c, Drift (locksOf (pre ++ [e])) st (before.after (writesOf pre)) ∧
    Stmt.eval st b c e.stmt = some (.ok (e.res, e.writes)) ∧
    ∀ id row, (∃ e' ∈ pre, Did (.selectPayment id) (some row) e') → st.hasPayment id = true

/-- A statement of a transaction, run in its place on `before` alone: it returns the same, up to
account versions, and writes the same. -/
def Replayed (before : Store) (b : ℕ) (pre : List (Event postgres)) (e : Event postgres) : Prop :=
  ∃ f c r, e.stmt.Same e.res r ∧
    Stmt.eval { before.after (writesOf pre) with feed := f } b c e.stmt = some (.ok (r, e.writes))

theorem postgres_eval_ok {s : Stmt} {st : Store} {now : ℕ} {c : Choice} {r : s.Res} {ws : List Write} :
    postgres.eval s st now c = some (.ok (r, ws)) ↔ Stmt.eval st now c s = some (.ok (r, ws)) := by
  cases h : Stmt.eval st now c s with
  | none => simp [h]
  | some x =>
    cases x with
    | error e => simp [h, Except.mapError]
    | ok v => simp [h, Except.mapError]

/-- What is held does not depend on the feed. -/
theorem held_withFeed {st st' : Store} {f : Feed} (s : Stmt) (r : s.Res) (h : s.Held st st' r) :
    s.Held st { st' with feed := f } r := by
  cases s <;> exact h

theorem Witnessed.replayed {before : Store} {b : ℕ} {pre : List (Event postgres)} {e : Event postgres}
    (h : Witnessed before b pre e)
    (hh : ∀ st, (∀ id row, (∃ e' ∈ pre, Did (.selectPayment id) (some row) e') → st.hasPayment id = true) →
      e.stmt.Held st (before.after (writesOf pre)) e.res) :
    Replayed before b pre e := by
  obtain ⟨st, c, hd, he, hp⟩ := h
  have hdf : Drift (locksOf (pre ++ [e])) st { before.after (writesOf pre) with feed := st.feed } :=
    hd.trans (Drift.feed _ _ _)
  have hlock : ∀ w ∈ e.writes, ∀ k, w.locked = some k → k ∈ locksOf (pre ++ [e]) := by
    intro w hw k hk
    rw [locksOf_append, locksOf_singleton]
    exact List.mem_append_right _ (List.mem_filterMap.mpr ⟨w, hw, hk⟩)
  have hheld : e.stmt.Held st { before.after (writesOf pre) with feed := st.feed } e.res := by
    exact held_withFeed e.stmt e.res (hh st hp)
  obtain ⟨r, hr, hev⟩ := eval_stable hdf rfl he hlock hheld
  exact ⟨st.feed, c, r, hr, hev⟩

section Recorded

variable {ι : Type} {step : Feed → Feed → Prop} {st₀ before : Store} {log : List (Commit postgres ι)}
  {b : ℕ} {tx : List (Event postgres)}

/-- The statements of a committed transaction are witnessed, when the commits before it are paired, by stores
of which `P` holds if it does of all that the transaction can have seen. -/
theorem Recorded.witnessed_by {P : Store → Prop} (h : Recorded (feedEnv step) st₀ log before b tx)
    (hp : ∀ c ∈ log, Paired (writesOf c.tx))
    (hP : ∀ (st : Store) (l : List (Commit postgres ι)), History (feedEnv step) st l before →
      ∀ ws, P (st.after ws)) :
    Each (fun pre e => ∃ st c, P st ∧ Drift (locksOf (pre ++ [e])) st (before.after (writesOf pre)) ∧
      Stmt.eval st b c e.stmt = some (.ok (e.res, e.writes)) ∧
      ∀ id row, (∃ e' ∈ pre, Did (.selectPayment id) (some row) e') → st.hasPayment id = true) [] tx := by
  apply each_of_split
  intro pre e post htx
  rw [List.nil_append]
  have hall := h.evaluated
  rw [htx, each_append] at hall
  obtain ⟨hpre, ⟨st', hev⟩, -⟩ := hall
  rw [List.nil_append] at hev
  obtain ⟨c, hc⟩ := hev.eval
  refine ⟨st'.after (writesOf pre), c, hP st' _ hev.since _, ?_, postgres_eval_ok.mp hc, ?_⟩
  · have hdrift : Drift (locksOf (pre ++ [e])) st' before := by
      apply hev.since.drift
      · intro c' hc'
        exact hp c' (List.mem_of_mem_drop hc')
      · intro c' hc' row hrow
        exact hev.held c' hc' row hrow
    apply hdrift.after
    intro w hw k hk
    rw [locksOf_append]
    exact List.mem_append_left _ (List.mem_filterMap.mpr ⟨w, hw, hk⟩)
  · -- payments read before were inserted by an earlier commit or by the transaction itself
    intro id row hread
    obtain ⟨e', he', ws, n, rfl⟩ := hread
    obtain ⟨pre₁, pre₂, rfl⟩ := List.append_of_mem he'
    rw [each_append] at hpre
    obtain ⟨-, ⟨st'', hev'⟩, -⟩ := hpre
    rw [List.nil_append] at hev'
    obtain ⟨c', hc'⟩ := hev'.eval
    have hfind := (eval_selectPayment.mp (postgres_eval_ok.mp hc')).1
    have hthere : (st''.after (writesOf pre₁)).hasPayment id = true := by
      rw [Store.hasPayment, ← view_eq, ← hfind]
      rfl
    have hseen : n ≤ e.seen := by
      have hord := h.ordered
      rw [htx, List.append_assoc, List.cons_append, List.pairwise_append] at hord
      exact List.rel_of_pairwise_cons hord.2.1 (by simp)
    have hcore (l : List (Commit postgres ι)) (st : Store) (hist : History (feedEnv step) st₀ l st) :
        st.hasPayment id = true ↔ st₀.hasPayment id = true ∨
          ∃ row, .insertPayment row ∈ logWrites l ∧ row.id = id := by
      rw [← hasPayment_after, hist.eq_after]
      rfl
    rw [hasPayment_after] at hthere ⊢
    rcases hthere with hthere | ⟨r, hr, hrid⟩
    · left
      rw [hcore _ _ hev'.past] at hthere
      rw [hcore _ _ hev.past]
      rcases hthere with hthere | ⟨r, hr, hrid⟩
      · exact .inl hthere
      · refine .inr ⟨r, ?_, hrid⟩
        obtain ⟨c, hcl, hcr⟩ := List.mem_flatMap.mp hr
        exact List.mem_flatMap.mpr ⟨c, (List.take_subset_take_left log hseen) hcl, hcr⟩
    · right
      refine ⟨r, ?_, hrid⟩
      rw [writesOf_append]
      exact List.mem_append_left _ hr

theorem Recorded.witnessed (h : Recorded (feedEnv step) st₀ log before b tx)
    (hp : ∀ c ∈ log, Paired (writesOf c.tx)) : Each (Witnessed before b) [] tx := by
  apply (h.witnessed_by (P := fun _ => True) hp fun _ _ _ _ => trivial).imp
  rintro pre e - ⟨st, c, -, hseen⟩
  exact ⟨st, c, hseen⟩

end Recorded
end PaymentLedger
