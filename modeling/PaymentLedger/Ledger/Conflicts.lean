import PaymentLedger.Services.Retries
import PaymentLedger.Ledger.ZeroSum

namespace PaymentLedger

section Between

variable {ι : Type} {step : Feed → Feed → Prop} {st₀ st st' : Store} {log : List (Commit postgres ι)} {n m : ℕ}

/-- What lies between two moments of a run: the commits from one to the other. -/
theorem History.between (hn : History (feedEnv step) st₀ (log.take n) st)
    (hm : History (feedEnv step) st₀ (log.take m) st') (hnm : n ≤ m) :
    st' = { st.after (logWrites ((log.drop n).take (m - n))) with feed := st'.feed } := by
  have hsplit : log.take m = log.take n ++ (log.drop n).take (m - n) := by
    rw [← List.take_add]
    congr 1
    omega
  have hwrites : logWrites (log.take m) = logWrites (log.take n) ++ logWrites ((log.drop n).take (m - n)) := by
    rw [hsplit]
    simp [logWrites]
  have hst' := hm.eq_after
  have hst := hn.eq_after
  rw [hwrites, Store.after_append] at hst'
  calc st' = { (st₀.after (logWrites (log.take n))).after (logWrites ((log.drop n).take (m - n))) with
        feed := st'.feed } := hst'
    _ = { st.after (logWrites ((log.drop n).take (m - n))) with feed := st'.feed } := by
        rw [hst, after_withFeed _ st.feed]

theorem mem_between {c : Commit postgres ι} (h : c ∈ (log.drop n).take (m - n)) :
    ∃ k, n ≤ k ∧ k < m ∧ log[k]? = some c := by
  obtain ⟨j, hj⟩ := List.mem_iff_getElem?.mp h
  have hlt : j < m - n := by
    by_contra hge
    rw [List.getElem?_take_eq_none (by omega)] at hj
    cases hj
  refine ⟨n + j, by omega, by omega, ?_⟩
  rw [List.getElem?_take_of_lt hlt, List.getElem?_drop] at hj
  exact hj

/-- What only writes under the lock of a row change has stayed, unless a commit in between has
held that lock. -/
theorem touched_between {X : Type} (f : Store → X) (row : RowKey)
    (hframe : ∀ (w : Write) (st : Store), w.locked ≠ some row → f (w.apply st) = f st)
    (hfeed : ∀ (st : Store) (feed : Feed), f { st with feed := feed } = f st)
    (hn : History (feedEnv step) st₀ (log.take n) st) (hm : History (feedEnv step) st₀ (log.take m) st')
    (hnm : n ≤ m) (hne : f st' ≠ f st) :
    ∃ k c, n ≤ k ∧ k < m ∧ log[k]? = some c ∧ row ∈ locksOf c.tx := by
  by_contra hnone
  apply hne
  rw [hn.between hm hnm, hfeed]
  apply st.after_eq f
  intro w hw st
  apply hframe
  intro hlock
  obtain ⟨c, hc, hwc⟩ := List.mem_flatMap.mp hw
  obtain ⟨k, hnk, hkm, hk⟩ := mem_between hc
  exact hnone ⟨k, c, hnk, hkm, hk, List.mem_filterMap.mpr ⟨w, hwc, hlock⟩⟩

end Between

section Lost

variable {t : List (Event postgres)}

/-- A loop over the accounts that has met a conflict: the bumps before it, and the one that failed. -/
theorem path_bumpAccounts_false {versions : List (Uuid × ℕ)} {ids : List Uuid}
    (h : Path (bumpAccounts versions ids) t (.ret false)) :
    ∃ ids₁ id ids₂ v tb e, ids = ids₁ ++ id :: ids₂ ∧ t = tb ++ [e] ∧ Bumped versions ids₁ tb ∧
      versions.lookup id = some v ∧ Did (.updateAccountVersion id v) false e := by
  induction ids generalizing t with
  | nil => simp [bumpAccounts] at h
  | cons id ids ih =>
    rw [bumpAccounts] at h
    cases hv : versions.lookup id with
    | none =>
      simp only [hv] at h
      exact absurd h path_raise_ret
    | some v =>
      simp only [hv] at h
      obtain ⟨t₁, r, t₂, rfl, q₁, k₁⟩ := path_bind_ret.mp h
      obtain ⟨e, rfl, he⟩ := path_query.mp q₁
      cases r with
      | false =>
        obtain ⟨rfl, -⟩ := path_ret.mp k₁
        exact ⟨[], id, ids, v, [], e, rfl, rfl, .nil, hv, he⟩
      | true =>
        obtain ⟨ids₁, id', ids₂, v', tb, e', rfl, rfl, hb, hv', he'⟩ := ih k₁
        exact ⟨id :: ids₁, id', ids₂, v', e :: tb, e', rfl, rfl, .cons ⟨v, hv, he⟩ hb, hv', he'⟩

/-- An attempt that has read the versions of its accounts, and has then found one of them moved, which it
has not written itself. -/
def AccountLost (tx : List (Event postgres)) : Prop :=
  ∃ pre mid ids versions id v e₁ e₂, tx = pre ++ e₁ :: (mid ++ [e₂]) ∧
    Did (.selectAccountVersions ids) versions e₁ ∧ id ∈ ids ∧ versions.lookup id = some v ∧
    Did (.updateAccountVersion id v) false e₂ ∧
    ∀ e ∈ pre ++ e₁ :: mid, ∀ w, e.stmt.Writes w → w.locked ≠ some (.account id)

/-- An attempt that has read its payment, and has then found it moved. -/
def PaymentLost (id : Uuid) (toStatus : PaymentStatus) (tx : List (Event postgres)) : Prop :=
  ∃ row mid e₁ e₂, tx = e₁ :: (mid ++ [e₂]) ∧ Did (.selectPayment id) (some row) e₁ ∧
    toStatus ∈ allowedTransitions row.status ∧ Did (.updatePaymentStatus id row.version toStatus) false e₂ ∧
    ∀ e ∈ mid, ∀ w, e.stmt.Writes w → ∀ i s, w ≠ .setStatus i s

theorem path_transitionStatusOnlyAttempt_lost {id : Uuid} {toStatus : PaymentStatus} {reason : Option PyStr}
    (h : Path (transitionStatusOnlyAttempt id toStatus reason) t (.rollback (.ret none))) :
    PaymentLost id toStatus t := by
  obtain ⟨t₁, p', t₂, rfl, q₁, k₁⟩ := (path_bind_rollback (plain_getPayment id)).mp h
  obtain ⟨e₁, row, rfl, he₁, rfl⟩ := path_getPayment q₁
  obtain ⟨t₁, u, t₃, rfl, q₂, k₂⟩ := (path_bind_rollback (plain_ofExcept _ _)).mp k₁
  obtain ⟨rfl, hallowed⟩ := path_ofExcept.mp q₂
  obtain ⟨t₁, b, t₄, rfl, q₃, k₃⟩ := (path_bind_rollback (plain_query _)).mp k₂
  obtain ⟨e₂, rfl, he₂⟩ := path_query.mp q₃
  cases b with
  | false =>
    obtain ⟨rfl, -⟩ := path_rollback.mp k₃
    exact ⟨row, [], e₁, e₂, by simp, he₁, assertTransitionAllowed_ok hallowed, he₂, by simp⟩
  | true =>
    obtain ⟨t₁, u, t₅, rfl, q₄, k₄⟩ := (path_bind_rollback (plain_query _)).mp k₃
    obtain ⟨te, u, t₆, rfl, q₅, k₅⟩ := (path_bind_rollback (plain_enqueuePaymentWebhookEvent _ _ _)).mp k₄
    exact absurd k₅ path_commit_rollback

/-- The statements of a posting before its bumps write to no account. -/
theorem insertJournalEntry_writes {entry : JournalEntry} {entryId : Uuid} {e : Event postgres}
    {tl : List (Event postgres)}
    (he : Did (.insertEntry entry.entryType entry.paymentId entry.idempotencyKeyId) entryId e)
    (hl : List.Forall₂ (fun line e => Did (.insertLine entryId line) () e) entry.lines tl) :
    ∀ x ∈ e :: tl, ∀ w, x.stmt.Writes w → w.locked = some (.entry entryId) ∨ w.locked = none ∨
      ∃ row, w = .insertEntry row := by
  intro x hx w hw
  rcases List.mem_cons.mp hx with rfl | hx
  · rw [he.stmt] at hw
    obtain ⟨row, rfl, -⟩ := hw
    exact .inr (.inr ⟨row, rfl⟩)
  · obtain ⟨line, -, hd⟩ := forall₂_mem_right hl hx
    rw [hd.stmt] at hw
    obtain ⟨row, rfl, -⟩ := hw
    exact .inr (.inl rfl)

/-- The bumps before the conflict are of other accounts. -/
theorem bumped_writes {versions : List (Uuid × ℕ)} {ids₁ ids₂ : List Uuid} {id : Uuid}
    (hb : Bumped versions ids₁ t) (hn : (ids₁ ++ id :: ids₂).Nodup) :
    ∀ x ∈ t, ∀ w, x.stmt.Writes w → w.locked ≠ some (.account id) := by
  intro x hx w hw hlock
  obtain ⟨id', hid', v, -, hd⟩ := forall₂_mem_right hb hx
  rw [hd.stmt] at hw
  obtain rfl : w = .bumpAccount id' := hw
  obtain rfl : id' = id := by simpa [Write.locked] using hlock
  exact (List.nodup_append.mp hn).2.2 id' hid' id' List.mem_cons_self rfl

theorem path_postJournalEntryAttempt_lost {rt : Runtime} {entry : JournalEntry}
    (h : Path (postJournalEntryAttempt rt entry) t (.rollback (.ret none))) : AccountLost t := by
  obtain ⟨t₁, versions, t₂, rfl, q₁, k₁⟩ := (path_bind_rollback (plain_getAccountVersions _ _)).mp h
  obtain ⟨e₁, rfl, he₁, -⟩ := path_getAccountVersions q₁
  obtain ⟨t₁, id, t₃, rfl, q₂, k₂⟩ := (path_bind_rollback (plain_insertJournalEntry _)).mp k₁
  obtain ⟨e₂, tl, rfl, he₂, hl⟩ := path_insertJournalEntry q₂
  obtain ⟨tb, b, t₄, rfl, q₃, k₃⟩ := (path_bind_rollback (plain_bumpAccounts _ _)).mp k₂
  cases b with
  | true => exact absurd k₃ path_commit_rollback
  | false =>
    obtain ⟨rfl, -⟩ := path_rollback.mp k₃
    obtain ⟨ids₁, a, ids₂, v, tb, e₃, hids, rfl, hb, hv, he₃⟩ := path_bumpAccounts_false q₃
    refine ⟨[], e₂ :: (tl ++ tb), _, versions, a, v, e₁, e₃, by simp, he₁, by rw [hids]; simp, hv, he₃, ?_⟩
    have hnodup := rt.order.nodup (entry.lines.map JournalLine.accountId)
    rw [JournalEntry.accountIds] at hids
    rw [hids] at hnodup
    intro e he w hw
    simp only [List.nil_append, List.mem_cons, List.mem_append] at he
    rcases he with rfl | he | he | he
    · rw [he₁.stmt] at hw
      exact hw.elim
    · rcases insertJournalEntry_writes he₂ hl e (by rw [he]; simp) w hw with h | h | ⟨row, rfl⟩
      · rw [h]
        simp
      · rw [h]
        simp
      · simp [Write.locked]
    · rcases insertJournalEntry_writes he₂ hl e (List.mem_cons_of_mem _ he) w hw with h | h | ⟨row, rfl⟩
      · rw [h]
        simp
      · rw [h]
        simp
      · simp [Write.locked]
    · exact bumped_writes hb hnodup e he w hw

theorem settlementLines_writes {p : Payment} {built : BuildLinesResult}
    (h : Path (settlementLines p) t (.ret built)) :
    ∀ e ∈ t, ∀ w, e.stmt.Writes w → ∃ i rate n, w = .setFxDetails i rate n := by
  apply settlementLines_forall h (Q := fun s => ∀ w, s.Writes w → ∃ i rate n, w = .setFxDetails i rate n)
  · intro _ w hw
    exact hw.elim
  · intro _ _ w hw
    exact hw.elim
  · intro w hw
    exact hw.elim
  · intro rate _ w hw
    obtain ⟨n, rfl⟩ := hw
    exact ⟨p.id, rate, n, rfl⟩

theorem reversalLines_writes {p : Payment} {built : BuildLinesResult}
    (h : Path (reversalLines p) t (.ret built)) :
    ∀ e ∈ t, ∀ w, e.stmt.Writes w → ∃ i rate n, w = .setFxDetails i rate n := by
  apply reversalLines_forall h (Q := fun s => ∀ w, s.Writes w → ∃ i rate n, w = .setFxDetails i rate n)
  · intro _ w hw
    exact hw.elim
  · intro w hw
    exact hw.elim

theorem path_transitionWithLedgerEntryAttempt_lost {rt : Runtime} {id : Uuid} {toStatus : PaymentStatus}
    {buildLines : Payment → App BuildLinesResult} (hplain : ∀ p, Plain (buildLines p))
    (hwrites : ∀ p built t, Path (buildLines p) t (.ret built) →
      ∀ e ∈ t, ∀ w, e.stmt.Writes w → ∃ i rate n, w = .setFxDetails i rate n)
    (h : Path (transitionWithLedgerEntryAttempt rt id toStatus buildLines) t (.rollback (.ret none))) :
    AccountLost t ∨ PaymentLost id toStatus t := by
  obtain ⟨t₁, p', t₂, rfl, q₁, k₁⟩ := (path_bind_rollback (plain_getPayment id)).mp h
  obtain ⟨e₁, row, rfl, he₁, rfl⟩ := path_getPayment q₁
  obtain ⟨t₁, u, t₃, rfl, q₂, k₂⟩ := (path_bind_rollback (plain_ofExcept _ _)).mp k₁
  obtain ⟨rfl, hallowed⟩ := path_ofExcept.mp q₂
  obtain ⟨tb, ⟨entryType, lines, overrides⟩, t₄, rfl, hbuilt, kb⟩ := (path_bind_rollback (hplain _)).mp k₂
  obtain ⟨t₁, u, t₅, rfl, q₃, k₃⟩ := (path_bind_rollback (plain_ofExcept _ _)).mp kb
  obtain ⟨rfl, -⟩ := path_ofExcept.mp q₃
  obtain ⟨t₁, versions, t₆, rfl, q₄, k₄⟩ := (path_bind_rollback (plain_getAccountVersions _ _)).mp k₃
  obtain ⟨e₂, rfl, he₂, -⟩ := path_getAccountVersions q₄
  obtain ⟨t₁, entryId, t₇, rfl, q₅, k₅⟩ := (path_bind_rollback (plain_insertJournalEntry _)).mp k₄
  obtain ⟨e₃, tl, rfl, he₃, hl⟩ := path_insertJournalEntry q₅
  obtain ⟨tv, b, t₈, rfl, q₆, k₆⟩ := (path_bind_rollback (plain_bumpAccounts _ _)).mp k₅
  have hlines := hwrites _ _ _ hbuilt
  cases b with
  | false =>
    obtain ⟨rfl, -⟩ := path_rollback.mp k₆
    obtain ⟨ids₁, a, ids₂, v, tv, e₄, hids, rfl, hb, hv, he₄⟩ := path_bumpAccounts_false q₆
    refine .inl ⟨e₁ :: tb, e₃ :: (tl ++ tv), _, versions, a, v, e₂, e₄, by simp,
      he₂, by rw [hids]; simp, hv, he₄, ?_⟩
    have hnodup := rt.order.nodup (lines.map JournalLine.accountId)
    rw [JournalEntry.accountIds] at hids
    rw [hids] at hnodup
    intro e he w hw
    simp only [List.cons_append, List.mem_cons, List.mem_append] at he
    rcases he with rfl | he | rfl | he | he | he
    · rw [he₁.stmt] at hw
      exact hw.elim
    · obtain ⟨i, rate, n, rfl⟩ := hlines e he w hw
      simp [Write.locked]
    · rw [he₂.stmt] at hw
      exact hw.elim
    · rcases insertJournalEntry_writes he₃ hl e (by rw [he]; simp) w hw with h | h | ⟨row, rfl⟩
      · rw [h]
        simp
      · rw [h]
        simp
      · simp [Write.locked]
    · rcases insertJournalEntry_writes he₃ hl e (List.mem_cons_of_mem _ he) w hw with h | h | ⟨row, rfl⟩
      · rw [h]
        simp
      · rw [h]
        simp
      · simp [Write.locked]
    · exact bumped_writes hb hnodup e he w hw
  | true =>
    have hb := path_bumpAccounts q₆
    obtain ⟨t₁, moved, t₉, rfl, q₇, k₇⟩ := (path_bind_rollback (plain_query _)).mp k₆
    obtain ⟨e₄, rfl, he₄⟩ := path_query.mp q₇
    cases moved with
    | true =>
      obtain ⟨t₁, u, t₁₀, rfl, q₈, k₈⟩ := (path_bind_rollback (plain_query _)).mp k₇
      obtain ⟨te, u, t₁₁, rfl, q₉, k₉⟩ := (path_bind_rollback (plain_enqueuePaymentWebhookEvent _ _ _)).mp k₈
      exact absurd k₉ path_commit_rollback
    | false =>
      obtain ⟨rfl, -⟩ := path_rollback.mp k₇
      refine .inr ⟨row, tb ++ e₂ :: e₃ :: (tl ++ tv), e₁, e₄, by simp, he₁, assertTransitionAllowed_ok hallowed,
        he₄, ?_⟩
      intro e he w hw i s hset
      subst hset
      simp only [List.mem_cons, List.mem_append] at he
      rcases he with he | rfl | he | he | he
      · obtain ⟨_, _, _, hfx⟩ := hlines e he _ hw
        cases hfx
      · rw [he₂.stmt] at hw
        exact hw.elim
      · rw [he, he₃.stmt] at hw
        obtain ⟨_, hrow, -⟩ := hw
        cases hrow
      · obtain ⟨line, -, hd⟩ := forall₂_mem_right hl he
        rw [hd.stmt] at hw
        obtain ⟨_, hrow, -⟩ := hw
        cases hrow
      · obtain ⟨a, -, v, -, hd⟩ := forall₂_mem_right hb he
        rw [hd.stmt] at hw
        cases hw

end Lost

section Touched

variable {ι : Type} {step : Feed → Feed → Prop} {st₀ : Store} {log : List (Commit postgres ι)}
  {tx : List (Event postgres)}

/-- The rows whose versions a transaction has read. -/
def Event.versionsRead (e : Event postgres) : List RowKey :=
  match e.stmt with
  | .selectPayment id => [.payment id]
  | .selectAccountVersions ids => ids.map .account
  | _ => []

def rowsRead (tx : List (Event postgres)) : List RowKey := tx.flatMap Event.versionsRead

theorem Did.rowsRead {s : Stmt} {r : s.Res} {e : Event postgres} (h : Did s r e) (he : e ∈ tx) {row : RowKey}
    (hrow : row ∈ Event.versionsRead ⟨s, r, [], 0⟩) : row ∈ PaymentLedger.rowsRead tx := by
  obtain ⟨ws, n, rfl⟩ := h
  exact List.mem_flatMap.mpr ⟨_, he, hrow⟩

/-- The commit number `k` falls between two statements of the transaction, and has written a row whose
version the transaction has read. -/
def Touched (log : List (Commit postgres ι)) (tx : List (Event postgres)) (k : ℕ) : Prop :=
  ∃ c e e' row, log[k]? = some c ∧ e ∈ tx ∧ e' ∈ tx ∧ e.seen ≤ k ∧ k < e'.seen ∧
    row ∈ rowsRead tx ∧ row ∈ locksOf c.tx

/-- The writes of executed statements are those of the statements. -/
theorem executed_writes {pre : List (Event postgres)}
    (h : Each (Executed (feedEnv step) st₀ log) pre tx) {w : Write}
    (hw : w ∈ writesOf (D := postgres) tx) : ∃ e ∈ tx, e.stmt.Writes w := by
  obtain ⟨e, he, hwe⟩ := List.mem_flatMap.mp hw
  obtain ⟨pre', st, b, c, -, hev⟩ := h.of_mem he
  exact ⟨e, he, eval_writes (postgres_eval_ok.mp hev) w hwe⟩

theorem AccountLost.touched (h : AccountLost tx) (hok : Each (Executed (feedEnv step) st₀ log) [] tx)
    (hord : tx.Pairwise fun e e' => e.seen ≤ e'.seen) : ∃ k, Touched log tx k := by
  obtain ⟨pre, mid, ids, versions, id, v, e₁, e₂, rfl, h₁, hid, hv, h₂, hws⟩ := h
  have hsplit := hok
  rw [show pre ++ e₁ :: (mid ++ [e₂]) = (pre ++ e₁ :: mid) ++ [e₂] by simp, each_append, each_append] at hsplit
  obtain ⟨⟨hpre, hex₁, hmid⟩, hex₂, -⟩ := hsplit
  obtain ⟨st₁, b₁, c₁, hm₁, hev₁⟩ := hex₁
  obtain ⟨st₂, b₂, c₂, hm₂, hev₂⟩ := hex₂
  have hle : e₁.seen ≤ e₂.seen := by
    have hcons := (List.pairwise_append.mp hord).2.1
    exact (List.pairwise_cons.mp hcons).1 e₂ (by simp)
  have hall : Each (Executed (feedEnv step) st₀ log) [] (pre ++ e₁ :: mid) := by
    rw [show pre ++ e₁ :: (mid ++ [e₂]) = (pre ++ e₁ :: mid) ++ [e₂] by simp, each_append] at hok
    exact hok.1
  have own {ws : List Write} (hsub : ∀ w ∈ ws, w ∈ writesOf (D := postgres) (pre ++ e₁ :: mid)) (st : Store) :
      (st.after ws).accounts.find id = st.accounts.find id := by
    apply st.after_eq fun st => st.accounts.find id
    intro w hw st
    apply account_frame
    obtain ⟨e, he, hwe⟩ := executed_writes hall (hsub w hw)
    exact hws e he w hwe
  obtain ⟨hversions, -⟩ := eval_selectAccountVersions.mp (h₁.eval (postgres_eval_ok.mp hev₁))
  rw [hversions, lookup_accountVersions, if_pos hid] at hv
  obtain ⟨a, ha, hav⟩ := Option.map_eq_some_iff.mp hv
  have ha₁ : st₁.accounts.find id = some a := by
    rw [← ha]
    refine (own ?_ st₁).symm
    intro w hw
    rw [writesOf_append]
    exact List.mem_append_left _ hw
  rcases eval_updateAccountVersion.mp (h₂.eval (postgres_eval_ok.mp hev₂)) with ⟨hf, -⟩ | ⟨-, -, hmoved⟩
  · cases hf
  · have hne : st₂.accounts.find id ≠ st₁.accounts.find id := by
      intro heq
      refine hmoved a ?_ hav
      rw [← ha₁, ← heq]
      exact own (fun w hw => hw) st₂
    obtain ⟨k, c, hk₁, hk₂, hc, hlock⟩ := touched_between (fun st => st.accounts.find id) (.account id)
      (fun w st hl => account_frame hl) (fun _ _ => rfl) hm₁.past hm₂.past hle hne
    have hrow : RowKey.account id ∈ rowsRead (pre ++ e₁ :: (mid ++ [e₂])) :=
      h₁.rowsRead (by simp) (List.mem_map_of_mem hid)
    exact ⟨k, c, e₁, e₂, .account id, hc, by simp, by simp, hk₁, hk₂, hrow, hlock⟩

theorem version_after {id : Uuid} {row : PaymentRow} {ws : List Write} (h : ∀ w ∈ ws, ∀ i s, w ≠ .setStatus i s) :
    (ws.foldl (fun row w => w.onRow id row) row).version = row.version := by
  induction ws generalizing row with
  | nil => rfl
  | cons w ws ih =>
    rw [List.foldl_cons, ih fun w' hw' => h w' (List.mem_cons_of_mem _ hw')]
    cases w with
    | setStatus i s => exact absurd rfl (h _ List.mem_cons_self i s)
    | setFxDetails i rate n =>
      rw [Write.onRow]
      split <;> rfl
    | _ => rfl

/-- Where an attempt that has lost its payment read it, and where it found it moved. -/
theorem PaymentLost.moments {id : Uuid} {toStatus : PaymentStatus} (h : PaymentLost id toStatus tx)
    (hok : Each (Executed (feedEnv step) st₀ log) [] tx) (hord : tx.Pairwise fun e e' => e.seen ≤ e'.seen) :
    ∃ row e₁ e₂ st₁ st₂, e₁ ∈ tx ∧ e₂ ∈ tx ∧ e₁.seen ≤ e₂.seen ∧ e₂.seen ≤ log.length ∧
      History (feedEnv step) st₀ (log.take e₁.seen) st₁ ∧ History (feedEnv step) st₀ (log.take e₂.seen) st₂ ∧
      Did (.selectPayment id) (some row) e₁ ∧ st₁.payments.find id = some row ∧
      toStatus ∈ allowedTransitions row.status ∧
      ∀ row', st₂.payments.find id = some row' → row'.version ≠ row.version := by
  obtain ⟨row, mid, e₁, e₂, rfl, h₁, hallowed, h₂, hws⟩ := h
  obtain ⟨hex₁, hrest⟩ := hok
  rw [List.nil_append, each_append] at hrest
  obtain ⟨hmid, hex₂, -⟩ := hrest
  have hread : writesOf [e₁] = ([] : List Write) := by
    obtain ⟨st, b, c, -, hev⟩ := hex₁
    obtain ⟨-, hws₁⟩ := eval_selectPayment.mp (h₁.eval (postgres_eval_ok.mp hev))
    simp [hws₁]
  obtain ⟨st₁, b₁, c₁, hm₁, hev₁⟩ := hex₁
  obtain ⟨st₂, b₂, c₂, hm₂, hev₂⟩ := hex₂
  obtain ⟨hrow, -⟩ := eval_selectPayment.mp (h₁.eval (postgres_eval_ok.mp hev₁))
  have hle : e₁.seen ≤ e₂.seen := (List.pairwise_cons.mp hord).1 e₂ (by simp)
  refine ⟨row, e₁, e₂, st₁, st₂, by simp, by simp, hle, hm₂.le, hm₁.past, hm₂.past, h₁, hrow.symm, hallowed, ?_⟩
  intro row' hrow' hversion
  rcases eval_updatePaymentStatus.mp (h₂.eval (postgres_eval_ok.mp hev₂)) with ⟨hf, -⟩ | ⟨-, -, hmoved⟩
  · cases hf
  · refine hmoved _ (payment_after _ hrow') ?_
    rw [version_after]
    · exact hversion
    · intro w hw i s
      rw [writesOf_append, hread, List.nil_append] at hw
      obtain ⟨e, he, hwe⟩ := executed_writes hmid hw
      exact hws e he w hwe i s

theorem PaymentLost.touched {id : Uuid} {toStatus : PaymentStatus} (h : PaymentLost id toStatus tx)
    (hok : Each (Executed (feedEnv step) st₀ log) [] tx) (hord : tx.Pairwise fun e e' => e.seen ≤ e'.seen) :
    ∃ k, Touched log tx k := by
  obtain ⟨row, e₁, e₂, st₁, st₂, hmem₁, hmem₂, hle, -, hh₁, hh₂, h₁, hrow, -, hmoved⟩ := h.moments hok hord
  have hne : st₂.payments.find id ≠ st₁.payments.find id := by
    intro heq
    rw [hrow] at heq
    exact hmoved row heq rfl
  obtain ⟨k, c, hk₁, hk₂, hc, hlock⟩ := touched_between (fun st => st.payments.find id) (.payment id)
    (fun w st hl => payment_frame hl) (fun _ _ => rfl) hh₁ hh₂ hle hne
  exact ⟨k, c, e₁, e₂, .payment id, hc, hmem₁, hmem₂, hk₁, hk₂,
    h₁.rowsRead hmem₁ (List.mem_singleton_self _), hlock⟩

end Touched

def AppError.isConflict : AppError → Bool
  | .concurrentModification _ _ => true
  | .concurrentPaymentModification _ _ => true
  | _ => false

def Call.maxAttempts : Call → ℕ
  | .authorisePayment _ n => n
  | .failPayment _ _ n => n
  | .settlePayment _ n => n
  | .reversePayment _ n => n
  | .postJournalEntry _ n => n
  | _ => 0

section Calls

variable {ok : List (Event postgres) → Event postgres → Prop} {bad : List (Event postgres) → Stmt → AppError → Prop}
  {rt : Runtime} {call : Call} {done : List (Attempt postgres)} {tx : List (Event postgres)} {p : App Value}

/-- What a call that posts has lived through: the attempts that have lost an account or the payment, and
at most one more. It raises a conflict after as many attempts as it may make. -/
structure Contested (ok : List (Event postgres) → Event postgres → Prop) (call : Call)
    (failed : List (List (Event postgres))) (rest : List (Attempt postgres)) (tx : List (Event postgres))
    (p : App Value) : Prop where
  lost : ∀ t ∈ failed, (AccountLost t ∨ ∃ id toStatus, PaymentLost id toStatus t) ∧ Each ok [] t
  last : (attemptsOf (rest.map Attempt.tx ++ [tx])).length ≤ 1
  raised : ∀ e, p = .raise e → e.isConflict = true → failed.length = call.maxAttempts ∧ rest = []

theorem contested_retry {β : Type} {attempt : App (Option β)} {exhausted : AppError} {wrap : β → Value}
    (hcl : Closes (·.isSome) (· = none) attempt) (hr : Raises (fun e : AppError => e.isConflict = false) attempt)
    (hbad : ∀ tx s e, bad tx s e → e.isConflict = false)
    (hlost : ∀ t, Path attempt t (.rollback (.ret none)) → AccountLost t ∨ ∃ id toStatus, PaymentLost id toStatus t)
    (h : Lived ok bad ((retry attempt exhausted call.maxAttempts).bind fun v => .ret (wrap v)) done tx p) :
    ∃ failed rest, done = undone failed ++ rest ∧ Contested ok call failed rest tx p := by
  obtain ⟨failed, rest, rfl, hstate⟩ := lived_retry hcl exhausted wrap call.maxAttempts h
  refine ⟨failed, rest, rfl, ?_, hstate.last, ?_⟩
  · intro t ht
    obtain ⟨hp, hok⟩ := hstate.conflicts t ht
    exact ⟨hlost t hp, hok⟩
  · intro e he hconflict
    rcases hstate.raised e he with ⟨-, hlen, hrest⟩ | ⟨t, -, -, hfails⟩
    · exact ⟨hlen, hrest⟩
    · have hno : e.isConflict = false := by
        rcases hfails with hp | ⟨s, k, -, hb⟩
        · exact hr.path hp
        · exact hbad _ _ _ hb
      rw [hno] at hconflict
      cases hconflict

theorem call_contested (hbad : ∀ tx s e, bad tx s e → e.isConflict = false) (hc : call.postsEntry = true)
    (h : Lived ok bad (call.prog rt) done tx p) :
    ∃ failed rest, done = undone failed ++ rest ∧ Contested ok call failed rest tx p := by
  cases call with
  | postJournalEntry entry n =>
    rw [Call.prog, postJournalEntry, Prog.bind_eq, Prog.bind_eq, Prog.bind_assoc] at h
    cases hv : validateJournalEntry entry.lines with
    | error e =>
      rw [hv] at h
      obtain ⟨rfl, rfl, rfl⟩ := lived_raise h
      refine ⟨[], [], rfl, by simp, by simp [attemptsOf], ?_⟩
      intro e' he' hconflict
      cases he'
      cases hconflict
    | ok u =>
      rw [hv] at h
      apply contested_retry (closes_postJournalEntryAttempt rt entry) _ hbad _ h
      · exact raises_postJournalEntryAttempt (fun _ => rfl) fun _ => rfl
      · intro t ht
        exact .inl (path_postJournalEntryAttempt_lost ht)
  | settlePayment id n =>
    apply contested_retry
      (closes_transitionWithLedgerEntryAttempt rt id .settled plain_settlementLines) _ hbad _ h
    · exact raises_transitionWithLedgerEntryAttempt
        (fun p => raises_settlementLines (fun _ => rfl) (fun _ _ => rfl) fun _ => rfl)
        rfl (fun _ => rfl) (fun _ => rfl) (fun _ => rfl) fun _ => rfl
    · intro t ht
      rcases path_transitionWithLedgerEntryAttempt_lost plain_settlementLines
        (fun _ _ _ => settlementLines_writes) ht with hl | hl
      · exact .inl hl
      · exact .inr ⟨id, .settled, hl⟩
  | reversePayment id n =>
    apply contested_retry
      (closes_transitionWithLedgerEntryAttempt rt id .reversed plain_reversalLines) _ hbad _ h
    · exact raises_transitionWithLedgerEntryAttempt (fun p => raises_reversalLines fun _ => rfl)
        rfl (fun _ => rfl) (fun _ => rfl) (fun _ => rfl) fun _ => rfl
    · intro t ht
      rcases path_transitionWithLedgerEntryAttempt_lost plain_reversalLines
        (fun _ _ _ => reversalLines_writes) ht with hl | hl
      · exact .inl hl
      · exact .inr ⟨id, .reversed, hl⟩
  | _ => cases hc

end Calls

section Run

variable {ι : Type} {rt : Runtime} {step : Feed → Feed → Prop} {st₀ : Store} {clock : ℕ}
  {calls : ι → Call} {σ : Config postgres ι Value} {past : ι → List (List (Event postgres))}

/-- The commit number `k` is another caller's, it falls between two statements of the transaction, and
it has written a row whose version the transaction has read. -/
def Interfered (log : List (Commit postgres ι)) (i : ι) (tx : List (Event postgres)) (k : ℕ) : Prop :=
  Touched log tx k ∧ ∀ c, log[k]? = some c → c.caller ≠ i

theorem Touched.lt {log : List (Commit postgres ι)} {tx tx' : List (Event postgres)} {k k' : ℕ}
    (h : Touched log tx k) (h' : Touched log tx' k') (hord : ∀ e ∈ tx, ∀ e' ∈ tx', e.seen ≤ e'.seen) : k < k' := by
  obtain ⟨-, -, e, -, -, -, he, -, hk, -⟩ := h
  obtain ⟨-, e', -, -, -, he', -, hk', -⟩ := h'
  have hle := hord e he e' he'
  omega

theorem lost_ne_nil {t : List (Event postgres)} (h : AccountLost t ∨ ∃ id toStatus, PaymentLost id toStatus t) :
    t ≠ [] := by
  rcases h with ⟨pre, mid, ids, versions, id, v, e₁, e₂, rfl, -⟩ | ⟨id, toStatus, row, mid, e₁, e₂, rfl, -⟩ <;> simp

theorem attemptsOf_undone {failed : List (List (Event postgres))} (h : ∀ t ∈ failed, t ≠ []) :
    attemptsOf ((undone failed).map Attempt.tx) = failed := by
  induction failed with
  | nil => rfl
  | cons t failed ih =>
    have ht := h t List.mem_cons_self
    have hrest := ih fun t' ht' => h t' (List.mem_cons_of_mem _ ht')
    have hcons : (undone (t :: failed)).map Attempt.tx = t :: [] :: (undone failed).map Attempt.tx := rfl
    rw [attemptsOf] at hrest
    rw [hcons, attemptsOf, List.filter_cons_of_pos (by simpa using ht), List.filter_cons_of_neg (by simp), hrest]

theorem committedOf_undone (failed : List (List (Event postgres))) : committedOf (undone failed) = [] := by
  induction failed with
  | nil => rfl
  | cons t failed ih => exact ih

theorem eventsOf_undone (failed : List (List (Event postgres))) : eventsOf (undone failed) = failed.flatten := by
  induction failed with
  | nil => rfl
  | cons t failed ih =>
    have hcons : eventsOf (undone (t :: failed)) = t ++ ([] ++ eventsOf (undone failed)) := rfl
    rw [hcons, ih, List.nil_append, List.flatten_cons]

theorem split_before {α : Type} {xs ys l l' : List α} {a : α} (h : xs ++ ys = l ++ a :: l') (hy : ys.length ≤ 1)
    (hl : l' ≠ []) : ∃ m, xs = l ++ a :: m := by
  rcases List.append_eq_append_iff.mp h with ⟨m, rfl, hm⟩ | ⟨m, rfl, hm⟩
  · have hlen := congrArg List.length hm
    have hpos := List.length_pos_iff.mpr hl
    simp only [List.length_append, List.length_cons] at hlen
    omega
  · cases m with
    | nil =>
      have hlen := congrArg List.length hm
      have hpos := List.length_pos_iff.mpr hl
      simp only [List.nil_append, List.length_cons] at hlen
      omega
    | cons b m =>
      rw [List.cons_append] at hm
      obtain ⟨rfl, -⟩ := List.cons_eq_cons.mp hm
      exact ⟨m, rfl⟩

theorem refused_conflict {log : List (Commit postgres ι)} {tx : List (Event postgres)} {s : Stmt} {e : AppError}
    (h : Refused (feedEnv step) st₀ log tx s e) : e.isConflict = false := by
  obtain ⟨st, n, b, c, -, he⟩ := h
  obtain ⟨r, -, hr⟩ := Option.map_eq_some_iff.mp he
  cases r with
  | ok x => cases hr
  | error e' =>
    cases hr
    rfl

variable [DecidableEq ι]

/-- The calls that post never conflict without a cause: an attempt that another one follows has been
interfered with while it ran, and a call that raises a conflict has made all of its attempts, each
interfered with by a commit of its own. -/
theorem no_spurious_conflicts (h : Runs (feedEnv step) (System rt st₀ clock calls) σ past) {i : ι}
    (hc : (calls i).postsEntry = true) {p : App Value} (hp : (σ.session i).prog = some p) :
    (∀ l tx l', past i ++ attemptsOf [(σ.session i).tx] = l ++ tx :: l' → l' ≠ [] →
      ∃ k, Interfered σ.world.log i tx k) ∧
    ∀ e, p = .raise e → e.isConflict = true → (past i).length = (calls i).maxAttempts ∧
      ∃ ks, List.Forall₂ (fun tx k => Interfered σ.world.log i tx k) (past i) ks ∧ ks.Pairwise (· < ·) := by
  have hwf := reaches_wellFormed h.reaches
  obtain ⟨done, hlived, hpast, hown, hord⟩ := h.recalled i hp
  obtain ⟨failed, rest, rfl, hlost, hlast, hraised⟩ := call_contested (fun _ _ _ => refused_conflict) hc hlived
  have hfailed : past i = failed ++ attemptsOf (rest.map Attempt.tx) := by
    rw [hpast, List.map_append, attemptsOf_append, attemptsOf_undone fun t ht => lost_ne_nil (hlost t ht).1]
  rw [eventsOf_append, eventsOf_undone, List.append_assoc, List.pairwise_append] at hord
  obtain ⟨hordered, -, hlater⟩ := hord
  obtain ⟨hwithin, hbetween⟩ := List.pairwise_flatten.mp hordered
  have interfered : ∀ t ∈ failed, ∃ k, Interfered σ.world.log i t k := by
    intro t ht
    obtain ⟨hlose, hok⟩ := hlost t ht
    have htouched : ∃ k, Touched σ.world.log t k := by
      rcases hlose with hl | ⟨id, toStatus, hl⟩
      · exact hl.touched hok (hwithin t ht)
      · exact hl.touched hok (hwithin t ht)
    obtain ⟨k, hk⟩ := htouched
    refine ⟨k, hk, ?_⟩
    -- its own commit would come after all of its failed attempts
    intro c hkc hcaller
    obtain ⟨c', e, e', row, hkc', he, he', hek, hke, -, hlock⟩ := hk
    obtain rfl : c = c' := Option.some.inj (hkc.symm.trans hkc')
    obtain ⟨hlt, hget⟩ := List.getElem?_eq_some_iff.mp hkc
    have hsplit : σ.world.log = σ.world.log.take k ++ c :: σ.world.log.drop (k + 1) := by
      rw [← hget, List.cons_getElem_drop_succ, List.take_append_drop]
    have hmem : c ∈ σ.world.log := List.mem_of_getElem? hkc
    have hownc : c.tx ∈ committedOf (undone failed ++ rest) := by
      rw [hown, ← hcaller]
      exact mem_ownOf hmem
    rw [committedOf_append, committedOf_undone, List.nil_append] at hownc
    obtain ⟨l₁, l₂, hrest⟩ := mem_committedOf hownc
    obtain ⟨w, hw, -⟩ := List.mem_filterMap.mp hlock
    obtain ⟨x, hx, -⟩ := List.mem_flatMap.mp hw
    have hafter : e'.seen ≤ x.seen := by
      apply hlater e' (List.mem_flatten.mpr ⟨t, ht, he'⟩) x
      rw [hrest]
      simp [eventsOf, hx]
    obtain ⟨-, hrec, -⟩ := hwf.committed _ c _ hsplit
    obtain ⟨pre, st, hev⟩ := hrec.evaluated.of_mem hx
    have hseen := hev.seen
    rw [List.length_take] at hseen
    omega
  refine ⟨?_, ?_⟩
  · intro l tx l' hl hne
    rw [hfailed, List.append_assoc, ← attemptsOf_append] at hl
    obtain ⟨m, hm⟩ := split_before hl hlast hne
    apply interfered
    rw [hm]
    simp
  · intro e he hconflict
    obtain ⟨hlen, rfl⟩ := hraised e he hconflict
    have hall : past i = failed := by rw [hfailed]; exact List.append_nil _
    rw [hall]
    refine ⟨hlen, ?_⟩
    have hchoice : ∀ t, ∃ k, t ∈ failed → Interfered σ.world.log i t k := by
      intro t
      by_cases ht : t ∈ failed
      · obtain ⟨k, hk⟩ := interfered t ht
        exact ⟨k, fun _ => hk⟩
      · exact ⟨0, fun hmem => absurd hmem ht⟩
    choose f hf using hchoice
    refine ⟨failed.map f, ?_, ?_⟩
    · rw [List.forall₂_map_right_iff, List.forall₂_same]
      exact hf
    · rw [List.pairwise_map]
      apply hbetween.imp_of_mem
      intro t t' ht ht' hle
      exact (hf t ht).1.lt (hf t' ht').1 hle

/-- Two callers post on the same accounts, the second one while the first is between its read and its bumps. -/
def rivals : Fin 2 → Call := fun _ => .postJournalEntry sampleEntry 1

def rivalSchedule : List (Fin 2 × Choice) :=
  List.replicate 4 (0, { id := 70 }) ++ List.replicate 8 (1, { id := 71 }) ++ List.replicate 3 (0, { id := 70 })

theorem no_spurious_conflicts_posted : ∃ σ past, Runs (feedEnv fun _ _ => False)
    (System sampleRuntime sampleStore 0 rivals) σ past ∧
    (σ.session 0).prog = some (.raise (.concurrentModification [1, 2] 1)) ∧ (past 0).length = 1 ∧
    ∃ ks, List.Forall₂ (fun tx k => Interfered σ.world.log 0 tx k) (past 0) ks ∧ ks.Pairwise (· < ·) := by
  obtain ⟨σ, hσ⟩ := Option.isSome_iff_exists.mp (by decide +kernel :
    ((System sampleRuntime sampleStore 0 rivals).run rivalSchedule).isSome = true)
  have hresult : ((System sampleRuntime sampleStore 0 rivals).run rivalSchedule).bind
      (fun σ => (σ.session 0).result) = some (.error (.concurrentModification [1, 2] 1)) := by decide +kernel
  rw [hσ, Option.bind_some] at hresult
  have hraised := result_error.mp hresult
  obtain ⟨past, hruns⟩ := reaches_runs (run_reaches (D := postgres) (feedEnv fun _ _ => False) rivalSchedule hσ)
  obtain ⟨-, hconflict⟩ := no_spurious_conflicts hruns (i := 0) rfl hraised
  exact ⟨σ, past, hruns, hraised, hconflict _ rfl rfl⟩

end Run
end PaymentLedger
