import PaymentLedger.Payments.Locking
import PaymentLedger.Payments.Requests
import PaymentLedger.Services.Rules
import PaymentLedger.Transaction.Deadlocks

namespace PaymentLedger

/-- The rows of `accounts` and of `payments`. -/
def RowKey.shared : RowKey → Bool
  | account _ => true
  | payment _ => true
  | _ => false

/-- The rows that two callers can meet at; the others have the fresh id of their statement. -/
def RowKey.contended : RowKey → Bool
  | account _ => true
  | payment _ => true
  | idempotencyKey _ _ => true
  | _ => false

/-- The account whose version the session is about to bump. -/
def Session.bumping (s : Session postgres Value) : Option (Uuid × ℕ) :=
  match s.prog with
  | some (.exec (.updateAccountVersion id v) _) => some (id, v)
  | _ => none

theorem bumping_iff {s : Session postgres Value} {id : Uuid} {v : ℕ} :
    s.bumping = some (id, v) ↔ ∃ k, s.prog = some (.exec (.updateAccountVersion id v) k) := by
  unfold Session.bumping
  split
  · rename_i id' v' k hp
    rw [hp]
    constructor
    · intro h
      cases h
      exact ⟨k, rfl⟩
    · rintro ⟨k', hk⟩
      cases hk
      rfl
  · rename_i hno
    constructor
    · intro h
      cases h
    · rintro ⟨k, hk⟩
      exact absurd hk (hno id v k)

section Locks

variable {s : Stmt} {w : Write} {row : RowKey}

theorem quiet_unshared (hs : s.Quiet) (hw : s.Writes w) (hl : w.locked = some row) : row.shared = false := by
  cases w with
  | bumpAccount id => cases s <;> simp_all [Stmt.Quiet, Stmt.locking, Stmt.Writes]
  | insertPayment r => cases s <;> simp_all [Stmt.Quiet, Stmt.locking, Stmt.Writes]
  | setStatus id status => cases s <;> simp_all [Stmt.Quiet, Stmt.locking, Stmt.Writes]
  | setFxDetails id rateId amount => cases s <;> simp_all [Stmt.Quiet, Stmt.locking, Stmt.Writes]
  | _ => cases hl <;> rfl

/-- Whether the row is an idempotency key. -/
def RowKey.keyed : RowKey → Bool
  | idempotencyKey _ _ => true
  | _ => false

theorem keyless_unkeyed (hs : s.Keyless) (hw : s.Writes w) (hl : w.locked = some row) : row.keyed = false := by
  cases w with
  | insertKey r => cases s <;> simp_all [Stmt.Keyless, Stmt.keying, Stmt.Writes]
  | completeKey endpoint key code body => cases s <;> simp_all [Stmt.Keyless, Stmt.keying, Stmt.Writes]
  | _ => cases hl <;> rfl

theorem bumps_writes (hs : s.Bumps) (hw : s.Writes w) : ∃ id, w = .bumpAccount id := by
  obtain ⟨id, v, rfl⟩ := hs
  exact ⟨id, hw⟩

theorem books_writes {id : Uuid} (hs : s.Books id) (hw : s.Writes w) :
    ∃ rateId n, w = .setFxDetails id rateId n := by
  obtain ⟨rateId, amount, rfl⟩ := hs
  obtain ⟨n, hn⟩ := hw
  exact ⟨rateId, n, hn⟩

theorem books_of_writes {id rateId : Uuid} {n : Numeric 2} (h : s.Writes (.setFxDetails id rateId n)) :
    ∃ amount, s = .updateFxDetails id rateId amount := by
  cases s <;> simp_all [Stmt.Writes]

variable {b : ℕ} {tx : List (Event postgres)} {id : Uuid}

theorem mem_locksOf : row ∈ locksOf tx ↔ ∃ w ∈ writesOf tx, w.locked = some row := List.mem_filterMap

/-- A posting locks no payment. -/
theorem Posts.payment_free (h : Posts tx) (hr : Ran b tx) (hw : w ∈ writesOf tx) :
    w.locked ≠ some (.payment id) := by
  intro hl
  obtain ⟨e, he, -, hwrites⟩ := hr.writes hw
  rcases h e he with hquiet | hbumps
  · exact absurd (quiet_unshared hquiet hwrites hl) (by simp [RowKey.shared])
  · obtain ⟨a, rfl⟩ := bumps_writes hbumps hwrites
    cases hl

/-- A conversion locks one payment, by its FX details. -/
theorem Exchanges.payment_lock (h : Exchanges tx id) (hr : Ran b tx) (hw : w ∈ writesOf tx) {p : Uuid}
    (hl : w.locked = some (.payment p)) : p = id ∧ ∃ rateId n, w = .setFxDetails id rateId n := by
  obtain ⟨row, debtor, creditor, hread, -, -, hall⟩ := h.read
  obtain ⟨e₀, he₀, ws, n, rfl⟩ := hread.payment
  obtain ⟨st, c, hev⟩ := hr _ he₀
  have hid : row.id = id := Table.find_key (eval_selectPayment.mp hev).1.symm
  obtain ⟨e, he, -, hwrites⟩ := hr.writes hw
  rcases hall e he with hquiet | hbumps | hbooks
  · exact absurd (quiet_unshared hquiet hwrites hl) (by simp [RowKey.shared])
  · obtain ⟨a, rfl⟩ := bumps_writes hbumps hwrites
    cases hl
  · obtain ⟨rateId, m, rfl⟩ := books_writes hbooks hwrites
    cases hl
    exact ⟨hid, rateId, m, by rw [hid]⟩

/-- Neither a posting nor a conversion creates a payment. -/
theorem uncreated {tx : List (Event postgres)} (h : Posts tx ∨ ∃ id, Exchanges tx id)
    (hr : Ran b tx) (r : PaymentRow) :
    .insertPayment r ∉ writesOf tx := by
  intro hw
  rcases h with hposts | ⟨id, hexchanges⟩
  · exact hposts.payment_free hr hw rfl
  · obtain ⟨-, rateId, n, hset⟩ := hexchanges.payment_lock hr hw rfl
    cases hset

end Locks

section Reads

variable {ι : Type} {step : Feed → Feed → Prop} {st₀ st st' : Store} {log : List (Commit postgres ι)} {b : ℕ}
  {tx : List (Event postgres)} {e : Event postgres} {id : Uuid}

/-- Where a statement of an open transaction was evaluated. -/
theorem Recorded.past (h : Recorded (feedEnv step) st₀ log st b tx) (he : e ∈ tx) :
    ∃ pre post st' c l, tx = pre ++ e :: post ∧ l <+: log ∧ History (feedEnv step) st₀ l st' ∧
      (∃ l' : List (Commit postgres ι), History (feedEnv step) st' l' st) ∧
      Stmt.eval (st'.after (writesOf pre)) b c e.stmt = some (.ok (e.res, e.writes)) := by
  obtain ⟨pre, post, rfl⟩ := List.append_of_mem he
  have hall := h.evaluated
  rw [each_append] at hall
  obtain ⟨-, ⟨st', hev⟩, -⟩ := hall
  obtain ⟨c, hc⟩ := hev.eval
  exact ⟨pre, post, st', c, _, rfl, List.take_prefix e.seen log, hev.past, ⟨_, hev.since⟩, postgres_eval_ok.mp hc⟩

theorem History.payment_fixed {row : PaymentRow} (h : History (feedEnv step) st log st')
    (hrow : st.payments.find id = some row) : ∃ row', st'.payments.find id = some row' ∧
    row'.fixed = row.fixed := by
  rw [h.eq_after]
  exact (Later.after st (logWrites log)).payments id row hrow

theorem History.currencyOf (h : History (feedEnv step) st log st') (id : Uuid) :
    st'.currencyOf id = st.currencyOf id := by
  rw [h.eq_after]
  exact (Later.after st (logWrites log)).currencyOf id

/-- A payment that the transaction has read and not created is there, and has kept what it keeps for ever. -/
theorem Recorded.payment_read {row : PaymentRow} (h : Recorded (feedEnv step) st₀ log st b tx)
    (hw : ∀ r, .insertPayment r ∉ writesOf tx) (he : e ∈ tx) (hd : Did (.selectPayment id) (some row) e) :
    row.id = id ∧ ∃ row', st.payments.find id = some row' ∧ row'.fixed = row.fixed := by
  obtain ⟨pre, post, st', c, l, rfl, -, -, ⟨l', hsince⟩, hev⟩ := h.past he
  have hfind := (eval_selectPayment.mp (hd.eval hev)).1.symm
  have hthere : st'.hasPayment id = true := by
    have hthere : (st'.after (writesOf pre)).hasPayment id = true := by simp [Store.hasPayment, hfind]
    rcases (hasPayment_after _).mp hthere with hthere | ⟨r, hr, -⟩
    · exact hthere
    · exact absurd (by simp [hr]) (hw r)
  obtain ⟨row₀, hrow₀⟩ := Option.isSome_iff_exists.mp hthere
  obtain ⟨row₁, hrow₁, hfixed₁⟩ := (Later.after st' (writesOf pre)).payments id row₀ hrow₀
  obtain rfl : row₁ = row := by simpa [hrow₁] using hfind
  obtain ⟨row', hrow', hfixed'⟩ := hsince.payment_fixed hrow₀
  exact ⟨Table.find_key hfind, row', hrow', hfixed'.trans hfixed₁.symm⟩

theorem Recorded.account_read {a : Account} (h : Recorded (feedEnv step) st₀ log st b tx) (he : e ∈ tx)
    (hd : Did (.selectAccount id) (some a) e) : st.currencyOf id = some a.currency := by
  obtain ⟨pre, post, st', c, l, rfl, -, -, ⟨l', hsince⟩, hev⟩ := h.past he
  have hfind := (eval_selectAccount.mp (hd.eval hev)).1.symm
  rw [hsince.currencyOf, ← (Later.after st' (writesOf pre)).currencyOf, Store.currencyOf, hfind]
  rfl

theorem History.historyOf {x : StatusHistoryRow} (h : History (feedEnv step) st log st')
    (hx : x ∈ st.historyOf id) :
    x ∈ st'.historyOf id := by
  have hrows : st'.statusHistory = st.statusHistory ++ (logWrites log).filterMap Write.historyRow := by
    rw [h.eq_after]
    exact history_after
  rw [Store.historyOf, List.mem_filter] at hx ⊢
  rw [hrows]
  exact ⟨List.mem_append_left _ hx.1, hx.2⟩

end Reads

section Run

variable {ι : Type} [DecidableEq ι] {rt : Runtime} {step : Feed → Feed → Prop} {st₀ : Store} {calls : ι → Call}
  {σ : Config postgres ι Value} {i j : ι} {id : Uuid} {e : Event postgres} {row : PaymentRow}

/-- A payment that the open transaction has read as settled, and has not locked, is no longer authorised. -/
theorem WellFormed.left_authorised (h : WellFormed (feedEnv step) st₀ (fun i => (calls i).prog rt) σ)
    (h₀ : Fresh st₀)
    (hw : ∀ w ∈ writesOf (σ.session i).tx, w.locked ≠ some (.payment id)) (he : e ∈ (σ.session i).tx)
    (hd : Did (.selectPayment id) (some row) e) (hs : row.status = .settled) {row' : PaymentRow}
    (hrow' : σ.world.store.payments.find id = some row') : row'.status ≠ .authorised := by
  obtain ⟨pre, post, st', c, l, htx, hpre, hpast, ⟨l', hsince⟩, hev⟩ := (h.recorded i).past he
  have hfind := (eval_selectPayment.mp (hd.eval hev)).1.symm
  have hsame : (st'.after (writesOf pre)).payments.find id = st'.payments.find id := by
    apply st'.after_eq fun st => st.payments.find id
    intro w hwpre st
    apply payment_frame
    apply hw w
    rw [htx, writesOf_append]
    exact List.mem_append_left _ hwpre
  rw [hsame] at hfind
  have hthen := ((h.lifecycle h₀ hpre hpast).payments id row hfind).chain
  have hnow := ((h.lifecycle h₀ (List.prefix_refl _) h.history).payments id row' hrow').chain
  rw [Table.find_key hfind, hs] at hthen
  rw [Table.find_key hrow'] at hnow
  obtain ⟨x, hx, hstatus⟩ := hthen.reached
  have hle := hnow.rank_le x (hsince.historyOf hx)
  intro hauthorised
  rw [hstatus, hauthorised] at hle
  exact absurd hle (by decide)

/-- The accounts that the open transaction has read of a payment are those of the committed row. -/
theorem WellFormed.hasRead (h : WellFormed (feedEnv step) st₀ (fun i => (calls i).prog rt) σ) {d c : Account}
    (hposting : Posts (σ.session i).tx ∨ ∃ p, Exchanges (σ.session i).tx p)
    (hread : HasRead (σ.session i).tx id row d c) :
    row.id = id ∧ ∃ row', σ.world.store.payments.find id = some row' ∧
      σ.world.store.currencyOf row'.debtorAccountId = some d.currency ∧
      σ.world.store.currencyOf row'.creditorAccountId = some c.currency := by
  have hrec := h.recorded i
  obtain ⟨e, he, hd⟩ := hread.payment
  obtain ⟨hid, row', hrow', hfixed⟩ := hrec.payment_read (uncreated hposting hrec.ran) he hd
  have hdebtor : row'.debtorAccountId = row.debtorAccountId := by
    simpa only [PaymentRow.fixed] using congrArg PaymentRow.debtorAccountId hfixed
  have hcreditor : row'.creditorAccountId = row.creditorAccountId := by
    simpa only [PaymentRow.fixed] using congrArg PaymentRow.creditorAccountId hfixed
  obtain ⟨e₁, he₁, hd₁⟩ := hread.debtor
  obtain ⟨e₂, he₂, hd₂⟩ := hread.creditor
  rw [← hdebtor] at hd₁
  rw [← hcreditor] at hd₂
  exact ⟨hid, row', hrow', hrec.account_read he₁ hd₁, hrec.account_read he₂ hd₂⟩

/-- A conversion has written the FX details of its payment, and so holds it. -/
theorem WellFormed.exchanged (h : WellFormed (feedEnv step) st₀ (fun i => (calls i).prog rt) σ)
    (hx : Exchanges (σ.session i).tx id) : .payment id ∈ locksOf (σ.session i).tx := by
  obtain ⟨row, d, c, hread, -, ⟨pre, ⟨s, r, ws, n⟩, post, htx, ⟨rateId, amount, hs⟩, e', he', hd⟩, -⟩ := hx.read
  obtain rfl : s = .updateFxDetails row.id rateId amount := hs
  have hid : row.id = id := (h.hasRead (.inr ⟨id, hx⟩) hread).1
  have hall := (h.recorded i).witnessed h.paired
  rw [htx, each_append] at hall
  obtain ⟨-, ⟨st, ch, -, hev, hp⟩, -⟩ := hall
  obtain ⟨m, -, ⟨-, -, hws⟩ | ⟨hnone, -⟩⟩ := eval_updateFxDetails.mp hev
  · rw [htx, mem_locksOf]
    refine ⟨.setFxDetails row.id rateId m, ?_, by rw [hid]; rfl⟩
    simp [show ws = _ from hws]
  · have hthere := hp id row ⟨e', he', hd⟩
    rw [hid, hthere] at hnone
    cases hnone

/-- A session that wants a shared row while it holds one is posting: it is about to bump an account, or to move its
payment. -/
theorem WellFormed.wants (h : WellFormed (feedEnv step) st₀ (fun i => (calls i).prog rt) σ) {key held : RowKey}
    (hw : σ.Wants i key) (hkey : key.shared = true) (hheld : held ∈ locksOf (σ.session i).tx)
    (hshared : held.shared = true) :
    (∃ id v, (σ.session i).bumping = some (id, v) ∧ key = .account id ∧
      (Posts (σ.session i).tx ∨ ∃ p, Exchanges (σ.session i).tx p)) ∨
    ∃ id, key = .payment id ∧
      ((Posts (σ.session i).tx ∧ MovesDirectly (σ.session i).tx id) ∨ Exchanges (σ.session i).tx id) := by
  obtain ⟨s, k, c, r, ws, hp, hev, hmem⟩ := hw
  obtain ⟨w, hwmem, hl⟩ := List.mem_filterMap.mp hmem
  have hwrites : Stmt.Writes s w := eval_writes (postgres_eval_ok.mp hev) w hwmem
  have harrives : Arrives (σ.session i).tx s := (h.next hp).arrives
  cases harrives with
  | quiet hs =>
    have hun := quiet_unshared hs hwrites hl
    rw [hkey] at hun
    cases hun
  | first htx =>
    obtain ⟨w', hw', hl'⟩ := mem_locksOf.mp hheld
    obtain ⟨e, he, -, hwrites'⟩ := (h.recorded i).ran.writes hw'
    have hun := quiet_unshared (htx e he) hwrites' hl'
    rw [hshared] at hun
    cases hun
  | @bump id v htx =>
    obtain rfl : w = .bumpAccount id := hwrites
    exact .inl ⟨id, v, bumping_iff.mpr ⟨k, hp⟩, (Option.some.inj hl).symm, htx⟩
  | @move id v toStatus htx =>
    obtain rfl : w = .setStatus id toStatus := hwrites
    exact .inr ⟨id, (Option.some.inj hl).symm, htx⟩

/-- A session on a cycle is posting. -/
theorem WellFormed.posting (h : WellFormed (feedEnv step) st₀ (fun i => (calls i).prog rt) σ)
    (hi : Relation.TransGen (σ.Waits RowKey.shared) i i) : Posts (σ.session i).tx ∨ ∃ p,
    Exchanges (σ.session i).tx p := by
  obtain ⟨held, hheld, hshared⟩ := held_of_cycle hi
  obtain ⟨j, ⟨-, key, hkey, hwants, -⟩, -⟩ := cycle_out hi
  rcases h.wants hwants hkey hheld hshared with ⟨id, v, -, -, hposting⟩ | ⟨id, -, ⟨hposts, -⟩ | hexchanges⟩
  · exact hposting
  · exact .inl hposts
  · exact .inr ⟨id, hexchanges⟩

/-- The FX details that open transactions have written are those of authorised payments. -/
def BooksAuthorised (σ : Config postgres ι Value) : Prop :=
  ∀ i id rateId n, .setFxDetails id rateId n ∈ writesOf (σ.session i).tx →
    ∃ row, σ.world.store.payments.find id = some row ∧ row.status = .authorised

/-- A payment that one session has converted is not about to be moved by another. -/
theorem WellFormed.unmoved (h : WellFormed (feedEnv step) st₀ (fun i => (calls i).prog rt) σ) (h₀ : Fresh st₀)
    (hb : BooksAuthorised σ) (hij : i ≠ j) (hx : Exchanges (σ.session j).tx id) {rateId : Uuid} {n : Numeric 2}
    (hset : .setFxDetails id rateId n ∈ writesOf (σ.session j).tx) :
    ¬((Posts (σ.session i).tx ∧ MovesDirectly (σ.session i).tx id) ∨ Exchanges (σ.session i).tx id) := by
  obtain ⟨row, d, c, hread, hcur, -⟩ := hx.read
  obtain ⟨-, row', hrow', hd, hc⟩ := h.hasRead (.inr ⟨id, hx⟩) hread
  rintro (⟨hposts, ⟨row₁, d₁, c₁, hread₁, hcur₁⟩ | ⟨row₁, hs, e, he, hdid⟩⟩ | hexchanges)
  · obtain ⟨-, row₂, hrow₂, hd₁, hc₁⟩ := h.hasRead (.inl hposts) hread₁
    obtain rfl : row₂ = row' := Option.some.inj (hrow₂.symm.trans hrow')
    have hdebtor := Option.some.inj (hd.symm.trans hd₁)
    have hcreditor := Option.some.inj (hc.symm.trans hc₁)
    exact hcur (by rw [hdebtor, hcreditor, hcur₁])
  · obtain ⟨row₂, hrow₂, hauthorised⟩ := hb j id rateId n hset
    exact h.left_authorised h₀ (fun w hw => hposts.payment_free (h.recorded i).ran hw) he hdid hs hrow₂ hauthorised
  · exact h.locks i j hij _ (h.exchanged hexchanges) (h.exchanged hx)

/-- On a cycle every session is about to bump an account. -/
theorem WellFormed.waits (h : WellFormed (feedEnv step) st₀ (fun i => (calls i).prog rt) σ) (h₀ : Fresh st₀)
    (hb : BooksAuthorised σ) (hi : Relation.TransGen (σ.Waits RowKey.shared) i i)
    (hj : Relation.TransGen (σ.Waits RowKey.shared) j j) (hij : σ.Waits RowKey.shared i j) :
    ∃ id v, (σ.session i).bumping = some (id, v) ∧ .account id ∈ locksOf (σ.session j).tx := by
  obtain ⟨held, hheld, hshared⟩ := held_of_cycle hi
  obtain ⟨hne, key, hkey, hwants, hlock⟩ := hij
  rcases h.wants hwants hkey hheld hshared with ⟨id, v, hbump, rfl, -⟩ | ⟨id, rfl, hmove⟩
  · exact ⟨id, v, hbump, hlock⟩
  · obtain ⟨w, hw, hl⟩ := mem_locksOf.mp hlock
    rcases h.posting hj with hposts | ⟨p, hexchanges⟩
    · exact absurd hl (hposts.payment_free (h.recorded j).ran hw)
    · obtain ⟨rfl, rateId, n, rfl⟩ := hexchanges.payment_lock (h.recorded j).ran hw hl
      exact absurd hmove (h.unmoved h₀ hb hne hexchanges hw)

/-- The accounts that a session has bumped come before the one it is about to bump. -/
def Ascending (rank : Uuid → ℕ) (σ : Config postgres ι Value) : Prop :=
  ∀ i id v, (σ.session i).bumping = some (id, v) → ∀ a, .account a ∈ locksOf (σ.session i).tx → rank a < rank id

/-- The step keeps to one lock order: accounts are bumped in the order of the rank, and FX details are written only
of a payment that is still authorised. -/
structure Orderly (rank : Uuid → ℕ) (σ σ' : Config postgres ι Value) : Prop where
  ascending : Ascending rank σ'
  authorised : ∀ i e id rateId amount, (σ'.session i).tx = (σ.session i).tx ++ [e] →
    e.stmt = .updateFxDetails id rateId amount → ∃ row, σ.world.store.payments.find id = some row ∧
    row.status = .authorised

variable {σ' : Config postgres ι Value} {rank : Uuid → ℕ}

theorem BooksAuthorised.kept (h : WellFormed (feedEnv step) st₀ (fun i => (calls i).prog rt) σ)
    (hb : BooksAuthorised σ)
    (hs : Step (feedEnv step) σ σ') (ho : Orderly rank σ σ') : BooksAuthorised σ' := by
  intro l id rateId n hw
  -- a session that is left with its transaction, or with none, has written nothing new
  have written {W : World postgres ι} {i : ι} {s : Session postgres Value}
      (hw : .setFxDetails id rateId n ∈ writesOf ((Config.set ⟨W, σ.session⟩ i s).session l).tx)
      (hs : s.tx = [] ∨ s.tx = (σ.session i).tx) : .setFxDetails id rateId n ∈ writesOf (σ.session l).tx := by
    by_cases hl : l = i
    · subst hl
      rw [set_self] at hw
      rcases hs with hnil | hsame
      · simp [hnil] at hw
      · rwa [hsame] at hw
    · rwa [set_of_ne _ _ hl] at hw
  cases hs with
  | @exec i s k r ws c hp he hf =>
    by_cases hl : l = i
    · subst hl
      rw [set_self, writesOf_append, List.mem_append] at hw
      rcases hw with hw | hw
      · exact hb l id rateId n hw
      · have hwrites : Stmt.Writes s (.setFxDetails id rateId n) :=
          eval_writes (postgres_eval_ok.mp he) _ (by simpa [writesOf] using hw)
        obtain ⟨amount, hstmt⟩ := books_of_writes hwrites
        exact ho.authorised l ⟨s, r, ws, σ.world.log.length⟩ id rateId amount (by rw [set_self]) hstmt
    · rw [set_of_ne _ _ hl] at hw
      exact hb l id rateId n hw
  | fail c hp he => exact hb l id rateId n (written hw (.inr rfl))
  | @commit i k hp =>
    have hw₀ := written hw (.inl rfl)
    obtain ⟨row, hrow, hauthorised⟩ := hb l id rateId n hw₀
    have hl : l ≠ i := by
      rintro rfl
      simp at hw
    have hsame :
        (σ.world.store.after (writesOf (σ.session i).tx)).payments.find id = σ.world.store.payments.find id := by
      apply σ.world.store.after_eq fun st => st.payments.find id
      intro w hwi st
      apply payment_frame
      intro hlock
      exact h.locks l i hl _ (mem_locksOf.mpr ⟨_, hw₀, rfl⟩) (mem_locksOf.mpr ⟨w, hwi, hlock⟩)
    exact ⟨row, hsame.trans hrow, hauthorised⟩
  | rollback hp => exact hb l id rateId n (written hw (.inl rfl))
  | crash i => exact hb l id rateId n (written hw (.inl rfl))
  | tick ht => exact hb l id rateId n hw
  | env he =>
    obtain ⟨f, -, rfl⟩ := he
    exact hb l id rateId n hw

variable {clock : ℕ}

/-- A run whose steps are orderly. -/
def OrderlyRun (step : Feed → Feed → Prop) (rank : Uuid → ℕ) :
    Config postgres ι Value → Config postgres ι Value → Prop :=
  Relation.ReflTransGen fun σ σ' => Step (feedEnv step) σ σ' ∧ Orderly rank σ σ'

theorem OrderlyRun.reaches (h : OrderlyRun step rank (System rt st₀ clock calls) σ) :
    Reaches (feedEnv step) (System rt st₀ clock calls) σ :=
  Relation.ReflTransGen.mono (fun _ _ hs => hs.1) _ _ h

theorem OrderlyRun.kept (h : OrderlyRun step rank (System rt st₀ clock calls) σ) :
    Ascending rank σ ∧ BooksAuthorised σ := by
  induction h with
  | refl =>
    constructor
    · intro i id v _ a ha
      simp [System, Config.init] at ha
    · intro i id rateId n hw
      simp [System, Config.init] at hw
  | tail hrun hs ih =>
    have hwf := reaches_wellFormed (OrderlyRun.reaches hrun)
    exact ⟨hs.2.ascending, ih.2.kept hwf hs.1 hs.2⟩

theorem OrderlyRun.acyclic (h₀ : Fresh st₀) (h : OrderlyRun step rank (System rt st₀ clock calls) σ) (i : ι) :
    ¬Relation.TransGen (σ.Waits RowKey.shared) i i := by
  have hwf := reaches_wellFormed h.reaches
  obtain ⟨hascending, hb⟩ := h.kept
  refine acyclic_of_rank (fun i => ((σ.session i).bumping.map fun x => rank x.1).getD 0) ?_ i
  intro i j hi hj hij
  obtain ⟨id, v, hbump, hlock⟩ := hwf.waits h₀ hb hi hj hij
  obtain ⟨k, hjk, hk⟩ := cycle_out hj
  obtain ⟨id', v', hbump', -⟩ := hwf.waits h₀ hb hj hk hjk
  simpa only [hbump, hbump', Option.map_some, Option.getD_some] using hascending j id' v' hbump' id hlock

/-- Sessions that keep to one lock order do not wait for each other in a cycle. -/
theorem deadlock_free (h₀ : Fresh st₀) (h : OrderlyRun step rank (System rt st₀ clock calls) σ) :
    ¬σ.Deadlocked RowKey.shared := by
  rintro ⟨i, hi⟩
  exact h.acyclic h₀ i hi

/-- What holds an idempotency key waits for nothing. -/
theorem WellFormed.keyed (h : WellFormed (feedEnv step) st₀ (fun i => (calls i).prog rt) σ) {endpoint key : String}
    (hheld : .idempotencyKey endpoint key ∈ locksOf (σ.session i).tx) {row : RowKey} (hw : σ.Wants i row) :
    row.contended = false := by
  obtain ⟨s, k, c, r, ws, hp, hev, hmem⟩ := hw
  obtain ⟨w, hwmem, hl⟩ := List.mem_filterMap.mp hmem
  have hwrites : Stmt.Writes s w := eval_writes (postgres_eval_ok.mp hev) w hwmem
  have hkey : ¬∀ e ∈ (σ.session i).tx, e.stmt.Keyless := by
    intro hall
    obtain ⟨w', hw', hl'⟩ := mem_locksOf.mp hheld
    obtain ⟨e, he, -, hwrites'⟩ := (h.recorded i).ran.writes hw'
    have hkeyless := keyless_unkeyed (hall e he) hwrites' hl'
    cases hkeyless
  obtain ⟨hquiet, hkeyless⟩ := (h.next hp).keyed hkey
  have hunshared := quiet_unshared hquiet hwrites hl
  have hunkeyed := keyless_unkeyed hkeyless hwrites hl
  cases row with
  | account _ => cases hunshared
  | payment _ => cases hunshared
  | idempotencyKey _ _ => cases hunkeyed
  | _ => rfl

theorem contended_of_shared {row : RowKey} (h : row.shared = true) : row.contended = true := by
  cases row <;> first | rfl | cases h

theorem OrderlyRun.undeadlocked (h₀ : Fresh st₀) (h : OrderlyRun step rank (System rt st₀ clock calls) σ) :
    ¬σ.Deadlocked RowKey.contended := by
  have hwf := reaches_wellFormed h.reaches
  rintro ⟨i, hi⟩
  apply h.acyclic h₀ i
  refine cycle_mono ?_ hi
  rintro i j - hj ⟨hij, row, hrow, hwants, hlock⟩
  refine ⟨hij, row, ?_, hwants, hlock⟩
  -- the one that is waited for waits itself, and so holds no key
  obtain ⟨k, ⟨-, row', hrow', hwants', -⟩, -⟩ := cycle_out hj
  cases row with
  | account _ => rfl
  | payment _ => rfl
  | idempotencyKey endpoint key =>
    rw [hwf.keyed hlock hwants'] at hrow'
    cases hrow'
  | _ => cases hrow

end Run

section Sample

variable {ι : Type} {σ : Config postgres ι Value}

/-- The session waits for a row that the other one holds. -/
def waiting [DecidableEq ι] (σ : Config postgres ι Value) (i j : ι) : Bool :=
  i ≠ j ∧ ∃ key ∈ σ.wanting i { id := 0 }, key.shared = true ∧ key ∈ locksOf (σ.session j).tx

theorem waits_of_waiting [DecidableEq ι] {i j : ι} (h : waiting σ i j = true) : σ.Waits RowKey.shared i j := by
  obtain ⟨hij, key, hkey, hshared, hheld⟩ := of_decide_eq_true h
  exact ⟨hij, key, hshared, wants_of_wanting hkey, hheld⟩

def RowKey.before (id : Uuid) : RowKey → Bool
  | account a => a.toNat < id.toNat
  | _ => true

/-- Each session bumps accounts in the order of their ids. -/
def inOrder [Fintype ι] (σ : Config postgres ι Value) : Bool :=
  ∀ i, ((σ.session i).bumping.all fun x => (locksOf (σ.session i).tx).all (RowKey.before x.1)) = true

theorem ascending_of_inOrder [Fintype ι] (h : inOrder σ = true) : Ascending BitVec.toNat σ := by
  intro i id v hbump a ha
  have hall := of_decide_eq_true h i
  rw [hbump, Option.all_some, List.all_eq_true] at hall
  simpa [RowKey.before] using hall _ ha

/-- And none has written FX details. -/
def orderly [Fintype ι] (σ : Config postgres ι Value) : Bool :=
  inOrder σ && decide (∀ i, ∀ e ∈ (σ.session i).tx, e.stmt.fx = none)

theorem orderly_step [Fintype ι] {σ σ' : Config postgres ι Value} (h : orderly σ' = true) :
    Orderly BitVec.toNat σ σ' := by
  obtain ⟨horder, hfx⟩ := Bool.and_eq_true_iff.mp h
  refine ⟨ascending_of_inOrder horder, ?_⟩
  intro i e id rateId amount htx hs
  have hnone := of_decide_eq_true hfx i e (by simp [htx])
  rw [hs] at hnone
  cases hnone

/-- Two accounts whose ids meet in one slot of a small hash table. -/
def meetingStore : Store :=
  { sampleStore with accounts := ⟨[sampleAccount 1 "DE01" "EUR", sampleAccount 9 "DE09" "EUR"], by decide⟩ }

theorem meetingStore_fresh : Fresh meetingStore := by
  refine ⟨by decide, rfl, rfl, rfl, rfl, rfl, rfl⟩

def tenFrom (debtor creditor : Uuid) : JournalEntry where
  entryType := "transfer"
  lines := [⟨debtor, .debit, cents 1000, "EUR"⟩, ⟨creditor, .credit, cents 1000, "EUR"⟩]

/-- The same transfer twice. -/
def repeated : Fin 2 → Call := fun _ => .postJournalEntry (tenFrom 1 9) 1

/-- The second waits for the account that the first has bumped. -/
def repeatedSchedule : List (Fin 2 × Choice) :=
  List.replicate 5 (0, { id := 70 }) ++ List.replicate 4 (1, { id := 71 })

theorem deadlock_free_repeated : ∃ σ,
    OrderlyRun (fun _ _ => False) BitVec.toNat (System sampleRuntime meetingStore 0 repeated) σ ∧
    σ.Waits RowKey.shared 1 0 ∧ ¬σ.Deadlocked RowKey.shared := by
  have hrun : ((System sampleRuntime meetingStore 0 repeated).tested orderly repeatedSchedule).map
      (fun σ => waiting σ 1 0) = some true := by decide +kernel
  obtain ⟨σ, hσ, hwaiting⟩ := Option.map_eq_some_iff.mp hrun
  have horderly : OrderlyRun (fun _ _ => False) BitVec.toNat (System sampleRuntime meetingStore 0 repeated) σ :=
    tested_reaches orderly_step repeatedSchedule hσ
  exact ⟨σ, horderly, waits_of_waiting hwaiting, deadlock_free meetingStore_fresh horderly⟩

/-- A transfer and its return. -/
def returned : Fin 2 → Call
  | 0 => .postJournalEntry (tenFrom 1 9) 1
  | 1 => .postJournalEntry (tenFrom 9 1) 1

/-- Each of the two has bumped the account that it debits. -/
def returnedSchedule : List (Fin 2 × Choice) :=
  List.replicate 5 (0, { id := 70 }) ++ List.replicate 5 (1, { id := 71 })

theorem returned_deadlocked : Fresh meetingStore ∧ ∃ σ,
    Reachable sampleRuntime (fun _ _ => False) meetingStore returned σ ∧
    σ.Deadlocked RowKey.shared := by
  refine ⟨meetingStore_fresh, ?_⟩
  have hrun : ((System sampleRuntime meetingStore 0 returned).run returnedSchedule).map
      (fun σ => waiting σ 0 1 && waiting σ 1 0) = some true := by decide +kernel
  obtain ⟨σ, hσ, hcrossed⟩ := Option.map_eq_some_iff.mp hrun
  obtain ⟨h, h'⟩ := Bool.and_eq_true_iff.mp hcrossed
  exact ⟨σ, reachable_of_run hσ, 0, Relation.TransGen.head (waits_of_waiting h) (.single (waits_of_waiting h'))⟩

/-- A runtime that iterates sets in the order of the ids. -/
def sortedRuntime : Runtime where
  order :=
    { iter := fun l => l.dedup.insertionSort fun a b => a.toNat ≤ b.toNat
      nodup := fun l => (List.perm_insertionSort _ _).nodup_iff.mpr l.nodup_dedup
      mem_iter := by simp }
  hashRequestBody := sampleRuntime.hashRequestBody
  hash_hex := sampleRuntime.hash_hex
  repr := sampleRuntime.repr

/-- A conversion that is settled twice and reversed. -/
def settledTwice : Fin 5 → Call
  | 0 => .initiatePayment ⟨1, 3, cents 1000, "EUR", none⟩
  | 1 => .authorisePayment 10 3
  | 2 => .settlePayment 10 3
  | 3 => .settlePayment 10 3
  | 4 => .reversePayment 10 3

/-- The second settlement has read the payment before the first has committed, and books its FX details
afterwards. -/
def settledTwiceSchedule : List (Fin 5 × Choice) :=
  let subscriptions := sampleStore.feed.webhookSubscriptions.rows
  let rate := (ratedStore oneTenth).feed.fxRates.rows.head?
  List.replicate 4 (0, { id := 10 }) ++ List.replicate 4 (0, { id := 80, subscriptions }) ++
    List.replicate 7 (1, { id := 81, subscriptions }) ++ List.replicate 5 (3, { id := 0, rate }) ++
    List.replicate 21 (2, { id := 82, subscriptions, rate }) ++ List.replicate 7 (3, { id := 83 }) ++
    List.replicate 13 (4, { id := 84 })

/-- A lock order of the accounts alone is not enough: a conversion of a payment that has been settled meanwhile
locks it before the accounts, and its reversal after them. -/
theorem settledTwice_deadlocked : ∃ σ, Relation.ReflTransGen
    (fun σ σ' => Step (feedEnv fun _ _ => False) σ σ' ∧ Ascending BitVec.toNat σ')
    (System sortedRuntime (ratedStore oneTenth) 0 settledTwice) σ ∧
    Relation.TransGen (σ.Waits RowKey.shared) 4 4 := by
  have hrun : ((System sortedRuntime (ratedStore oneTenth) 0 settledTwice).tested inOrder settledTwiceSchedule).map
      (fun σ => waiting σ 3 4 && waiting σ 4 3) = some true := by decide +kernel
  obtain ⟨σ, hσ, hcrossed⟩ := Option.map_eq_some_iff.mp hrun
  obtain ⟨h, h'⟩ := Bool.and_eq_true_iff.mp hcrossed
  exact ⟨σ, tested_reaches ascending_of_inOrder settledTwiceSchedule hσ,
    Relation.TransGen.head (waits_of_waiting h') (.single (waits_of_waiting h))⟩

end Sample
end PaymentLedger
