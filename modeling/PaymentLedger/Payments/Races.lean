import PaymentLedger.Ledger.Conflicts
import PaymentLedger.Payments.Lifecycle
import PaymentLedger.Payments.Outbox

namespace PaymentLedger

/-- A history has no more rows than the rank of its status allows. -/
theorem Chronicle.length_le {hs : List StatusHistoryRow} {s : PaymentStatus} (hc : Chronicle hs s) :
    hs.length ≤ s.rank + 1 := by
  induction hc with
  | initiated hf ht => simp
  | moved _ _ ha ih =>
    have hlt := rank_lt ha
    rw [List.length_append, List.length_singleton]
    omega

/-- The largest version from which a payment can still move to the status. -/
def PaymentStatus.lastVersion : PaymentStatus → ℕ
  | .initiated => 0
  | .authorised => 0
  | .settled => 1
  | .reversed => 2
  | .failed => 1

theorem Chronicled.version_le {st : Store} {row : PaymentRow} (h : Chronicled st row) {toStatus : PaymentStatus}
    (ha : toStatus ∈ allowedTransitions row.status) : row.version ≤ toStatus.lastVersion := by
  have hlength := h.chain.length_le
  have hversion := h.version
  have hrank : row.status.rank ≤ toStatus.lastVersion := by
    cases hs : row.status <;> cases toStatus <;>
      simp [allowedTransitions, hs, PaymentStatus.rank, PaymentStatus.lastVersion] at ha ⊢
  omega

theorem length_le_of_increasing {l : List ℕ} {b : ℕ} (h : l.Pairwise (· < ·)) (hb : ∀ x ∈ l, x ≤ b) :
    l.length ≤ b + 1 := by
  have hnodup : l.Nodup := h.imp fun hlt => hlt.ne
  have hsub : l.toFinset ⊆ Finset.range (b + 1) := by
    intro x hx
    have hle := hb x (List.mem_toFinset.mp hx)
    rw [Finset.mem_range]
    omega
  have hcard := Finset.card_le_card hsub
  rwa [List.toFinset_card_of_nodup hnodup, Finset.card_range] at hcard

section Attempts

variable {ι : Type} {rt : Runtime} {step : Feed → Feed → Prop} {st₀ st st' : Store}
  {log : List (Commit postgres ι)} {n m : ℕ}

theorem payment_later {id : Uuid} {row : PaymentRow} (hn : History (feedEnv step) st₀ (log.take n) st)
    (hm : History (feedEnv step) st₀ (log.take m) st') (hnm : n ≤ m) (hrow : st.payments.find id = some row) :
    ∃ row', st'.payments.find id = some row' ∧ row.version ≤ row'.version := by
  rw [hn.between hm hnm]
  exact ⟨_, payment_after _ hrow, onRow_version_le id _ row⟩

/-- The attempt has read the payment at this version, and has then found it at a later one. -/
def Outrun (step : Feed → Feed → Prop) (st₀ : Store) (log : List (Commit postgres ι)) (id : Uuid)
    (tx : List (Event postgres)) (version : ℕ) : Prop :=
  ∃ e₁ e₂ st₁ st₂ row row', e₁ ∈ tx ∧ e₂ ∈ tx ∧ History (feedEnv step) st₀ (log.take e₁.seen) st₁ ∧
    History (feedEnv step) st₀ (log.take e₂.seen) st₂ ∧ st₁.payments.find id = some row ∧
    st₂.payments.find id = some row' ∧ row.version = version ∧ version < row'.version

theorem PaymentLost.outrun {id : Uuid} {toStatus : PaymentStatus} {tx : List (Event postgres)}
    (h : PaymentLost id toStatus tx) (hok : Each (Executed (feedEnv step) st₀ log) [] tx)
    (hord : tx.Pairwise fun e e' => e.seen ≤ e'.seen)
    (hlife : ∀ k st, History (feedEnv step) st₀ (log.take k) st → Lifecycle st) :
    ∃ v, v ≤ toStatus.lastVersion ∧ Outrun step st₀ log id tx v := by
  obtain ⟨row, e₁, e₂, st₁, st₂, h₁, h₂, hle, -, hh₁, hh₂, -, hrow, hallowed, hmoved⟩ := h.moments hok hord
  obtain ⟨row', hrow', hversion⟩ := payment_later hh₁ hh₂ hle hrow
  have hne := hmoved row' hrow'
  refine ⟨row.version, ?_, e₁, e₂, st₁, st₂, row, row', h₁, h₂, hh₁, hh₂, hrow, hrow', rfl, by omega⟩
  exact ((hlife _ _ hh₁).payments id row hrow).version_le hallowed

theorem Outrun.lt {id : Uuid} {tx tx' : List (Event postgres)} {v v' : ℕ} (h : Outrun step st₀ log id tx v)
    (h' : Outrun step st₀ log id tx' v') (hord : ∀ e ∈ tx, ∀ e' ∈ tx', e.seen ≤ e'.seen) : v < v' := by
  obtain ⟨-, e₂, -, st₂, -, row₂, -, he₂, -, hh₂, -, hrow₂, -, hlt⟩ := h
  obtain ⟨e₁, -, st₁, -, row₁, -, he₁, -, hh₁, -, hrow₁, -, rfl, -⟩ := h'
  obtain ⟨row, hrow, hle⟩ := payment_later hh₂ hh₁ (hord e₂ he₂ e₁ he₁) hrow₂
  obtain rfl : row = row₁ := Option.some.inj (hrow.symm.trans hrow₁)
  omega

/-- Attempts that one after another lose the payment each meet it at a later version. -/
theorem lost_attempts_le {id : Uuid} {toStatus : PaymentStatus} {failed : List (List (Event postgres))}
    (hlost : ∀ t ∈ failed, PaymentLost id toStatus t ∧ Each (Executed (feedEnv step) st₀ log) [] t)
    (hord : failed.flatten.Pairwise fun e e' => e.seen ≤ e'.seen)
    (hlife : ∀ k st, History (feedEnv step) st₀ (log.take k) st → Lifecycle st) :
    failed.length ≤ toStatus.lastVersion + 1 := by
  obtain ⟨hwithin, hbetween⟩ := List.pairwise_flatten.mp hord
  have houtrun : ∀ t, ∃ v, t ∈ failed → v ≤ toStatus.lastVersion ∧ Outrun step st₀ log id t v := by
    intro t
    by_cases ht : t ∈ failed
    · obtain ⟨hl, hok⟩ := hlost t ht
      obtain ⟨v, hv⟩ := hl.outrun hok (hwithin t ht) hlife
      exact ⟨v, fun _ => hv⟩
    · exact ⟨0, fun hmem => absurd hmem ht⟩
  choose version hversion using houtrun
  rw [← List.length_map (f := version)]
  apply length_le_of_increasing
  · rw [List.pairwise_map]
    apply hbetween.imp_of_mem
    intro t t' ht ht' hle
    exact (hversion t ht).2.lt (hversion t' ht').2 hle
  · intro v hv
    obtain ⟨t, ht, rfl⟩ := List.mem_map.mp hv
    exact (hversion t ht).1

end Attempts

section Refusals

variable {ι : Type} {step : Feed → Feed → Prop} {st₀ : Store} {log : List (Commit postgres ι)}
  {tx : List (Event postgres)}

/-- Outside changes may add, change and deactivate subscriptions; none disappears. -/
def KeepsSubscriptions (step : Feed → Feed → Prop) : Prop :=
  ∀ f f', step f f' → ∀ id, (f.webhookSubscriptions.find id).isSome = true →
  (f'.webhookSubscriptions.find id).isSome = true

theorem History.subscription_kept {st st' : Store} (hk : KeepsSubscriptions step) {log : List (Commit postgres ι)}
    (h : History (feedEnv step) st log st') {id : Uuid} (hid : st.hasSubscription id = true) :
    st'.hasSubscription id = true := by
  induction h with
  | nil => exact hid
  | env _ he ih =>
    obtain ⟨f, hf, rfl⟩ := he
    exact hk _ _ hf id ih
  | commit c _ ih =>
    have hfeed : c.after.feed = c.before.feed := Store.after_feed _ _
    rw [Store.hasSubscription, hfeed]
    exact ih

theorem History.payment_kept {st st' : Store} {log : List (Commit postgres ι)}
    (h : History (feedEnv step) st log st') {id : Uuid} (hid : st.hasPayment id = true) :
    st'.hasPayment id = true := by
  rw [h.eq_after]
  exact (hasPayment_after _).mpr (.inl hid)

/-- The next statement of an attempt to move a payment without money, after it has read the payment. -/
inductive StatusNext (id : Uuid) (toStatus : PaymentStatus) (reason : Option PyStr) :
    List (Event postgres) → Stmt → Prop
  | read : StatusNext id toStatus reason [] (.selectPayment id)
  | move {tx : List (Event postgres)} (row : PaymentRow) :
      StatusNext id toStatus reason tx (.updatePaymentStatus id row.version toStatus)
  | record {row : PaymentRow} {e : Event postgres} {tx : List (Event postgres)}
      (he : Did (.selectPayment id) (some row) e) :
      StatusNext id toStatus reason (e :: tx) (.insertHistory id (some row.status) toStatus reason)
  | subscriptions {tx : List (Event postgres)} : StatusNext id toStatus reason tx .selectActiveSubscriptions
  | deliver {row : PaymentRow} {e e' : Event postgres} {tx : List (Event postgres)}
      {subs : List WebhookSubscription}
      {sub : WebhookSubscription} {payload : PyDict} (he : Did (.selectPayment id) (some row) e)
      (he' : Did .selectActiveSubscriptions subs e') (hmem : e' ∈ tx) (hsub : sub ∈ subs) :
      StatusNext id toStatus reason (e :: tx)
        (.insertDelivery sub.id (some id) ("payment." ++ toStatus.value) payload)

theorem path_query_exec {s s' : Stmt} {t : List (Event postgres)} {k : s'.Res → App s.Res}
    (h : Path (query s) t (.exec s' k)) : t = [] ∧ s' = s := path_stmt_exec h

theorem path_ofExcept_exec {ε α : Type} {f : ε → AppError} {x : Except ε α} {t : List (Event postgres)} {s : Stmt}
    {k : s.Res → App α} : ¬Path (Prog.ofExcept f x : App α) t (.exec s k) := by
  cases x with
  | ok a => exact path_ret_exec
  | error e => exact path_raise_exec

theorem path_enqueueDeliveries_exec {id : Uuid} {eventType : String} {payload : PyDict}
    {subs : List WebhookSubscription} {t : List (Event postgres)} {s : Stmt} {k : s.Res → App Unit}
    (h : Path (enqueueDeliveries id eventType payload subs) t (.exec s k)) :
    ∃ sub ∈ subs, s = .insertDelivery sub.id (some id) eventType payload := by
  induction subs generalizing t with
  | nil => exact absurd h path_ret_exec
  | cons sub subs ih =>
    rw [enqueueDeliveries] at h
    cases hw : sub.wants eventType with
    | false =>
      simp only [hw, Bool.false_eq_true, if_false] at h
      obtain ⟨sub', hmem, hs⟩ := ih h
      exact ⟨sub', List.mem_cons_of_mem _ hmem, hs⟩
    | true =>
      simp only [hw, if_true] at h
      rcases path_bind_exec h with ⟨k', hq⟩ | ⟨t₁, i, t₂, rfl, hq, hrest⟩
      · exact ⟨sub, List.mem_cons_self, (path_query_exec hq).2⟩
      · obtain ⟨sub', hmem, hs⟩ := ih hrest
        exact ⟨sub', List.mem_cons_of_mem _ hmem, hs⟩

theorem path_transitionStatusOnlyAttempt_exec {id : Uuid} {toStatus : PaymentStatus} {reason : Option PyStr}
    {s : Stmt} {k : s.Res → App (Option Payment)}
    (h : Path (transitionStatusOnlyAttempt id toStatus reason) tx (.exec s k)) :
    StatusNext id toStatus reason tx s := by
  rcases path_bind_exec h with ⟨k₁, hread⟩ | ⟨t₁, p, t₂, rfl, hread, q₁⟩
  · rcases path_bind_exec hread with ⟨k₂, hq⟩ | ⟨t, r, t', -, -, hr⟩
    · obtain ⟨rfl, rfl⟩ := path_query_exec hq
      exact .read
    · cases r with
      | none => exact absurd hr path_raise_exec
      | some row => exact absurd hr path_ret_exec
  obtain ⟨e₁, row, rfl, he₁, rfl⟩ := path_getPayment hread
  rcases path_bind_exec q₁ with ⟨k₁, hcheck⟩ | ⟨t₁, u, t₃, rfl, hcheck, q₂⟩
  · exact absurd hcheck path_ofExcept_exec
  obtain ⟨rfl, -⟩ := path_ofExcept.mp hcheck
  rcases path_bind_exec q₂ with ⟨k₁, hmove⟩ | ⟨t₁, b, t₄, rfl, hmove, q₃⟩
  · obtain ⟨rfl, rfl⟩ := path_query_exec hmove
    exact .move row
  obtain ⟨e₂, rfl, -⟩ := path_query.mp hmove
  cases b with
  | false => exact absurd q₃ path_rollback_exec
  | true =>
    rcases path_bind_exec q₃ with ⟨k₁, hrecord⟩ | ⟨t₁, u, t₅, rfl, hrecord, q₄⟩
    · obtain ⟨rfl, rfl⟩ := path_query_exec hrecord
      exact .record he₁
    obtain ⟨e₃, rfl, -⟩ := path_query.mp hrecord
    rcases path_bind_exec q₄ with ⟨k₁, hnotify⟩ | ⟨t₁, u, t₆, rfl, -, q₅⟩
    · rcases path_bind_exec hnotify with ⟨k₂, hsubs⟩ | ⟨t₁, subs, t₆, rfl, hsubs, hdeliver⟩
      · obtain ⟨rfl, rfl⟩ := path_query_exec hsubs
        exact .subscriptions
      · obtain ⟨e₄, rfl, he₄⟩ := path_query.mp hsubs
        obtain ⟨sub, hsub, rfl⟩ := path_enqueueDeliveries_exec hdeliver
        exact .deliver he₁ he₄ (by simp) hsub
    · exact absurd q₅ path_commit_exec

theorem postgres_eval_error {s : Stmt} {st : Store} {now : ℕ} {c : Choice} {e : AppError}
    (h : postgres.eval s st now c = some (.error e)) : ∃ e', e = .db e' ∧ s.eval st now c = some (.error e') := by
  obtain ⟨r, hr, he⟩ := Option.map_eq_some_iff.mp h
  cases r with
  | ok x => cases he
  | error e' =>
    cases he
    exact ⟨e', rfl, hr⟩

/-- A payment that the transaction has read is there for all of its later statements. -/
theorem Recorded.payment_there {st : Store} {b : ℕ} {id : Uuid} {row : PaymentRow} {e : Event postgres}
    (h : Recorded (feedEnv step) st₀ log st b (e :: tx)) (hd : Did (.selectPayment id) (some row) e)
    (ws : List Write) :
    (st.after ws).hasPayment id = true := by
  obtain ⟨⟨st', hev⟩, -⟩ := h.evaluated
  obtain ⟨c, hc⟩ := hev.eval
  obtain ⟨hrow, -⟩ := eval_selectPayment.mp (hd.eval (postgres_eval_ok.mp hc))
  have hthere : st'.hasPayment id = true := by
    rw [Store.hasPayment, show st'.payments.find id = some row from hrow.symm]
    rfl
  exact (hasPayment_after ws).mpr (.inl (hev.since.payment_kept hthere))

theorem Recorded.subscription_there {st : Store} {b : ℕ} {subs : List WebhookSubscription}
    {sub : WebhookSubscription} {e : Event postgres} (hk : KeepsSubscriptions step)
    (h : Recorded (feedEnv step) st₀ log st b tx) (he : e ∈ tx) (hd : Did .selectActiveSubscriptions subs e)
    (hsub : sub ∈ subs) (ws : List Write) : (st.after ws).hasSubscription sub.id = true := by
  obtain ⟨pre, st', hev⟩ := h.evaluated.of_mem he
  obtain ⟨c, hc⟩ := hev.eval
  obtain ⟨rfl, hperm, -⟩ := eval_selectActiveSubscriptions.mp (hd.eval (postgres_eval_ok.mp hc))
  have hactive := hperm.subset hsub
  have hmem : sub ∈ st'.feed.webhookSubscriptions.rows := by
    rw [view_eq, Store.activeSubscriptions, Store.after_feed] at hactive
    exact List.mem_of_mem_filter hactive
  have hthere : st'.hasSubscription sub.id = true := by
    rw [Store.hasSubscription, Table.find_of_mem hmem]
    rfl
  have hkept := hev.since.subscription_kept hk hthere
  rwa [Store.hasSubscription, Store.after_feed]

/-- A reason that the database does not accept. -/
def Unstorable (reason : Option PyStr) : Prop := ∃ s, reason = some s ∧ s.Unstorable

/-- The only statement of such an attempt that the database refuses is the record of a reason that no
text column holds. -/
theorem StatusNext.refused {id : Uuid} {toStatus : PaymentStatus} {reason : Option PyStr} {s : Stmt}
    {e : AppError} (hk : KeepsSubscriptions step) (h : StatusNext id toStatus reason tx s)
    (hr : Refused (feedEnv step) st₀ log tx s e) : e = .db .invalidText ∧ Unstorable reason := by
  obtain ⟨st, n, b, c, hm, hev⟩ := hr
  obtain ⟨e, rfl, he⟩ := postgres_eval_error hev
  rw [view_eq] at he
  cases h with
  | read => simp [Stmt.eval] at he
  | move row =>
    simp only [Stmt.eval] at he
    split at he
    · split at he <;> simp at he
    · simp at he
  | subscriptions =>
    simp only [Stmt.eval] at he
    split at he <;> simp at he
  | @record row e₁ tx he₁ =>
    have hthere := hm.recorded.payment_there he₁ (writesOf (e₁ :: tx))
    simp only [Stmt.eval, hthere, references, Option.some.injEq] at he
    cases reason with
    | none => cases he
    | some r =>
      rw [StatusHistoryRow.new, nullable] at he
      cases hr : pyText r with
      | ok t =>
        rw [hr] at he
        cases he
      | error e' =>
        obtain ⟨rfl, hbad⟩ := pyText_error hr
        rw [hr] at he
        cases he
        exact ⟨rfl, r, rfl, hbad⟩
  | @deliver row e₁ e₂ tx subs sub payload he₁ he₂ hmem hsub =>
    have hthere := hm.recorded.payment_there he₁ (writesOf (e₁ :: tx))
    have hsubs := hm.recorded.subscription_there hk (List.mem_cons_of_mem _ hmem) he₂ hsub (writesOf (e₁ :: tx))
    have hevent : varchar 50 ("payment." ++ toStatus.value) = .ok ("payment." ++ toStatus.value) :=
      event_stored ⟨id, none, toStatus, 0, none⟩
    simp only [Stmt.eval] at he
    by_cases hid : (st.after (writesOf (e₁ :: tx))).hasDelivery c.id = true
    · rw [if_pos hid] at he
      cases he
    · rw [if_neg hid, WebhookDeliveryRow.new, hevent] at he
      simp only [hthere, hsubs, references, Option.all_some] at he
      cases he

end Refusals

/-- The calls that move a payment without money, with attempts enough to outlast every rival. -/
inductive Call.Enough : Call → Uuid → PaymentStatus → Option PyStr → Prop
  | authorise {id : Uuid} {n : ℕ} (h : 2 ≤ n) : Enough (.authorisePayment id n) id .authorised none
  | fail {id : Uuid} {reason : Option PyStr} {n : ℕ} (h : 3 ≤ n) :
      Enough (.failPayment id reason n) id .failed reason

section Run

variable {ι : Type} [DecidableEq ι] {rt : Runtime} {step : Feed → Feed → Prop} {st₀ : Store}
  {calls : ι → Call} {σ : Config postgres ι Value}

/-- The calls that move a payment without money are not defeated by rivals: each of them commits its
transition, or raises that the payment is missing or the transition is not allowed, or holds a reason that
the database refuses; and over every edge at most one commit moves a payment. -/
theorem status_races (h₀ : Fresh st₀) (hk : KeepsSubscriptions step) (h : Reachable rt step st₀ calls σ) :
    (∀ i id toStatus reason, (calls i).Enough id toStatus reason →
      (∀ v, (σ.session i).prog = some (.ret v) → ∃ c ∈ σ.world.log, ∃ x, c.caller = i ∧
        ownOf i σ.world.log = [c.tx] ∧ historyCreated c.tx = [x] ∧ x.paymentId = id ∧ x.toStatus = toStatus) ∧
      ∀ e, (σ.session i).prog = some (.raise e) → ownOf i σ.world.log = [] ∧
        (e = .paymentNotFound id ∨ (∃ x, e = .invalidTransition x) ∨ (e = .db .invalidText ∧ Unstorable reason))) ∧
    ∀ (k k' : ℕ) (c c' : Commit postgres ι) (x x' : StatusHistoryRow), σ.world.log[k]? = some c →
      σ.world.log[k']? = some c' → x ∈ historyCreated c.tx → x' ∈ historyCreated c'.tx →
      x.paymentId = x'.paymentId → x.fromStatus = x'.fromStatus → x.toStatus = x'.toStatus → k = k' := by
  obtain ⟨clock, hr⟩ := h
  have hwf := reaches_wellFormed hr
  have hlife := hwf.lifecycle h₀ (List.prefix_refl _) hwf.history
  have hpublished := (hwf.published h₀).history
  obtain ⟨past, hruns⟩ := reaches_runs hr
  refine ⟨?_, ?_⟩
  · intro i id toStatus reason henough
    have hsingle : (calls i).idempotent = false := by
      generalize calls i = call at henough
      cases henough <;> rfl
    refine ⟨?_, ?_⟩
    · intro v hv
      obtain ⟨tx, hown, hshape⟩ := hwf.returned hsingle hv
      obtain ⟨c, hmem, hcaller, rfl⟩ := mem_of_ownOf (by rw [hown]; simp : tx ∈ ownOf i σ.world.log)
      obtain ⟨l, l', hl⟩ := List.append_of_mem hmem
      rw [← hcaller] at hshape henough
      obtain ⟨d, hd⟩ := hwf.deed hl hshape
      have hhistory := Deed.historyCreated_eq hd.deed.legal hd.writes
      have hdeed := hd.deed
      generalize calls c.caller = call at hdeed henough
      cases henough with
      | authorise _ =>
        obtain ⟨row, reason, subs, ds, rfl, rfl, -⟩ := hdeed
        exact ⟨c, hmem, _, hcaller, hown, hhistory, rfl, rfl⟩
      | fail _ =>
        obtain ⟨row, reason, subs, ds, rfl, rfl, -⟩ := hdeed
        exact ⟨c, hmem, _, hcaller, hown, hhistory, rfl, rfl⟩
    · intro e he
      refine ⟨hwf.raised hsingle he, ?_⟩
      obtain ⟨done, hlived, -, -, hord⟩ := hruns.recalled i he
      have settled (n : ℕ) (hn : toStatus.lastVersion + 2 ≤ n)
          (hprog : (calls i).prog rt = (transitionStatusOnly id toStatus reason n).bind
            fun p => .ret (.payment p)) :
          e = .paymentNotFound id ∨ (∃ x, e = .invalidTransition x) ∨
            (e = .db .invalidText ∧ Unstorable reason) := by
        rw [hprog] at hlived
        obtain ⟨failed, rest, rfl, hstate⟩ :=
          lived_retry (closes_transitionStatusOnlyAttempt id toStatus reason) _ Value.payment n hlived
        rcases hstate.raised e rfl with ⟨-, hlen, -⟩ | ⟨t, -, hok, hp | ⟨s, k, hp, hbad⟩⟩
        · -- the attempts would have met the payment at too many versions
          rw [eventsOf_append, eventsOf_undone, List.append_assoc] at hord
          have hlost : ∀ t ∈ failed, PaymentLost id toStatus t ∧
              Each (Executed (feedEnv step) st₀ σ.world.log) [] t := by
            intro t ht
            obtain ⟨hp, hok⟩ := hstate.conflicts t ht
            exact ⟨path_transitionStatusOnlyAttempt_lost hp, hok⟩
          have hle := lost_attempts_le hlost (List.pairwise_append.mp hord).1
            fun k st hst => hwf.lifecycle h₀ (List.take_prefix k _) hst
          omega
        · have hraise : Raises (fun e : AppError => e = .paymentNotFound id ∨ ∃ x, e = .invalidTransition x)
              (transitionStatusOnlyAttempt id toStatus reason) :=
            raises_transitionStatusOnlyAttempt (.inl rfl) fun x => .inr ⟨x, rfl⟩
          rcases hraise.path hp with hnone | hinvalid
          · exact .inl hnone
          · exact .inr (.inl hinvalid)
        · exact .inr (.inr ((path_transitionStatusOnlyAttempt_exec hp).refused hk hbad))
      generalize calls i = call at henough settled
      cases henough with
      | authorise hn => exact settled _ hn rfl
      | fail hn => exact settled _ hn rfl
  · intro k k' c c' x x' hc hc' hx hx' hid hfrom hto
    have hmem : x ∈ σ.world.store.statusHistory := by
      rw [hpublished]
      exact List.mem_flatMap.mpr ⟨c, List.mem_of_getElem? hc, hx⟩
    obtain ⟨row, hrow⟩ := Option.isSome_iff_exists.mp (hlife.history x hmem)
    have hchain := (hlife.payments x.paymentId row hrow).chain
    rw [Table.find_key hrow] at hchain
    have hnodup := hchain.nodup
    rw [Store.historyOf, hpublished, List.filter_flatMap, List.map_flatMap] at hnodup
    have hpairwise := (List.nodup_flatMap.mp hnodup).2
    have once {k k' : ℕ} {c c' : Commit postgres ι} {x' x'' : StatusHistoryRow} (hc : σ.world.log[k]? = some c)
        (hc' : σ.world.log[k']? = some c') (hx : x' ∈ historyCreated c.tx) (hx' : x'' ∈ historyCreated c'.tx)
        (hid : x'.paymentId = x.paymentId) (hid' : x''.paymentId = x.paymentId) (hto : x'.toStatus = x''.toStatus) :
        ¬k < k' := by
      intro hlt
      obtain ⟨hk, rfl⟩ := List.getElem?_eq_some_iff.mp hc
      obtain ⟨hk', rfl⟩ := List.getElem?_eq_some_iff.mp hc'
      have hdisjoint := List.pairwise_iff_getElem.mp hpairwise k k' hk hk' hlt
      apply hdisjoint (a := x'.toStatus)
      · exact List.mem_map_of_mem (List.mem_filter.mpr ⟨hx, by simpa using hid⟩)
      · rw [hto]
        exact List.mem_map_of_mem (List.mem_filter.mpr ⟨hx', by simpa using hid'⟩)
    have h₁ := once hc hc' hx hx' rfl hid.symm hto
    have h₂ := once hc' hc hx' hx hid.symm rfl hto.symm
    omega

/-- A payment that one caller authorises and another fails. -/
def racedCalls (attempts : ℕ) : Fin 3 → Call
  | 0 => .initiatePayment ⟨1, 2, cents 1000, "EUR", none⟩
  | 1 => .authorisePayment 10 2
  | 2 => .failPayment 10 (some ("account closed" : String)) attempts

/-- Both read the payment as initiated, the first moves it, and the update of the second finds it moved. -/
def racedSchedule (steps : ℕ) : List (Fin 3 × Choice) :=
  let subscriptions := sampleStore.feed.webhookSubscriptions.rows
  (sampleSchedule.take 8).map (fun x => (0, x.2)) ++ [(2, { id := 0 })] ++
    List.replicate 7 (1, { id := 81, subscriptions }) ++ List.replicate steps (2, { id := 82, subscriptions })

-- one attempt is defeated by the rival
example : ((System sampleRuntime sampleStore 0 (racedCalls 1)).run (racedSchedule 3)).bind
    (fun σ => (σ.session 2).result) = some (.error (.concurrentPaymentModification 10 1)) := by decide +kernel

def racedEnd : Config postgres (Fin 3) Value :=
  ((System sampleRuntime sampleStore 0 (racedCalls 3)).run (racedSchedule 10)).get (by decide +kernel)

theorem status_races_raced : racedEnd.world.log.map Commit.caller = [0, 1, 2] ∧
    ∃ c ∈ racedEnd.world.log, ∃ x, c.caller = 2 ∧ ownOf 2 racedEnd.world.log = [c.tx] ∧
      historyCreated c.tx = [x] ∧ x.paymentId = 10 ∧ x.toStatus = .failed := by
  refine ⟨by decide +kernel, ?_⟩
  obtain ⟨v, hv⟩ := result_returned (by decide +kernel :
    ((racedEnd.session 2).result.bind Except.toOption).isSome = true)
  have hkeeps : KeepsSubscriptions fun _ _ => False := by
    intro f f' hf
    exact hf.elim
  have hreachable : Reachable sampleRuntime (fun _ _ => False) sampleStore (racedCalls 3) racedEnd :=
    reachable_of_run (Option.some_get _).symm
  obtain ⟨hcalls, -⟩ := status_races sampleStore_fresh hkeeps hreachable
  exact (hcalls 2 10 .failed _ (.fail (le_refl 3))).1 v (result_ok.mp hv)

/-- A payment that is then failed for a reason with a NUL character. -/
def unstorableCalls : Fin 2 → Call
  | 0 => .initiatePayment ⟨1, 2, cents 1000, "EUR", none⟩
  | 1 => .failPayment 10 (some (String.singleton (Char.ofNat 0))) 3

def unstorableSchedule : List (Fin 2 × Choice) :=
  sampleSchedule.take 8 |>.map (fun x => (0, x.2)) |>.append (List.replicate 4 (1, {}))

theorem fail_unstorable : ∃ σ, Reachable sampleRuntime (fun _ _ => False) sampleStore unstorableCalls σ ∧
    ∃ e, (σ.session 1).prog = some (.raise e) ∧ ¬(e = .paymentNotFound 10 ∨ ∃ x, e = .invalidTransition x) := by
  obtain ⟨σ, hσ⟩ := Option.isSome_iff_exists.mp (by decide +kernel :
    ((System sampleRuntime sampleStore 0 unstorableCalls).run unstorableSchedule).isSome = true)
  have hresult : ((System sampleRuntime sampleStore 0 unstorableCalls).run unstorableSchedule).bind
      (fun σ => (σ.session 1).result) = some (.error (.db .invalidText)) := by decide +kernel
  rw [hσ, Option.bind_some] at hresult
  refine ⟨σ, reachable_of_run hσ, _, result_error.mp hresult, ?_⟩
  rintro (h | ⟨x, h⟩) <;> cases h

end Run
end PaymentLedger
