import PaymentLedger.Services.Rules
import PaymentLedger.Transaction.Alike

namespace PaymentLedger

/-- The statement returns no account. -/
def Stmt.rigid : Stmt → Bool
  | selectAccount _ => false
  | selectAccountByNumber _ => false
  | _ => true

theorem same_of_rigid {s : Stmt} (hs : s.rigid = true) {r r' : s.Res} (h : s.Same r r') : r' = r := by
  cases s with
  | selectAccount id => cases hs
  | selectAccountByNumber number => cases hs
  | _ => exact h

/-- A program that does the same whatever the versions of the accounts that it reads. -/
def Blind {α : Type} (p : App α) : Prop := Alike (D := postgres) Stmt.Same Eq p p

/-- A read of an account, of which what follows sees all but the version. -/
def Fetches (p : App Account) : Prop := Alike (D := postgres) Stmt.Same (fun a a' => a'.fixed = a.fixed) p p

section Blind

theorem Blind.bind {α β : Type} {p : App α} {f : α → App β} (h : Blind p) (hf : ∀ a, Blind (f a)) :
    Blind (p >>= f) := by
  apply Alike.bind h
  rintro a _ rfl
  exact hf a

theorem Fetches.bind {β : Type} {p : App Account} {f : Account → App β} (h : Fetches p)
    (hf : ∀ a, Blind (f a)) (hversion : ∀ a a' : Account, a'.fixed = a.fixed → f a' = f a) : Blind (p >>= f) := by
  apply Alike.bind h
  intro a a' hfixed
  rw [hversion a a' hfixed]
  exact hf a

theorem blind_ret {α : Type} (a : α) : Blind (.ret a : App α) := .ret rfl

theorem blind_raise {α : Type} (e : AppError) : Blind (raise e : App α) := Alike.raise (D := postgres) e

/-- A program that reads no account. -/
theorem blind_of_only {α : Type} {p : App α} (h : Only (D := postgres) (fun s => s.rigid = true) p) : Blind p := by
  induction p with
  | ret a => exact blind_ret a
  | raise e => exact blind_raise e
  | exec s k ih =>
    apply Alike.exec
    intro r r' hr
    obtain rfl := same_of_rigid h.1 hr
    exact ih r' (h.2 r')
  | commit k ih => exact Alike.commit (ih h)
  | rollback k ih => exact Alike.rollback (ih h)

theorem blind_ofExcept {ε α : Type} (f : ε → AppError) (x : Except ε α) : Blind (Prog.ofExcept f x : App α) :=
  blind_of_only (Queries.only (queries_ofExcept (fun _ => trivial) x))

theorem blind_query {s : Stmt} (hs : s.rigid = true) : Blind (query s) :=
  blind_of_only (only_stmt (D := postgres) hs)

theorem fixed_currency {a a' : Account} (h : a'.fixed = a.fixed) : a'.currency = a.currency := by
  simpa only [Account.fixed] using congrArg Account.currency h

theorem fixed_id {a a' : Account} (h : a'.fixed = a.fixed) : a'.id = a.id := by
  simpa only [Account.fixed] using congrArg Account.id h

theorem fetches_getAccount (id : Uuid) : Fetches (getAccount id) := by
  apply Alike.bind (alike_stmt (D := postgres) (.selectAccount id))
  intro r r' h
  change r'.map Account.fixed = r.map Account.fixed at h
  cases r <;> cases r' <;> simp at h
  · exact .raise _
  · exact .ret h

theorem fetches_getAccountByNumber (number : String) : Fetches (getAccountByNumber number) := by
  apply Alike.bind (alike_stmt (D := postgres) (.selectAccountByNumber number))
  intro r r' h
  change r'.map Account.fixed = r.map Account.fixed at h
  cases r <;> cases r' <;> simp at h
  · exact .raise _
  · exact .ret h

theorem blind_getAccountVersions (rt : Runtime) (ids : List Uuid) : Blind (getAccountVersions rt ids) :=
  blind_of_only (Queries.only (queries_getAccountVersions rfl fun _ => trivial))

theorem blind_insertJournalEntry (entry : JournalEntry) : Blind (insertJournalEntry entry) :=
  blind_of_only (Queries.only (queries_insertJournalEntry rfl fun _ _ => rfl))

theorem blind_bumpAccounts (versions : List (Uuid × ℕ)) (ids : List Uuid) : Blind (bumpAccounts versions ids) :=
  blind_of_only (Queries.only (queries_bumpAccounts (fun _ _ => rfl) (fun _ => trivial) ids))

theorem blind_getPayment (id : Uuid) : Blind (getPayment id) :=
  blind_of_only (Queries.only (queries_getPayment rfl trivial))

theorem blind_createPayment (debtor creditor : Uuid) (amount : Decimal) (currency : String) (ref : Option String) :
    Blind (createPayment debtor creditor amount currency ref) :=
  blind_of_only (Queries.only (queries_createPayment rfl (fun _ => rfl) trivial))

theorem blind_getLatestRate (base quote : String) : Blind (getLatestRate base quote) :=
  blind_of_only (Queries.only (queries_getLatestRate rfl trivial))

theorem blind_enqueuePaymentWebhookEvent (id : Uuid) (eventType : String) (payload : PyDict) :
    Blind (enqueuePaymentWebhookEvent id eventType payload) :=
  blind_of_only (Queries.only (queries_enqueuePaymentWebhookEvent rfl fun _ => rfl))

theorem blind_assertDebtorCurrencyMatches (id : Uuid) (currency : String) :
    Blind (assertDebtorCurrencyMatches id currency) := by
  apply (fetches_getAccount id).bind
  · intro a
    split
    · exact blind_raise _
    · exact blind_ret ()
  · intro a a' h
    rw [fixed_currency h]

theorem blind_commit {α : Type} (a : α) : Blind (Prog.commitTx >>= fun _ => .ret a : App α) :=
  Alike.commit (D := postgres) (blind_ret a)

theorem blind_rollback {α : Type} (a : α) : Blind (Prog.rollbackTx >>= fun _ => .ret a : App α) :=
  Alike.rollback (D := postgres) (blind_ret a)

theorem blind_initiatePaymentBlock (req : NewPayment) : Blind (initiatePaymentBlock req) := by
  have hcreate : Blind (createPaymentWithin req) := by
    apply (blind_assertDebtorCurrencyMatches _ _).bind
    intro _
    apply (blind_createPayment _ _ _ _ _).bind
    intro payment
    apply (blind_query rfl).bind
    intro _
    apply (blind_enqueuePaymentWebhookEvent _ _ _).bind
    intro _
    exact blind_ret payment
  exact hcreate.bind fun payment => blind_commit payment

theorem blind_transitionStatusOnlyAttempt (id : Uuid) (toStatus : PaymentStatus) (reason : Option PyStr) :
    Blind (transitionStatusOnlyAttempt id toStatus reason) := by
  apply (blind_getPayment id).bind
  intro payment
  apply (blind_ofExcept _ _).bind
  intro _
  apply (blind_query rfl).bind
  intro moved
  cases moved
  · exact blind_rollback none
  · apply (blind_query rfl).bind
    intro _
    apply (blind_enqueuePaymentWebhookEvent _ _ _).bind
    intro _
    exact blind_commit _

theorem blind_settlementLines (payment : Payment) : Blind (settlementLines payment) := by
  apply (fetches_getAccount _).bind
  · intro debtor
    apply (fetches_getAccount _).bind
    · intro creditor
      split
      · exact blind_ret _
      · apply (blind_getLatestRate _ _).bind
        intro rate
        apply (blind_ofExcept _ _).bind
        intro creditorAmount
        apply (fetches_getAccountByNumber _).bind
        · intro suspense
          apply (blind_query rfl).bind
          intro _
          exact blind_ret _
        · intro suspense suspense' h
          rw [fixed_id h]
    · intro creditor creditor' h
      rw [fixed_currency h]
  · intro debtor debtor' h
    rw [fixed_currency h]

theorem blind_reversalLines (payment : Payment) : Blind (reversalLines payment) := by
  rw [reversalLines]
  split
  · exact blind_ret _
  · apply (fetches_getAccount _).bind
    · intro debtor
      apply (fetches_getAccount _).bind
      · intro creditor
        apply (fetches_getAccountByNumber _).bind
        · intro suspense
          exact blind_ret _
        · intro suspense suspense' h
          rw [fixed_id h]
      · intro creditor creditor' h
        rw [fixed_currency h]
    · intro debtor debtor' h
      rw [fixed_currency h]

theorem blind_transitionWithLedgerEntryAttempt (rt : Runtime) (id : Uuid) (toStatus : PaymentStatus)
    {buildLines : Payment → App BuildLinesResult} (h : ∀ p, Blind (buildLines p)) :
    Blind (transitionWithLedgerEntryAttempt rt id toStatus buildLines) := by
  apply (blind_getPayment id).bind
  intro payment
  apply (blind_ofExcept _ _).bind
  intro _
  apply (h payment).bind
  rintro ⟨entryType, lines, overrides⟩
  apply (blind_ofExcept _ _).bind
  intro _
  apply (blind_getAccountVersions rt _).bind
  intro versions
  apply (blind_insertJournalEntry _).bind
  intro _
  apply (blind_bumpAccounts versions _).bind
  intro bumped
  have hfinish (moved : Bool) : Blind
      (if moved then
        recordStatusTransition id (some payment.status) toStatus none >>= fun _ =>
          enqueuePaymentWebhookEvent id ("payment." ++ toStatus.value)
            (paymentResponseDict (payment.moved toStatus overrides)) >>= fun _ =>
            Prog.commitTx >>= fun _ => (return some (payment.moved toStatus overrides) : App (Option Payment))
      else Prog.rollbackTx >>= fun _ => return none) := by
    cases moved
    · exact blind_rollback none
    · apply (blind_query rfl).bind
      intro _
      apply (blind_enqueuePaymentWebhookEvent _ _ _).bind
      intro _
      exact blind_commit _
  cases bumped
  · exact hfinish false
  · exact (blind_query rfl).bind hfinish

theorem blind_postJournalEntryAttempt (rt : Runtime) (entry : JournalEntry) :
    Blind (postJournalEntryAttempt rt entry) := by
  apply (blind_getAccountVersions rt _).bind
  intro versions
  apply (blind_insertJournalEntry entry).bind
  intro entryId
  apply (blind_bumpAccounts versions _).bind
  intro bumped
  cases bumped
  · exact blind_rollback none
  · exact blind_commit _

theorem blind_retry {α : Type} {attempt : App (Option α)} (h : Blind attempt) (exhausted : AppError) (n : ℕ) :
    Blind (retry attempt exhausted n) := by
  induction n with
  | zero => exact blind_raise exhausted
  | succ n ih =>
    apply Blind.bind (Alike.uow (D := postgres) h)
    intro r
    cases r
    · exact ih
    · exact blind_ret _

end Blind

/-- The calls that move money or payments: all but the idempotent initiation and the reconciliation. -/
def Call.serial : Call → Bool
  | .initiatePaymentIdempotent _ _ _ => false
  | .runReconciliation _ _ _ _ => false
  | _ => true

theorem Call.once_of_serial {call : Call} (h : call.serial = true) : call.idempotent = false := by
  cases call with
  | initiatePaymentIdempotent key body req => cases h
  | _ => rfl

theorem Call.blind {call : Call} (h : call.serial = true) (rt : Runtime) : Blind (call.prog rt) := by
  have hwrap {α : Type} {p : App α} {f : α → Value} (hp : Blind p) : Blind (p >>= fun a => return f a) :=
    hp.bind fun a => blind_ret (f a)
  cases call with
  | initiatePayment req =>
    apply hwrap
    apply (blind_ofExcept _ _).bind
    intro _
    exact Alike.uow (D := postgres) (blind_initiatePaymentBlock req)
  | initiatePaymentIdempotent key body req => cases h
  | authorisePayment id n => exact hwrap (blind_retry (blind_transitionStatusOnlyAttempt id _ _) _ n)
  | failPayment id reason n => exact hwrap (blind_retry (blind_transitionStatusOnlyAttempt id _ _) _ n)
  | settlePayment id n =>
    exact hwrap (blind_retry (blind_transitionWithLedgerEntryAttempt rt id _ blind_settlementLines) _ n)
  | reversePayment id n =>
    exact hwrap (blind_retry (blind_transitionWithLedgerEntryAttempt rt id _ blind_reversalLines) _ n)
  | postJournalEntry entry n =>
    apply hwrap
    apply (blind_ofExcept _ _).bind
    intro _
    exact blind_retry (blind_postJournalEntryAttempt rt entry) _ n
  | runReconciliation batchId records windowStart windowEnd => cases h

theorem path_retry {α : Type} {attempt : App (Option α)} {tx : List (Event postgres)} {r : α}
    (h : Path attempt tx (.commit (.ret (some r)))) (exhausted : AppError) (n : ℕ) :
    Path (retry attempt exhausted (n + 1)) tx (.commit (.rollback (.ret r))) := h.uow.bind _

/-- A transaction that a call commits is one that it can commit at its first attempt. -/
theorem Call.Commits.path {rt : Runtime} {call : Call} {tx : List (Event postgres)} {v : Value}
    (h : call.Commits rt tx v)
    {done : List (Attempt postgres)} {t : List (Event postgres)} {q : App Value}
    (htrace : Trace (call.prog rt) done t q)
    (hdone : committedOf done ≠ []) : Path (call.prog rt) tx (.commit (.rollback (.ret v))) := by
  have hsome {α : Type} {attempt : App (Option α)} {r : α} {exhausted : AppError} {n : ℕ} {f : α → Value}
      (hn : Trace (retry attempt exhausted n >>= fun a => return f a) done t q)
      (hpath : Path attempt tx (.commit (.ret (some r)))) :
      Path (retry attempt exhausted n >>= fun a => return f a) tx (.commit (.rollback (.ret (f r)))) := by
    cases n with
    | zero =>
      rw [(trace_raise hn).1] at hdone
      exact absurd rfl hdone
    | succ n => exact (path_retry hpath exhausted n).bind _
  cases call with
  | initiatePayment req =>
    obtain ⟨p, rfl, hvalid, hpath⟩ := h
    rw [Call.prog, PaymentLedger.initiatePayment, hvalid]
    exact hpath.uow.bind _
  | initiatePaymentIdempotent key body req => exact h.elim
  | authorisePayment id n =>
    obtain ⟨p, rfl, hpath⟩ := h
    exact hsome htrace hpath
  | failPayment id reason n =>
    obtain ⟨p, rfl, hpath⟩ := h
    exact hsome htrace hpath
  | settlePayment id n =>
    obtain ⟨p, rfl, hpath⟩ := h
    exact hsome htrace hpath
  | reversePayment id n =>
    obtain ⟨p, rfl, hpath⟩ := h
    exact hsome htrace hpath
  | postJournalEntry entry n =>
    obtain ⟨u, rfl, hvalid, hpath⟩ := h
    rw [Call.prog, PaymentLedger.postJournalEntry, hvalid] at htrace ⊢
    exact hsome htrace hpath
  | runReconciliation batchId records windowStart windowEnd =>
    obtain ⟨r, rfl, hpath⟩ := h
    exact hpath.uow.bind _

/-- The reads of a transaction that a serial call commits stand on the store that it is committed on. -/
theorem Call.Shape.sound {rt : Runtime} {call : Call} {tx : List (Event postgres)} {v : Option Value}
    {before : Store} {b : ℕ}
    (hcall : call.serial = true) (h : call.Shape rt tx v) (hw : Each (Witnessed before b) [] tx) :
    Each (Sound before) [] tx := by
  cases call with
  | initiatePayment req =>
    obtain ⟨p, -, h⟩ := h
    exact h.sound hw
  | initiatePaymentIdempotent key body req => cases hcall
  | authorisePayment id n =>
    obtain ⟨p, -, h⟩ := h
    exact h.sound hw
  | failPayment id reason n =>
    obtain ⟨p, -, h⟩ := h
    exact h.sound hw
  | settlePayment id n =>
    obtain ⟨p, -, h⟩ := h
    exact h.sound (fun _ _ _ _ hp hr => settlementLines_sound hp hr) hw
  | reversePayment id n =>
    obtain ⟨p, -, h⟩ := h
    exact h.sound (fun _ _ _ _ hp _ => reversalLines_sound hp) hw
  | postJournalEntry entry n =>
    obtain ⟨u, -, -, h⟩ := h
    exact h.sound hw
  | runReconciliation batchId records windowStart windowEnd => cases hcall

/-- With the feed held fixed. -/
theorem History.feed_eq {ι : Type} {st st' : Store} {log : List (Commit postgres ι)}
    (h : History (feedEnv fun _ _ => False) st log st') : st'.feed = st.feed := by
  induction h with
  | nil => rfl
  | env _ he ih =>
    obtain ⟨f, hf, -⟩ := he
    exact hf.elim
  | @commit log c _ ih =>
    have hsame : (c.before.after (writesOf c.tx)).feed = c.before.feed := c.before.after_feed _
    exact hsame.trans ih

section Serial

variable {ι : Type} [DecidableEq ι] {rt : Runtime} {st₀ : Store} {calls : ι → Call} {σ : Config postgres ι Value}

/-- Every statement of a committed transaction can be run again in its place on the store that it was committed
on. -/
theorem WellFormed.reruns (h : WellFormed (feedEnv fun _ _ => False) st₀ (fun i => (calls i).prog rt) σ)
    {l l' : List (Commit postgres ι)} {c : Commit postgres ι} (hl : σ.world.log = l ++ c :: l')
    (hcall : (calls c.caller).serial = true) : Each (Rerun (D := postgres) Stmt.Same c.before c.began) [] c.tx := by
  have hc : c ∈ σ.world.log := by simp [hl]
  obtain ⟨v, hshape⟩ := h.shape hc
  have hsound := hshape.sound hcall (h.witnessed hl)
  have hpaired : ∀ c' ∈ l, Paired (writesOf c'.tx) := by
    intro c' hc'
    apply h.paired
    simp [hl, hc']
  have hfixed (st : Store) (l : List (Commit postgres ι)) (hst : History (feedEnv fun _ _ => False) st l c.before)
      (ws : List Write) : (st.after ws).feed = c.before.feed := by rw [Store.after_feed, hst.feed_eq]
  have hseen := (h.committed l c l' hl).2.1.witnessed_by (P := fun st => st.feed = c.before.feed) hpaired hfixed
  apply (hseen.and hsound).imp
  rintro pre e - ⟨⟨st, ch, hfeed, hdrift, hev, hthere⟩, hstands⟩
  have hlock : ∀ w ∈ e.writes, ∀ k, w.locked = some k → k ∈ locksOf (pre ++ [e]) :=
    fun w hw k hk => mem_locksOf_snoc hw hk
  have hfeed' : (c.before.after (writesOf pre)).feed = st.feed := by rw [Store.after_feed, hfeed]
  obtain ⟨r, hr, hev'⟩ := eval_stable hdrift hfeed' hev hlock (hstands st hthere)
  exact ⟨ch, r, hr, postgres_eval_ok.mpr hev'⟩

/-- A call whose transaction has committed, run alone from its start on the store that it was committed on, commits
it again. -/
theorem WellFormed.alone (h : WellFormed (feedEnv fun _ _ => False) st₀ (fun i => (calls i).prog rt) σ)
    {l l' : List (Commit postgres ι)} {c : Commit postgres ι} (hl : σ.world.log = l ++ c :: l')
    (hcall : (calls c.caller).serial = true) : ∃ v, Outcome rt c.before (calls c.caller) (.ok v) c.after := by
  have hc : c ∈ σ.world.log := by simp [hl]
  obtain ⟨done, tx, p, ht, hd, -⟩ := h.trace c.caller
  have hmem := mem_ownOf hc
  rw [← hd] at hmem
  obtain ⟨a, a', ha⟩ := mem_committedOf hmem
  obtain ⟨-, v, hv⟩ := Contract.commit_of_trace (Call.once (Call.once_of_serial hcall)) ht ha
  have hpath := hv.path ht (List.ne_nil_of_mem hmem)
  have hrun : ∃ τ,
    Reaches (feedEnv fun _ _ => False) (System rt c.before c.began fun _ : Unit => calls c.caller) τ ∧
      (τ.session ()).prog = some (.ret v) ∧ τ.world.store = c.after :=
    (Call.blind hcall rt).commits hpath (h.reruns hl hcall)
  obtain ⟨τ, hreaches, hret, hstore⟩ := hrun
  exact ⟨v, τ, ⟨c.began, hreaches⟩, result_ok.mpr hret, hstore⟩

theorem WellFormed.commits_once (h : WellFormed (feedEnv fun _ _ => False) st₀ (fun i => (calls i).prog rt) σ)
    {i : ι}
    (hcall : (calls i).serial = true) : (ownOf i σ.world.log).length ≤ 1 := by
  obtain ⟨done, tx, p, ht, hd, -⟩ := h.trace i
  rw [← hd]
  rcases hcs : committedOf done with - | ⟨t, - | ⟨t', ts⟩⟩
  · simp
  · simp
  · have hsplit : committedOf done = [t] ++ t' :: ts := hcs
    obtain ⟨a, a', rfl, ha⟩ := committedOf_split hsplit
    have hnone := (Contract.commit_of_trace (Call.once (Call.once_of_serial hcall)) ht rfl).1
    rw [ha] at hnone
    cases hnone

/-- The calls, run one after another, each alone and to its end, lead from one store to the other. -/
inductive Serially (rt : Runtime) (st₀ : Store) : List Call → Store → Prop
  | nil : Serially rt st₀ [] st₀
  | call {cs : List Call} {c : Call} {st st' : Store} {v : Value} (h : Serially rt st₀ cs st)
      (ho : Outcome rt st c (.ok v) st') :
      Serially rt st₀ (cs ++ [c]) st'

/-- Whatever the interleaving, the committed store is the one that the calls which have committed leave when they
run one after another, in the order of their commits, from the same start; and no call has committed twice. -/
theorem concurrent_serially (hcalls : ∀ i, (calls i).serial = true)
    (h : Reachable rt (fun _ _ => False) st₀ calls σ) :
    Serially rt st₀ (σ.world.log.map fun c => calls c.caller) σ.world.store ∧
    (σ.world.log.map Commit.caller).Nodup := by
  obtain ⟨clock, hr⟩ := h
  have hwf := reaches_wellFormed hr
  constructor
  · apply hwf.history.invariant fun l st => Serially rt st₀ (l.map fun c => calls c.caller) st
    · exact .nil
    · rintro l st st' - ⟨f, hf, -⟩
      exact hf.elim
    · intro l c l' hl hbefore
      obtain ⟨v, hv⟩ := hwf.alone hl (hcalls c.caller)
      rw [List.map_append]
      exact .call hbefore hv
  · rw [List.nodup_iff_count_le_one]
    intro i
    have hcount : (σ.world.log.map Commit.caller).count i = (ownOf i σ.world.log).length := by
      rw [ownOf, List.length_map, List.count, List.countP_map, List.countP_eq_length_filter]
      rfl
    rw [hcount]
    exact hwf.commits_once (hcalls i)

/-- A payment that one caller authorises while another, which has already read it, wants it failed. -/
def contestedCalls : Fin 3 → Call
  | 0 => .initiatePayment ⟨1, 2, cents 1000, "EUR", none⟩
  | 1 => .authorisePayment 10 3
  | 2 => .failPayment 10 none 3

/-- The second attempt of the third caller follows the commit of the second. -/
def contestedSchedule : List (Fin 3 × Choice) :=
  let subscriptions := sampleStore.feed.webhookSubscriptions.rows
  List.replicate 4 (0, { id := 10 }) ++ List.replicate 4 (0, { id := 80, subscriptions }) ++ [(2, { id := 0 })] ++
    List.replicate 7 (1, { id := 81, subscriptions }) ++ List.replicate 10 (2, { id := 82, subscriptions })

theorem concurrent_serially_contested : ∃ σ,
    (System sampleRuntime sampleStore 0 contestedCalls).run contestedSchedule = some σ ∧
    Serially sampleRuntime sampleStore [contestedCalls 0, contestedCalls 1, contestedCalls 2] σ.world.store := by
  obtain ⟨σ, hσ⟩ := Option.isSome_iff_exists.mp
    (by decide +kernel : ((System sampleRuntime sampleStore 0 contestedCalls).run contestedSchedule).isSome = true)
  have hcallers : ((System sampleRuntime sampleStore 0 contestedCalls).run contestedSchedule).map
      (fun σ => σ.world.log.map Commit.caller) = some [0, 1, 2] := by decide +kernel
  rw [hσ, Option.map_some, Option.some.injEq] at hcallers
  have hserial := (concurrent_serially (by decide) (reachable_of_run hσ)).1
  have hcalls :
      σ.world.log.map (fun c => contestedCalls c.caller) = (σ.world.log.map Commit.caller).map contestedCalls := by
    simp
  rw [hcalls, hcallers] at hserial
  exact ⟨σ, hσ, hserial⟩

end Serial
end PaymentLedger
