import PaymentLedger.Payments.Lifecycle
import PaymentLedger.Payments.Outbox
import PaymentLedger.Transaction.Since

namespace PaymentLedger

/-- What `POST /webhooks/subscriptions` admits. -/
structure CreateWebhookSubscriptionRequest where
  url : String
  secret : String
  eventTypes : List String
  url_length : 1 ≤ url.length ∧ url.length ≤ 2048
  secret_length : 8 ≤ secret.length ∧ secret.length ≤ 255

structure WebhookSubscriptionResponse where
  id : Uuid
  url : String
  eventTypes : List String
  active : Bool
  deriving DecidableEq

/-- A new row of `webhook_subscriptions`; it is active. -/
def WebhookSubscription.new (id : Uuid) (url secret : String) (eventTypes : List String) :
    Except DbError WebhookSubscription := do
  let url ← varchar 2048 url
  let secret ← varchar 255 secret
  let eventTypes ← eventTypes.mapM (varchar 50)
  return ⟨id, url, secret, eventTypes, true⟩

/-- `create_subscription`, for the id that it has drawn: the row that it commits, and its response. -/
def createSubscription (body : CreateWebhookSubscriptionRequest) (id : Uuid) :
    Except DbError (WebhookSubscription × WebhookSubscriptionResponse) := do
  let subscription ← WebhookSubscription.new id body.url body.secret body.eventTypes
  return (subscription, ⟨subscription.id, subscription.url, subscription.eventTypes, subscription.active⟩)

/-- What changes the feed: the API adds subscriptions, and the rates come from elsewhere. -/
inductive ApiFeed (f : Feed) : Feed → Prop
  | subscribed {body : CreateWebhookSubscriptionRequest} {s : WebhookSubscription}
      {response : WebhookSubscriptionResponse}
      {id : Uuid} (hid : f.webhookSubscriptions.find id = none)
      (hs : createSubscription body id = .ok (s, response)) :
      ApiFeed f { f with webhookSubscriptions := f.webhookSubscriptions.insert s }
  | rates (fxRates : Table FxRateRow.id) : ApiFeed f { f with fxRates := fxRates }

theorem ApiFeed.kept {f f' : Feed} (h : ApiFeed f f') :
    f.webhookSubscriptions.rows ⊆ f'.webhookSubscriptions.rows := by
  cases h with
  | subscribed hid hs => exact fun _ hmem => Table.mem_insert_of_mem hmem
  | rates fxRates => exact List.Subset.refl _

def Store.subscriptions (st : Store) : List WebhookSubscription := st.feed.webhookSubscriptions.rows

section Reads

variable {rt : Runtime} {tx : List (Event postgres)}

theorem Enqueued.reads {id : Uuid} {eventType : String} {payload : PyDict} {pre te : List (Event postgres)}
    (h : Enqueued id eventType payload te) (hpre : ∀ e ∈ pre, e.stmt ≠ .selectActiveSubscriptions) :
    ∃ e ∈ pre ++ te, Did .selectActiveSubscriptions (subscriptionsRead (pre ++ te)) e := by
  obtain ⟨subs, e, td, rfl, hd, hds⟩ := h
  have hrest : ∀ e' ∈ td, e'.stmt ≠ .selectActiveSubscriptions := by
    intro e' he'
    obtain ⟨sub, -, i, hi⟩ := forall₂_mem_right hds he'
    exact hi.unsubscribed (by simp)
  refine ⟨e, by simp, ?_⟩
  rw [subscriptionsRead_append, subscriptionsRead_nil hpre, List.nil_append, subscriptionsRead_enqueued hd hrest]
  exact hd

theorem Created.reads {req : NewPayment} {p : Payment} (h : Created req p tx) :
    ∃ e ∈ tx, Did .selectActiveSubscriptions (subscriptionsRead tx) e := by
  obtain ⟨a, id, row, e₁, e₂, e₃, e₄, te, rfl, h₁, -, h₂, h₃, rfl, h₄, hq⟩ := h
  change ∃ e ∈ [e₁, e₂, e₃, e₄] ++ te, Did .selectActiveSubscriptions (subscriptionsRead ([e₁, e₂, e₃, e₄] ++ te)) e
  apply hq.reads
  intro e he
  simp only [List.mem_cons, List.not_mem_nil, or_false] at he
  rcases he with rfl | rfl | rfl | rfl
  · exact h₁.unsubscribed (by simp)
  · exact h₂.unsubscribed (by simp)
  · exact h₃.unsubscribed (by simp)
  · exact h₄.unsubscribed (by simp)

theorem Transitioned.reads {id : Uuid} {toStatus : PaymentStatus} {reason : Option PyStr} {p : Payment}
    (h : Transitioned id toStatus reason p tx) :
    ∃ e ∈ tx, Did .selectActiveSubscriptions (subscriptionsRead tx) e := by
  obtain ⟨row, e₁, e₂, e₃, te, rfl, h₁, -, h₂, h₃, -, hq⟩ := h
  change ∃ e ∈ [e₁, e₂, e₃] ++ te, Did .selectActiveSubscriptions (subscriptionsRead ([e₁, e₂, e₃] ++ te)) e
  apply hq.reads
  intro e he
  simp only [List.mem_cons, List.not_mem_nil, or_false] at he
  rcases he with rfl | rfl | rfl
  · exact h₁.unsubscribed (by simp)
  · exact h₂.unsubscribed (by simp)
  · exact h₃.unsubscribed (by simp)

theorem Moved.reads {id : Uuid} {toStatus : PaymentStatus} {buildLines : Payment → App BuildLinesResult}
    {p : Payment}
    (hb : ∀ p built t, Path (buildLines p) t (.ret built) → ∀ e ∈ t, e.stmt ≠ .selectActiveSubscriptions)
    (h : Moved rt id toStatus buildLines p tx) :
    ∃ e ∈ tx, Did .selectActiveSubscriptions (subscriptionsRead tx) e := by
  obtain ⟨row, built, entryId, e₁, tb, tp, e₂, e₃, te, rfl, h₁, -, hbuilt, -, hp, h₂, h₃, -, hq⟩ := h
  have hsplit : e₁ :: (tb ++ (tp ++ e₂ :: e₃ :: te)) = (e₁ :: (tb ++ (tp ++ [e₂, e₃]))) ++ te := by simp
  rw [hsplit]
  apply hq.reads
  intro e he
  simp only [List.mem_cons, List.mem_append, List.not_mem_nil, or_false] at he
  rcases he with rfl | he | he | rfl | rfl
  · exact h₁.unsubscribed (by simp)
  · exact hb _ _ _ hbuilt e he
  · apply hp.forall (Q := fun s => s ≠ .selectActiveSubscriptions) _ _ _ _ e he <;> simp
  · exact h₂.unsubscribed (by simp)
  · exact h₃.unsubscribed (by simp)

/-- A transaction that changes the status of a payment reads the active subscriptions, once; a claim and
the calls on no payment do not. -/
theorem Call.Shape.reads {call : Call} {v : Option Value} (h : call.Shape rt tx v) :
    (∃ e ∈ tx, Did .selectActiveSubscriptions (subscriptionsRead tx) e) ∨ v = none ∨
    call.touchesPayment = false := by
  cases call with
  | initiatePayment req =>
    obtain ⟨p, -, hp⟩ := h
    exact .inl hp.reads
  | initiatePaymentIdempotent key body req =>
    rcases h with ⟨outcome, hv, -⟩ | ⟨p, -, tc, e, rfl, hc, he⟩
    · exact .inr (.inl hv)
    · left
      obtain ⟨e', hmem, hd⟩ := hc.reads
      have hlast : subscriptionsRead [e] = [] := by
        apply subscriptionsRead_nil
        intro e'' he''
        rw [List.mem_singleton.mp he'']
        exact he.unsubscribed (by simp)
      rw [subscriptionsRead_append, hlast, List.append_nil]
      exact ⟨e', List.mem_append_left _ hmem, hd⟩
  | authorisePayment id n =>
    obtain ⟨p, -, hp⟩ := h
    exact .inl hp.reads
  | failPayment id reason n =>
    obtain ⟨p, -, hp⟩ := h
    exact .inl hp.reads
  | settlePayment id n =>
    obtain ⟨p, -, hp⟩ := h
    left
    apply hp.reads
    intro p' built t hb
    apply settlementLines_forall hb (Q := fun s => s ≠ .selectActiveSubscriptions) <;> simp
  | reversePayment id n =>
    obtain ⟨p, -, hp⟩ := h
    left
    apply hp.reads
    intro p' built t hb
    apply reversalLines_forall hb (Q := fun s => s ≠ .selectActiveSubscriptions) <;> simp
  | postJournalEntry entry n => exact .inr (.inr rfl)
  | runReconciliation batchId records windowStart windowEnd => exact .inr (.inr rfl)

/-- The deeds that read no subscription change no status. -/
theorem Deed.Of.silent {st : Store} {now : ℕ} {call : Call} {v : Option Value} {d : Deed}
    (h : d.Of rt st now call v)
    (hs : v = none ∨ call.touchesPayment = false) (now' : ℕ) : d.history now' = [] := by
  have loud {w : Value} (hv : v = some w) (ht : call.touchesPayment = true) : False := by
    rcases hs with hs | hs
    · rw [hs] at hv
      cases hv
    · rw [hs] at ht
      cases ht
  cases call with
  | initiatePayment req =>
    obtain ⟨row, subs, ds, -, -, hv⟩ := h
    exact (loud hv rfl).elim
  | initiatePaymentIdempotent key body req =>
    rcases h with ⟨claimed, rfl, -, -⟩ | ⟨row, subs, ds, completion, -, -, hv, -⟩
    · rfl
    · exact (loud hv rfl).elim
  | authorisePayment id n =>
    obtain ⟨row, reason, subs, ds, -, -, -, hv⟩ := h
    exact (loud hv rfl).elim
  | failPayment id reason n =>
    obtain ⟨row, reason, subs, ds, -, -, -, hv⟩ := h
    exact (loud hv rfl).elim
  | settlePayment id n =>
    obtain ⟨row, reason, fx, entry, posting, subs, ds, -, -, -, hv⟩ := h
    exact (loud hv rfl).elim
  | reversePayment id n =>
    obtain ⟨row, reason, fx, entry, posting, subs, ds, -, -, -, hv⟩ := h
    exact (loud hv rfl).elim
  | postJournalEntry entry n =>
    obtain ⟨posting, rfl, -⟩ := h
    rfl
  | runReconciliation batchId records windowStart windowEnd =>
    obtain ⟨ws, runId, result, rfl, -⟩ := h
    rfl

end Reads

section Feed

variable {ι : Type} {rt : Runtime} {st₀ : Store} {calls : ι → Call} {σ₁ σ : Config postgres ι Value}

theorem activeSubscriptions_nodup (st : Store) : (st.activeSubscriptions.map WebhookSubscription.id).Nodup :=
  st.feed.webhookSubscriptions.nodup.sublist (List.filter_sublist.map _)

theorem History.subscriptions_kept {st st' : Store} {log : List (Commit postgres ι)}
    (h : History (feedEnv ApiFeed) st log st') : st.subscriptions ⊆ st'.subscriptions := by
  induction h with
  | nil => exact List.Subset.refl _
  | env _ he ih =>
    obtain ⟨f, hf, rfl⟩ := he
    exact List.Subset.trans ih hf.kept
  | commit c _ ih =>
    have hfeed : c.after.feed = c.before.feed := Store.after_feed _ _
    rwa [Store.subscriptions, Store.subscriptions, hfeed]

/-- The rows of a history by payment and status, when no payment has a status twice. -/
theorem Lifecycle.statuses_nodup {st : Store} (hl : Lifecycle st) :
    st.statusHistory.Pairwise fun x y => x.paymentId = y.paymentId → x.toStatus ≠ y.toStatus := by
  rw [List.pairwise_iff_forall_sublist]
  intro x y hxy hid
  have hx : x ∈ st.statusHistory := hxy.subset List.mem_cons_self
  obtain ⟨row, hrow⟩ := Option.isSome_iff_exists.mp (hl.history x hx)
  have hchain := (hl.payments _ row hrow).chain.nodup
  rw [Table.find_key hrow, List.Nodup, List.pairwise_map, Store.historyOf, List.pairwise_filter,
    List.pairwise_iff_forall_sublist] at hchain
  exact hchain hxy (decide_eq_true rfl) (decide_eq_true hid.symm)

/-- What a delivery is about: who gets it, of which payment, for which event. -/
def WebhookDeliveryRow.about (d : WebhookDeliveryRow) : Uuid × Option Uuid × String :=
  (d.subscriptionId, d.paymentId, d.eventType)

theorem event_injective {x y : StatusHistoryRow} (h : x.event = y.event) : x.toStatus = y.toStatus := by
  have hall (s t : PaymentStatus) : "payment." ++ s.value = "payment." ++ t.value → s = t := by
    cases s <;> cases t <;> decide
  exact hall _ _ h

/-- No subscription is told of an event of a payment twice. -/
theorem Published.once {log : List (Commit postgres ι)} {st : Store} (h : Published log st) (hl : Lifecycle st)
    (hsubs : ∀ c ∈ log, ∀ x ∈ historyCreated c.tx, ((subscriptionsRead c.tx).map WebhookSubscription.id).Nodup) :
    (st.webhookDeliveries.rows.map WebhookDeliveryRow.about).Nodup := by
  have hkeys : st.webhookDeliveries.rows.map WebhookDeliveryRow.about =
      (log.flatMap fun c => (historyCreated c.tx).map fun x => (c, x)).flatMap fun n =>
        ((subscriptionsRead n.1.tx).filter (·.wants n.2.event)).map fun s => (s.id,
          some n.2.paymentId, n.2.event) := by
    have hmap : List.Forall₂ Eq ((log.flatMap fun c => c.notices.map fun n => (c, n)).map
        fun n => (n.2.2.id, some n.2.1.paymentId, n.2.1.event))
          (st.webhookDeliveries.rows.map WebhookDeliveryRow.about) := by
      rw [List.forall₂_map_left_iff, List.forall₂_map_right_iff]
      apply h.deliveries.imp
      intro n d hd
      rw [WebhookDeliveryRow.about, hd.subscription, hd.payment, hd.event]
    rw [List.forall₂_eq_eq_eq] at hmap
    rw [← hmap]
    simp [Commit.notices, List.map_flatMap, List.flatMap_assoc, List.flatMap_map, Function.comp_def]
  have hhistory :
      (log.flatMap fun c => (historyCreated c.tx).map fun x => (c, x)).map Prod.snd = st.statusHistory := by
    rw [h.history]
    simp [List.map_flatMap, Function.comp_def]
  rw [hkeys, List.nodup_flatMap]
  refine ⟨?_, ?_⟩
  · intro n hn
    obtain ⟨c, hc, hn⟩ := List.mem_flatMap.mp hn
    obtain ⟨x, hx, rfl⟩ := List.mem_map.mp hn
    have hids := (hsubs c hc x hx).sublist (List.filter_sublist (p := (·.wants x.event)).map _)
    apply List.Nodup.of_map Prod.fst
    rwa [List.map_map]
  · have hpairs := hl.statuses_nodup
    rw [← hhistory, List.pairwise_map] at hpairs
    apply hpairs.imp
    intro n m hne a ha ha'
    obtain ⟨s, -, rfl⟩ := List.mem_map.mp ha
    obtain ⟨s', -, heq⟩ := List.mem_map.mp ha'
    simp only [Prod.mk.injEq, Option.some.injEq] at heq
    exact hne heq.2.1.symm (event_injective heq.2.2.symm)

variable [DecidableEq ι]

theorem Reaches.subscriptions_kept (h : Reaches (feedEnv ApiFeed) σ₁ σ) :
    σ₁.world.store.subscriptions ⊆ σ.world.store.subscriptions := by
  induction h with
  | refl => exact List.Subset.refl _
  | tail _ hs ih =>
    apply List.Subset.trans ih
    cases hs with
    | env he =>
      obtain ⟨f, hf, rfl⟩ := he
      exact hf.kept
    | @commit i k hp =>
      rw [set_world, World.commit, Store.subscriptions, Store.subscriptions, view_eq, Store.after_feed]
      exact List.Subset.refl _
    | _ => exact List.Subset.refl _

/-- A commit that changes a status has read the subscriptions that were active at that moment. -/
theorem WellFormed.notified (h : WellFormed (feedEnv ApiFeed) st₀ (fun i => (calls i).prog rt) σ)
    {c : Commit postgres ι} (hc : c ∈ σ.world.log) {x : StatusHistoryRow} (hx : x ∈ historyCreated c.tx) :
    ∃ st : Store, (subscriptionsRead c.tx).Perm st.activeSubscriptions ∧
      st.subscriptions ⊆ σ.world.store.subscriptions ∧
      ∃ e ∈ c.tx, Did .selectActiveSubscriptions (subscriptionsRead c.tx) e := by
  obtain ⟨l, l', hl⟩ := List.append_of_mem hc
  obtain ⟨-, hrecorded, hlater⟩ := h.committed l c l' hl
  obtain ⟨v, d, hd⟩ := h.does hc
  rcases hd.shape.reads with ⟨e, he, hdid⟩ | hsilent
  · obtain ⟨pre, st, hev⟩ := hrecorded.evaluated.of_mem he
    obtain ⟨choice, heval⟩ := hev.eval
    obtain ⟨-, hperm, -⟩ := eval_selectActiveSubscriptions.mp (hdid.eval (postgres_eval_ok.mp heval))
    rw [view_eq, Store.activeSubscriptions, Store.after_feed] at hperm
    refine ⟨st, hperm, ?_, e, he, hdid⟩
    have hkept : c.before.subscriptions ⊆ c.after.subscriptions := by
      apply History.subscriptions_kept
      exact .commit c .nil
    exact List.Subset.trans (List.Subset.trans hev.since.subscriptions_kept hkept) hlater.subscriptions_kept
  · rw [Deed.historyCreated_eq hd.deed.legal hd.writes, hd.deed.silent hsilent] at hx
    cases hx

/-- What `s` has been sent when the callers that had a transaction open in `σ₁` are left out. -/
theorem WellFormed.delivered (h : WellFormed (feedEnv ApiFeed) st₀ (fun i => (calls i).prog rt) σ)
    (hr : Reaches (feedEnv ApiFeed) σ₁ σ) {s : WebhookSubscription} (hs : s ∈ σ₁.world.store.subscriptions)
    (hactive : s.active = true) {c : Commit postgres ι} (hc : c ∈ σ.world.log.drop σ₁.world.log.length)
    (hidle : (σ₁.session c.caller).tx = []) {x : StatusHistoryRow} (hx : x ∈ historyCreated c.tx)
    (hw : s.wants x.event = true) : (x, s) ∈ c.notices := by
  have hread : ∀ e ∈ c.tx, ∀ subs, Did .selectActiveSubscriptions subs e → s ∈ subs := by
    refine (hr.since (Q := fun e => ∀ subs, Did .selectActiveSubscriptions subs e → s ∈ subs) ?_ hidle).2 c hc rfl
    intro σ' hr' i choice stmt r ws heval subs hdid
    obtain ⟨-, hperm, -⟩ := eval_selectActiveSubscriptions.mp (hdid.eval (postgres_eval_ok.mp heval))
    rw [hperm.mem_iff, Config.view, view_eq, Store.activeSubscriptions, Store.after_feed]
    exact List.mem_filter.mpr ⟨hr'.subscriptions_kept hs, hactive⟩
  obtain ⟨-, -, -, e, he, hdid⟩ := h.notified (List.mem_of_mem_drop hc) hx
  exact List.mem_flatMap.mpr ⟨x, hx, List.mem_map.mpr ⟨s, List.mem_filter.mpr ⟨hread e he _ hdid, hw⟩, rfl⟩⟩

/-- What a subscriber can rely on: once its subscription is committed, every status change that a later
transaction commits and that it wants is put into the outbox for it, with the payment as that commit has left
it; nothing else is, and nothing twice. -/
theorem subscriber_notified (h₀ : Fresh st₀) {clock : ℕ}
    (h₁ : Reaches (feedEnv ApiFeed) (System rt st₀ clock calls) σ₁)
    (h : Reaches (feedEnv ApiFeed) σ₁ σ) :
    (∀ s ∈ σ₁.world.store.subscriptions, s.active = true → ∀ c ∈ σ.world.log.drop σ₁.world.log.length,
      (σ₁.session c.caller).tx = [] → ∀ x ∈ historyCreated c.tx, s.wants x.event = true →
        ∃ d ∈ σ.world.store.webhookDeliveries.rows, Reports c x s d) ∧
    (∀ d ∈ σ.world.store.webhookDeliveries.rows, ∃ s ∈ σ.world.store.subscriptions,
      ∃ c ∈ σ.world.log, ∃ x ∈ historyCreated c.tx, s.active = true ∧ s.wants x.event = true ∧ Reports c x s d) ∧
    (σ.world.store.webhookDeliveries.rows.map WebhookDeliveryRow.about).Nodup := by
  have hreached := h₁.trans h
  have hwf := reaches_wellFormed hreached
  have hpublished := hwf.published h₀
  refine ⟨?_, ?_, ?_⟩
  · intro s hs hactive c hc hidle x hx hw
    have hnotice := hwf.delivered h hs hactive hc hidle hx hw
    have hmem : (c, x, s) ∈ σ.world.log.flatMap fun c => c.notices.map fun n => (c, n) :=
      List.mem_flatMap.mpr ⟨c, List.mem_of_mem_drop hc, List.mem_map_of_mem hnotice⟩
    exact forall₂_mem_right hpublished.deliveries.flip hmem
  · intro d hd
    obtain ⟨n, hn, hreports⟩ := forall₂_mem_right hpublished.deliveries hd
    obtain ⟨c, hc, hcn⟩ := List.mem_flatMap.mp hn
    obtain ⟨m, hm, rfl⟩ := List.mem_map.mp hcn
    obtain ⟨x, hx, hxm⟩ := List.mem_flatMap.mp hm
    obtain ⟨s, hs, rfl⟩ := List.mem_map.mp hxm
    obtain ⟨hread, hw⟩ := List.mem_filter.mp hs
    obtain ⟨st, hperm, hkept, -⟩ := hwf.notified hc hx
    obtain ⟨hthere, hactive⟩ := List.mem_filter.mp (hperm.mem_iff.mp hread)
    exact ⟨s, hkept hthere, c, hc, x, hx, hactive, hw, hreports⟩
  · apply hpublished.once (hwf.lifecycle h₀ (List.prefix_refl _) hwf.history)
    intro c hc x hx
    obtain ⟨st, hperm, -⟩ := hwf.notified hc hx
    exact (hperm.map _).nodup_iff.mpr (activeSubscriptions_nodup st)

end Feed

section Sample

/-- A subscriber to the settlements. -/
def warehouseRequest : CreateWebhookSubscriptionRequest :=
  ⟨"https://warehouse", "password", ["payment.settled"], by decide, by decide⟩

/-- The sample payment has been initiated. -/
def sampleInitiated : Config postgres (Fin 3) Value :=
  ((System sampleRuntime sampleStore 0 sampleCalls).run (sampleSchedule.take 8)).get (by decide +kernel)

/-- The subscription that the request creates then. -/
def warehouseSubscription : WebhookSubscription :=
  ⟨91, "https://warehouse", "password", ["payment.settled"], true⟩

def sampleJoined : Config postgres (Fin 3) Value :=
  let st := sampleInitiated.world.store
  ⟨{ sampleInitiated.world with store := { st with feed := { st.feed with
      webhookSubscriptions := st.feed.webhookSubscriptions.insert warehouseSubscription } } },
        sampleInitiated.session⟩

def sampleRest : List (Fin 3 × Choice) :=
  let subscriptions := sampleJoined.world.store.subscriptions
  List.replicate 7 (1, { id := 81, subscriptions }) ++ List.replicate 13 (2, { id := 82, subscriptions }) ++
    List.replicate 2 (2, { id := 83, subscriptions })

/-- The payment is authorised and settled. -/
def sampleTold : Config postgres (Fin 3) Value := (sampleJoined.run sampleRest).get (by decide +kernel)

/-- The subscriber that joins after the initiation gets the settlement. -/
theorem subscriber_notified_joined : ∃ d ∈ sampleTold.world.store.webhookDeliveries.rows,
    d.about = (91, some 10, "payment.settled") := by
  have hinitiated : (System sampleRuntime sampleStore 0 sampleCalls).run (sampleSchedule.take 8) =
      some sampleInitiated :=
    (Option.some_get _).symm
  have htold : sampleJoined.run sampleRest = some sampleTold := (Option.some_get _).symm
  have hcreated : createSubscription warehouseRequest 91 =
      .ok (warehouseSubscription, ⟨91, "https://warehouse", ["payment.settled"], true⟩) := by decide +kernel
  have hjoined : Reaches (feedEnv ApiFeed) (System sampleRuntime sampleStore 0 sampleCalls) sampleJoined := by
    apply (run_reaches _ _ hinitiated).tail
    exact .env ⟨_, .subscribed (by decide +kernel) hcreated, rfl⟩
  obtain ⟨hnotified, -⟩ := subscriber_notified sampleStore_fresh hjoined (run_reaches _ _ htold)
  have hlog : ((sampleTold.world.log.drop sampleJoined.world.log.length).map fun c =>
      (historyCreated c.tx).map fun x => (x.paymentId, x.event)) =
        [[(10, "payment.authorised")], [(10, "payment.settled")]] := by
    decide +kernel
  have hidle : ∀ i, (sampleJoined.session i).tx.isEmpty = true := by decide +kernel
  have hcommit :
      [((10 : Uuid), "payment.settled")] ∈ (sampleTold.world.log.drop sampleJoined.world.log.length).map fun c =>
      (historyCreated c.tx).map fun x => (x.paymentId, x.event) := by
    rw [hlog]
    simp
  obtain ⟨c, hc, hx⟩ := List.mem_map.mp hcommit
  obtain ⟨x, hmem, hevent⟩ := List.mem_map.mp (by rw [hx]; exact List.mem_singleton_self _ :
    ((10 : Uuid), "payment.settled") ∈ (historyCreated c.tx).map fun x => (x.paymentId, x.event))
  obtain ⟨hpayment, hsettled⟩ := Prod.mk.inj hevent
  obtain ⟨d, hd, hreports⟩ :=
    hnotified warehouseSubscription (by decide +kernel) rfl c hc (List.isEmpty_iff.mp (hidle _))
    x hmem (by rw [hsettled]; decide)
  refine ⟨d, hd, ?_⟩
  rw [WebhookDeliveryRow.about, hreports.subscription, hreports.payment, hreports.event, hpayment, hsettled]
  rfl

end Sample

end PaymentLedger
