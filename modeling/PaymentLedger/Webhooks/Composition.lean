import PaymentLedger.Payments.Outbox
import PaymentLedger.Webhooks.Workers

namespace PaymentLedger

/-- A delivery without its progress: what the API writes of it, in the columns that the dispatchers leave alone. -/
def WebhookDeliveryRow.enqueued (row : WebhookDelivery) : WebhookDelivery :=
  { row with status := .pending, attemptCount := 0, nextAttemptAt := 0, lastError := none }

theorem enqueued_id (row : WebhookDelivery) : row.enqueued.id = row.id := rfl

/-- A store without the progress of its deliveries. -/
def Store.undispatched (st : Store) : Store :=
  { st with webhookDeliveries := st.webhookDeliveries.map WebhookDeliveryRow.enqueued enqueued_id }

section Progress

variable {st st' : Store}

/-- No statement of the API reads the progress of a delivery. -/
theorem eval_undispatched (st : Store) (now : ℕ) (c : Choice) (s : Stmt) :
    Stmt.eval st.undispatched now c s = Stmt.eval st now c s := by
  cases s with
  | insertDelivery subscriptionId paymentId eventType payload =>
    have hid : st.undispatched.hasDelivery c.id = st.hasDelivery c.id := by
      rw [Store.hasDelivery, Store.undispatched, Table.find_map, Option.isSome_map]
      rfl
    simp only [Stmt.eval, hid]
    rfl
  | _ => rfl

theorem eval_congr (h : st.undispatched = st'.undispatched) (now : ℕ) (c : Choice) (s : Stmt) :
    postgres.eval s st now c = postgres.eval s st' now c := by
  simp only [postgres, ← eval_undispatched st, h, eval_undispatched st']

theorem apply_undispatched (w : Write) (st : Store) :
    (w.apply st).undispatched = (w.apply st.undispatched).undispatched := by
  cases w with
  | insertDelivery row =>
    simp only [Store.undispatched, Write.apply, Write.onDeliveries, Table.map_insert, Table.map_map]
    rfl
  | _ =>
    simp only [Store.undispatched, Write.apply, Write.onDeliveries, Table.map_map]
    rfl

theorem after_undispatched (ws : List Write) (st : Store) :
    (st.after ws).undispatched = (st.undispatched.after ws).undispatched := by
  induction ws generalizing st with
  | nil => rw [Store.after_nil, Store.after_nil, Store.undispatched, Store.undispatched, Table.map_map]; rfl
  | cons w ws ih => rw [Store.after_cons, Store.after_cons, ih, apply_undispatched, ← ih]

theorem after_congr (h : st.undispatched = st'.undispatched) (ws : List Write) :
    (st.after ws).undispatched = (st'.after ws).undispatched := by
  rw [after_undispatched, h, ← after_undispatched]

/-- The commit of a dispatcher changes nothing but progress. -/
theorem flush_undispatched (s : LoadedRow) (id : Uuid) :
    ({ st with webhookDeliveries := st.webhookDeliveries.modify id s.flush s.flush_id } : Store).undispatched =
      st.undispatched := by
  have hmap := st.webhookDeliveries.map_modify (k := id) s.flush_id enqueued_id fun _ => rfl
  simp only [Store.undispatched, hmap]

end Progress

section Service

variable {ι : Type} [DecidableEq ι]

def Commit.undispatched (c : Commit postgres ι) : Commit postgres ι :=
  { c with before := Store.undispatched c.before }

/-- The service as it is without the dispatchers. -/
def Config.undispatched (σ : Config postgres ι Value) : Config postgres ι Value :=
  ⟨⟨Store.undispatched σ.world.store, σ.world.clock, σ.world.log.map Commit.undispatched⟩, σ.session⟩

variable {step : Feed → Feed → Prop} {σ σ₁ τ₁ : Config postgres ι Value}

/-- What the service can do beside the dispatchers it can do without them. -/
theorem Step.undispatched (h : Step (feedEnv step) σ₁ τ₁) (hs : σ₁.undispatched = σ.undispatched) :
    ∃ τ, Step (feedEnv step) σ τ ∧ τ₁.undispatched = τ.undispatched := by
  obtain ⟨⟨st₁, t₁, log₁⟩, S₁⟩ := σ₁
  obtain ⟨⟨st, t, log⟩, S⟩ := σ
  obtain ⟨hworld, hsession⟩ := Config.mk.inj hs
  obtain ⟨hst, hclock, hlog⟩ := World.mk.inj hworld
  simp only at hst hclock hlog hsession
  subst hclock hsession
  have hlength : log₁.length = log.length := by
    simpa using congrArg List.length hlog
  cases h with
  | @exec i s k r ws c hp he hf =>
    refine ⟨_, .exec (r := r) c hp ?_ hf, ?_⟩
    · rw [← he]
      exact (eval_congr (after_congr hst _) _ c s).symm
    · simp only [Config.undispatched, Config.set, hst, hlog, hlength]
      rfl
  | @fail i s k e c hp he =>
    refine ⟨_, .fail (e := e) c hp ?_, ?_⟩
    · rw [← he]
      exact (eval_congr (after_congr hst _) _ c s).symm
    · simp only [Config.undispatched, Config.set, hst, hlog]
      rfl
  | @commit i k hp =>
    refine ⟨_, .commit hp, ?_⟩
    have hafter : Store.undispatched (view (S₁ i).tx st₁) = Store.undispatched (view (S₁ i).tx st) :=
      after_congr hst _
    simp only [Config.undispatched, Config.set, World.commit, hafter, List.map_append, hlog,
      List.map_cons, List.map_nil, Commit.undispatched, hst]
    rfl
  | @rollback i k hp =>
    refine ⟨_, .rollback hp, ?_⟩
    simp only [Config.undispatched, Config.set, hst, hlog]
  | crash i =>
    refine ⟨_, .crash _ i, ?_⟩
    simp only [Config.undispatched, Config.set, hst, hlog]
  | @tick t' ht =>
    refine ⟨_, .tick ht, ?_⟩
    simp only [Config.undispatched, hst, hlog]
  | @env st' he =>
    obtain ⟨f, hf, rfl⟩ := he
    have hfeed : (Store.undispatched st₁).feed = (Store.undispatched st).feed := by rw [hst]
    have hchanged : ({ st₁ with feed := f } : Store).undispatched = ({ st with feed := f } : Store).undispatched :=
      congrArg (fun s : Store => { s with feed := f }) hst
    refine ⟨_, .env ⟨f, hfeed ▸ hf, rfl⟩, ?_⟩
    simp only [Config.undispatched, hchanged, hlog]

omit [DecidableEq ι] in
/-- A report is of what is enqueued. -/
theorem reports_undispatched {c : Commit postgres ι} {h : StatusHistoryRow} {s : WebhookSubscription}
    {d : WebhookDelivery} :
    Reports c.undispatched h s d.enqueued ↔ Reports c h s d := by
  have hpayments : c.undispatched.after.payments = c.after.payments := by
    change ((Store.undispatched c.before).after (writesOf c.tx)).undispatched.payments =
      (Store.after c.before (writesOf c.tx)).undispatched.payments
    rw [← after_undispatched]
  constructor
  · intro hr
    exact ⟨hr.subscription, hr.payment, hr.event, hpayments ▸ hr.payload⟩
  · intro hr
    exact ⟨hr.subscription, hr.payment, hr.event, hpayments.symm ▸ hr.payload⟩

omit [DecidableEq ι] in
theorem published_undispatched {log : List (Commit postgres ι)} {st : Store} :
    Published (log.map Commit.undispatched) st.undispatched ↔ Published log st := by
  have hnotices : ((log.map Commit.undispatched).flatMap fun c => c.notices.map fun n => (c, n)) =
      (log.flatMap fun c => c.notices.map fun n => (c, n)).map fun n => (n.1.undispatched, n.2) := by
    rw [List.flatMap_map, List.map_flatMap]
    congr 1
    funext c
    rw [List.map_map]
    rfl
  have hdeliveries : List.Forall₂ (fun x d => Reports x.1 x.2.1 x.2.2 d)
      ((log.map Commit.undispatched).flatMap fun c => c.notices.map fun n => (c, n))
        st.undispatched.webhookDeliveries.rows ↔
        List.Forall₂ (fun x d => Reports x.1 x.2.1 x.2.2 d) (log.flatMap fun c => c.notices.map fun n => (c, n))
          st.webhookDeliveries.rows := by
    rw [hnotices, Store.undispatched, Table.rows_map, List.forall₂_map_left_iff, List.forall₂_map_right_iff]
    simp only [reports_undispatched]
  have hhistory : ((log.map Commit.undispatched).flatMap fun c => historyCreated c.tx) =
      log.flatMap fun c => historyCreated c.tx := by
    rw [List.flatMap_map]
    rfl
  constructor
  · intro h
    exact ⟨h.history.trans hhistory, hdeliveries.mp h.deliveries⟩
  · intro h
    exact ⟨h.history.trans hhistory.symm, hdeliveries.mpr h.deliveries⟩

end Service

namespace Fleet

variable {ω : Type} [DecidableEq ω] {limit maxAttempts : ℕ} {σ τ : Fleet ω}

/-- What the dispatchers hold of a delivery is what was enqueued, and they send it to its subscription. -/
structure Faithful (σ : Fleet ω) : Prop where
  held : ∀ i, ∀ d ∈ (σ.phase i).snapshot, σ.store.undispatched.webhookDeliveries.find d.id = some d.enqueued
  addressed : ∀ i d sub sentAt due subs, σ.phase i = .sending d sub sentAt due subs → sub.id = d.subscriptionId

theorem undispatched_find {st : Store} {id : Uuid} {row : WebhookDelivery}
    (h : st.webhookDeliveries.find id = some row) :
    st.undispatched.webhookDeliveries.find id = some row.enqueued := by
  rw [Store.undispatched, Table.find_map, h, Option.map_some]

theorem Own.addressed {v : Dispatcher} {d : WebhookDelivery} {sub : WebhookSubscription} {sentAt : ℕ}
    {due : List WebhookDelivery}
    {subs : List WebhookSubscription}
    (h : Dispatcher.Own limit maxAttempts v { v with phase := .sending d sub sentAt due subs }) :
    sub.id = d.subscriptionId := by
  generalize hw : { v with phase := .sending d sub sentAt due subs } = w at h
  have hphase : w.phase = .sending d sub sentAt due subs := by rw [← hw]
  cases h with
  | send hp hs =>
    obtain ⟨rfl, rfl, -⟩ := Phase.sending.inj hphase
    have hfound := List.find?_some hs
    exact of_decide_eq_true hfound
  | _ => cases hphase

omit [DecidableEq ω] in
theorem Initial.faithful (h : σ.Initial) : σ.Faithful := by
  refine ⟨?_, ?_⟩
  · intro i d hd
    rw [h.idle] at hd
    cases hd
  · intro i d sub sentAt due subs hp
    rw [h.idle] at hp
    cases hp

/-- One dispatcher has passed to another phase. -/
theorem Faithful.update {σ' : Fleet ω} {i : ω} {p : Phase} (h : σ.Faithful)
    (hphase : σ'.phase = Function.update σ.phase i p)
    (hstore : σ'.store.undispatched = σ.store.undispatched)
    (hheld : ∀ d ∈ p.snapshot, σ.store.undispatched.webhookDeliveries.find d.id = some d.enqueued)
    (haddressed : ∀ d sub sentAt due subs, p = .sending d sub sentAt due subs → sub.id = d.subscriptionId) :
    σ'.Faithful := by
  refine ⟨?_, ?_⟩
  · intro j
    rw [hphase, hstore]
    by_cases hj : j = i
    · subst hj
      rwa [Function.update_self]
    · rw [Function.update_of_ne hj]
      exact h.held j
  · intro j
    rw [hphase]
    by_cases hj : j = i
    · subst hj
      rwa [Function.update_self]
    · rw [Function.update_of_ne hj]
      exact h.addressed j

theorem Faithful.idle {σ' : Fleet ω} {i : ω} (h : σ.Faithful) (hphase : σ'.phase = Function.update σ.phase i .idle)
    (hstore : σ'.store = σ.store) : σ'.Faithful := by
  apply h.update hphase (by rw [hstore])
  · intro d hd
    cases hd
  · intro d sub sentAt due subs hp
    cases hp

theorem Faithful.step (h : σ.Faithful) (hstep : Step limit maxAttempts σ τ) : τ.Faithful := by
  cases hstep with
  | act i hact =>
    cases hact with
    | @work p hs how =>
      refine Faithful.update (i := i) (p := p) h rfl rfl ?_ ?_
      · intro d hd
        rcases how.passes.snapshot d hd with hold | hrow
        · exact h.held i d hold
        · exact undispatched_find (Table.find_of_mem hrow)
      · intro d sub sentAt due subs hp
        rw [hp] at how
        exact Own.addressed how
    | load hp hs hrow hr ha => exact ⟨h.held, h.addressed⟩
    | @flush d s sentAt now outcome due subs hp hs =>
      refine Faithful.update (i := i) (p := .dispatching due subs) h rfl (flush_undispatched s d.id) ?_ ?_
      · intro x hx
        apply h.held i
        rw [hp]
        exact List.mem_cons_of_mem _ hx
      · intro d sub sentAt due subs hp
        cases hp
    | abort hp hs hr => exact h.idle rfl rfl
  | crash i => exact h.idle rfl rfl
  | beside hbeside =>
    obtain ⟨he⟩ := hbeside
    refine ⟨?_, h.addressed⟩
    intro i d hd
    have hheld := h.held i d hd
    rw [Store.undispatched, Table.find_map] at hheld
    obtain ⟨row, hrow, henqueued⟩ := Option.map_eq_some_iff.mp hheld
    rw [← henqueued]
    exact undispatched_find (he.grown.kept _ row hrow)

theorem Reaches.faithful (h : σ.Faithful) (hr : Reaches limit maxAttempts σ τ) : τ.Faithful := by
  induction hr with
  | refl => exact h
  | tail _ hstep ih => exact ih.step hstep

end Fleet

/-- The payment service and the dispatchers on one store. -/
structure Whole (ω ι : Type) where
  config : Config postgres ι Value
  phase : ω → Phase
  session : ω → Option LoadedRow
  begun : List (ω × Uuid)
  answered : List (Uuid × SendOutcome)

namespace Whole

variable {ω ι : Type} [DecidableEq ω] [DecidableEq ι]

/-- What the dispatchers see of it. -/
def fleet (w : Whole ω ι) : Fleet ω :=
  ⟨w.config.world.store, w.config.world.clock, w.phase, w.session, w.begun, w.answered⟩

/-- The service goes on from what the dispatchers have left. -/
def dispatched (w : Whole ω ι) (φ : Fleet ω) : Whole ω ι :=
  ⟨⟨{ w.config.world with store := φ.store }, w.config.session⟩, φ.phase, φ.session, φ.begun, φ.answered⟩

/-- Nothing has been called and no dispatcher has run. -/
def start (rt : Runtime) (st₀ : Store) (clock : ℕ) (calls : ι → Call) : Whole ω ι :=
  ⟨System rt st₀ clock calls, fun _ => .idle, fun _ => none, [], []⟩

/-- One of the callers, or the world around them, takes a step, or one of the dispatchers acts or dies. -/
inductive Step (step : Feed → Feed → Prop) (limit maxAttempts : ℕ) : Whole ω ι → Whole ω ι → Prop
  | service {w : Whole ω ι} {σ : Config postgres ι Value} (h : PaymentLedger.Step (feedEnv step) w.config σ) :
      Step step limit maxAttempts w { w with config := σ }
  | act {w : Whole ω ι} {φ : Fleet ω} (i : ω) (h : Fleet.Act limit maxAttempts i w.fleet φ) :
      Step step limit maxAttempts w (w.dispatched φ)
  | crash {w : Whole ω ι} (i : ω) : Step step limit maxAttempts w { w with
      phase := Function.update w.phase i .idle
      session := Function.update w.session i none }

def Reaches (step : Feed → Feed → Prop) (limit maxAttempts : ℕ) : Whole ω ι → Whole ω ι → Prop :=
  Relation.ReflTransGen (Step step limit maxAttempts)

variable {step : Feed → Feed → Prop} {limit maxAttempts : ℕ} {rt : Runtime} {st₀ : Store}
    {clock : ℕ} {calls : ι → Call}
  {w₀ w w' : Whole ω ι} {σ : Config postgres ι Value} {φ : Fleet ω} {i : ω}

omit [DecidableEq ι] in
theorem dispatched_fleet (h : Fleet.Act limit maxAttempts i w.fleet φ) : (w.dispatched φ).fleet = φ := by
  cases h <;> rfl

omit [DecidableEq ι] in
theorem dispatched_undispatched (h : Fleet.Act limit maxAttempts i w.fleet φ) :
    (w.dispatched φ).config.undispatched = w.config.undispatched := by
  cases h with
  | flush hp hs => simp only [dispatched, fleet, Config.undispatched, flush_undispatched]
  | _ => rfl

/-- Without the dispatchers the service could have gone the same way. -/
theorem Step.service_alone (h : Step step limit maxAttempts w w') (hs : w.config.undispatched = σ.undispatched) :
    ∃ σ', PaymentLedger.Reaches (feedEnv step) σ σ' ∧ w'.config.undispatched = σ'.undispatched := by
  cases h with
  | service h =>
    obtain ⟨σ', hstep, hsame⟩ := h.undispatched hs
    exact ⟨σ', .single hstep, hsame⟩
  | act i h => exact ⟨σ, .refl, (dispatched_undispatched h).trans hs⟩
  | crash i => exact ⟨σ, .refl, hs⟩

theorem Reaches.service_alone (h : Reaches step limit maxAttempts w₀ w) :
    ∃ σ, PaymentLedger.Reaches (feedEnv step) w₀.config σ ∧ w.config.undispatched = σ.undispatched := by
  induction h with
  | refl => exact ⟨_, .refl, rfl⟩
  | tail _ hs ih =>
    obtain ⟨σ, hr, hsame⟩ := ih
    obtain ⟨σ', hr', hsame'⟩ := hs.service_alone hsame
    exact ⟨σ', hr.trans hr', hsame'⟩

/-- To the dispatchers the service is a part of their environment. -/
theorem Step.fleet_alone (h : Step step limit maxAttempts w w') (hs : w.config.undispatched = σ.undispatched)
    (hr : Reachable rt step st₀ calls σ) : Fleet.Reaches limit maxAttempts w.fleet w'.fleet := by
  cases h with
  | service h =>
    have beside {st : Store} {t : ℕ}
      (he : Dispatcher.Env ⟨w.config.world.store, w.config.world.clock, .idle, []⟩ ⟨st, t, .idle, []⟩) :
        Fleet.Reaches limit maxAttempts w.fleet { w.fleet with store := st, clock := t } :=
      .single (.beside (.env he))
    cases h with
    | @commit j k hp =>
      -- the same transaction commits without the dispatchers
      have hsession : w.config.session = σ.session := by
        change w.config.undispatched.session = σ.undispatched.session
        rw [hs]
      obtain ⟨clock, hreach⟩ := hr
      have hcommitted := hreach.tail (.commit (i := j) (k := k) (by rw [← hsession]; exact hp))
      have henqueues := Reachable.enqueues ⟨clock, hcommitted⟩ ⟨j, (σ.session j).tx, σ.start j, σ.world.store⟩
        (List.mem_append_right _ (List.mem_singleton_self _))
      rw [← hsession] at henqueues
      exact beside (.commit henqueues)
    | tick ht => exact beside (.tick ht)
    | env he =>
      obtain ⟨f, -, rfl⟩ := he
      exact beside (.admin f)
    | _ => exact .refl
  | act i h =>
    rw [dispatched_fleet h]
    exact .single (.act i h)
  | crash i => exact .single (.crash i)

theorem Reaches.fleet_alone (h : Reaches step limit maxAttempts w₀ w) (h₀ : w₀.config = System rt st₀ clock calls) :
    Fleet.Reaches limit maxAttempts w₀.fleet w.fleet := by
  induction h with
  | refl => exact .refl
  | tail hr hs ih =>
    obtain ⟨σ, hσ, hsame⟩ := Reaches.service_alone hr
    rw [h₀] at hσ
    exact ih.trans (hs.fleet_alone hsame ⟨clock, hσ⟩)

/-- The service and the dispatchers together do nothing that they would not do apart: to the service it is as if no
delivery were ever dispatched, and to the dispatchers the service is other transactions that enqueue. -/
theorem dispatch_beside_service (h : Reaches step limit maxAttempts (start rt st₀ clock calls) w) :
    (∃ σ, Reachable rt step st₀ calls σ ∧ w.config.undispatched = σ.undispatched) ∧
      Fleet.Reaches limit maxAttempts (start rt st₀ clock calls).fleet w.fleet := by
  obtain ⟨σ, hσ, hsame⟩ := h.service_alone
  exact ⟨⟨σ, ⟨clock, hσ⟩, hsame⟩, h.fleet_alone rfl⟩

omit [DecidableEq ω] in
theorem start_initial (h₀ : Fresh st₀) : (start (ω := ω) rt st₀ clock calls).fleet.Initial := by
  refine ⟨fun _ => rfl, fun _ => rfl, rfl, rfl, ?_⟩
  intro row hrow
  change row ∈ st₀.webhookDeliveries.rows at hrow
  rw [h₀.deliveries] at hrow
  cases hrow

theorem Reaches.published (h : Reaches step limit maxAttempts (start rt st₀ clock calls) w) (h₀ : Fresh st₀) :
    Published w.config.world.log w.config.world.store := by
  obtain ⟨σ, hσ, hsame⟩ := h.service_alone
  have hpublished := published_undispatched.mpr ((reaches_wellFormed hσ).published h₀)
  have hworld := congrArg Config.world hsame
  have hlog : w.config.world.log.map Commit.undispatched = σ.world.log.map Commit.undispatched :=
    congrArg World.log hworld
  have hstore : Store.undispatched w.config.world.store = Store.undispatched σ.world.store :=
    congrArg World.store hworld
  rw [← hlog, ← hstore] at hpublished
  exact published_undispatched.mp hpublished

/-- From the commit to the answer: the outbox tells each subscription of each status change that it wants, what a
delivery says of its progress has been answered, and a request that is under way tells its subscription of a status
change that has been committed, whoever dispatches and dies meanwhile. -/
theorem status_changes_told (h₀ : Fresh st₀) (h : Reaches step limit maxAttempts (start rt st₀ clock calls) w) :
    List.Forall₂ (fun n d => Reports n.1 n.2.1 n.2.2 d ∧ d.Backed maxAttempts w.answered)
      (w.config.world.log.flatMap fun c => c.notices.map fun n => (c, n))
        w.config.world.store.webhookDeliveries.rows ∧
    ∀ i d sub sentAt due subs, w.phase i = .sending d sub sentAt due subs →
      ∃ c ∈ w.config.world.log, ∃ x s, (x, s) ∈ c.notices ∧ sub.id = s.id ∧ Reports c x s d := by
  have hfleet := h.fleet_alone rfl
  have hinitial : (start (ω := ω) rt st₀ clock calls).fleet.Initial := start_initial h₀
  have hpublished := h.published h₀
  have hinv := hfleet.inv hinitial.inv
  have hfaithful := hfleet.faithful hinitial.faithful
  refine ⟨?_, ?_⟩
  · have hbacked : ∀ d ∈ w.config.world.store.webhookDeliveries.rows, d.Backed maxAttempts w.answered := by
      intro d hd
      exact hinv.rows d.id d (Table.find_of_mem hd)
    apply List.Forall₂.flip
    apply ((List.forall₂_and_left _ _).mpr ⟨hbacked, hpublished.deliveries.flip⟩).imp
    intro d n hdn
    exact ⟨hdn.2, hdn.1⟩
  · intro i d sub sentAt due subs hp
    have hheld := hfaithful.held i d (by rw [show w.fleet.phase i = _ from hp]; exact List.mem_cons_self)
    rw [Store.undispatched, Table.find_map] at hheld
    obtain ⟨row, hrow, henqueued⟩ := Option.map_eq_some_iff.mp hheld
    obtain ⟨n, hn, hreports⟩ := forall₂_mem_right hpublished.deliveries (Table.mem_of_find hrow)
    obtain ⟨c, hc, hn⟩ := List.mem_flatMap.mp hn
    obtain ⟨m, hm, rfl⟩ := List.mem_map.mp hn
    have hd : Reports c m.1 m.2 d := by
      rw [← reports_undispatched, ← henqueued]
      exact reports_undispatched.mpr hreports
    exact ⟨c, hc, m.1, m.2, hm, (hfaithful.addressed i d sub sentAt due subs hp).trans hd.subscription, hd⟩

section Sample

/-- The dispatchers may rest. -/
theorem Reaches.service (h : PaymentLedger.Reaches (feedEnv step) w.config σ) :
    Reaches step limit maxAttempts w { w with config := σ } := by
  induction h with
  | refl => exact .refl
  | tail _ hs ih => exact ih.tail (.service hs)

/-- One of two dispatchers sends what the sample run has enqueued. -/
theorem sample_sending : ∃ w : Whole Bool (Fin 3),
    Reaches Eq 1 2 (start sampleRuntime sampleStore 0 sampleCalls) w ∧
      ∃ d sub sentAt due subs, w.phase false = .sending d sub sentAt due subs := by
  have hrun : Reaches (ω := Bool) Eq 1 2 (start sampleRuntime sampleStore 0 sampleCalls) _ :=
    .service (σ := sampleEnd) (run_reaches _ _ (Option.some_get _).symm)
  have hsorted : (sampleEnd.world.store.dueDeliveries sampleEnd.world.clock).Pairwise fun d d' =>
      d.nextAttemptAt ≤ d'.nextAttemptAt := by decide +kernel
  have hsome : (sampleEnd.world.store.dueDeliveries sampleEnd.world.clock).take 1 ≠ [] := by decide +kernel
  have hsubs : ∀ d ∈ sampleEnd.world.store.dueDeliveries sampleEnd.world.clock,
      (subscriptionById sampleEnd.world.store.activeSubscriptions d.subscriptionId).isSome =
        true := by decide +kernel
  obtain ⟨d, due, hdue⟩ := List.exists_cons_of_ne_nil hsome
  have hd : d ∈ sampleEnd.world.store.dueDeliveries sampleEnd.world.clock := by
    apply List.mem_of_mem_take (i := 1)
    rw [hdue]
    exact List.mem_cons_self
  obtain ⟨sub, hsub⟩ := Option.isSome_iff_exists.mp (hsubs d hd)
  have hlist := listDue_some.mpr ⟨List.Perm.refl _, hsorted, hdue.symm⟩
  have hstarted := hrun.tail (.act false (.work rfl (.start rfl)))
  have hlisted := hstarted.tail (.act false (.work rfl (.list _ rfl hlist)))
  have hsubscribed := hlisted.tail (.act false (.work rfl (.subscribe rfl)))
  exact ⟨_, hsubscribed.tail (.act false (.work rfl (.send rfl hsub))), d, sub, _, due, _, rfl⟩

theorem dispatch_beside_sample : ∃ w : Whole Bool (Fin 3), ∃ d sub sentAt due subs,
    w.phase false = .sending d sub sentAt due subs ∧
    (∃ σ, Reachable sampleRuntime Eq sampleStore sampleCalls σ ∧ w.config.undispatched = σ.undispatched) ∧
      Fleet.Reaches 1 2 (start sampleRuntime sampleStore 0 sampleCalls).fleet w.fleet := by
  obtain ⟨w, hr, d, sub, sentAt, due, subs, hp⟩ := sample_sending
  exact ⟨w, d, sub, sentAt, due, subs, hp, dispatch_beside_service hr⟩

theorem status_changes_told_sample : Fresh sampleStore ∧ ∃ w :
    Whole Bool (Fin 3), ∃ d, ∃ c ∈ w.config.world.log, ∃ x s,
    (x, s) ∈ c.notices ∧ Reports c x s d := by
  obtain ⟨w, hr, d, sub, sentAt, due, subs, hp⟩ := sample_sending
  obtain ⟨-, hsending⟩ := status_changes_told sampleStore_fresh hr
  obtain ⟨c, hc, x, s, hnotice, -, hreports⟩ := hsending false d sub sentAt due subs hp
  exact ⟨sampleStore_fresh, w, d, c, hc, x, s, hnotice, hreports⟩

end Sample
end Whole
end PaymentLedger
