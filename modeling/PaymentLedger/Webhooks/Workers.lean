import PaymentLedger.Webhooks.Progress

namespace PaymentLedger

/-- A row in a session, as it was loaded and with what has been assigned to it since. -/
structure LoadedRow where
  loaded : WebhookDelivery
  assigned : WebhookDelivery

/-- A column at the commit of a session: it is written only if its value has changed since the row was loaded. -/
def flushed {α : Type} [DecidableEq α] (loaded assigned current : α) : α :=
  if assigned = loaded then current else assigned

/-- The stored row after the commit of a session. The dispatcher assigns to these columns alone. -/
def LoadedRow.flush (s : LoadedRow) (current : WebhookDelivery) : WebhookDelivery :=
  { current with
    status := flushed s.loaded.status s.assigned.status current.status
    attemptCount := flushed s.loaded.attemptCount s.assigned.attemptCount current.attemptCount
    nextAttemptAt := flushed s.loaded.nextAttemptAt s.assigned.nextAttemptAt current.nextAttemptAt
    lastError := flushed s.loaded.lastError s.assigned.lastError current.lastError }

theorem LoadedRow.flush_id (s : LoadedRow) (current : WebhookDelivery) : (s.flush current).id = current.id := rfl

namespace Phase

/-- The request that is begun on entering the phase. -/
def begins : Phase → Option Uuid
  | sending d _ _ _ _ => some d.id
  | _ => none

/-- The answer that is received on entering the phase. -/
def answer : Phase → Option (Uuid × SendOutcome)
  | recording d _ outcome _ _ => some (d.id, outcome)
  | _ => none

/-- The answer that has been received and is not recorded. -/
def received : Phase → Option (WebhookDelivery × SendOutcome)
  | recording d _ outcome _ _ => some (d, outcome)
  | storing d _ outcome _ _ _ => some (d, outcome)
  | _ => none

/-- The deliveries that the cycle has listed and not reached. -/
def waiting : Phase → List WebhookDelivery
  | listed due => due
  | dispatching due _ => due
  | sending _ _ _ due _ => due
  | recording _ _ _ due _ => due
  | storing _ _ _ _ due _ => due
  | _ => []

end Phase

/-- Any number of dispatchers on one store: what each does, the row that its session holds, and the requests begun
and answered so far. -/
structure Fleet (ω : Type) where
  store : Store
  clock : ℕ
  phase : ω → Phase
  session : ω → Option LoadedRow
  begun : List (ω × Uuid)
  answered : List (Uuid × SendOutcome)

namespace Fleet

variable {ω : Type} [DecidableEq ω] (limit maxAttempts : ℕ)

/-- One of the dispatchers, between its transactions. -/
def view (σ : Fleet ω) (i : ω) : Dispatcher := ⟨σ.store, σ.clock, σ.phase i, []⟩

/-- What the dispatcher `i` does. The transaction that records an outcome reads the clock, loads the row and writes
the changed columns at its commit; in between the others go on. -/
inductive Act (i : ω) : Fleet ω → Fleet ω → Prop
  | work {σ : Fleet ω} {p : Phase} (hs : σ.session i = none)
      (how : Dispatcher.Own limit maxAttempts (σ.view i) { σ.view i with phase := p }) :
      Act i σ { σ with
        phase := Function.update σ.phase i p
        begun := σ.begun ++ (p.begins.map fun id => (i, id)).toList
        answered := σ.answered ++ p.answer.toList }
  | load {σ : Fleet ω} {d row assigned : WebhookDelivery} {sentAt now : ℕ} {outcome : SendOutcome}
      {due : List WebhookDelivery} {subs : List WebhookSubscription} {st : Store}
      (hp : σ.phase i = .storing d sentAt outcome now due subs) (hs : σ.session i = none)
      (hrow : σ.store.webhookDeliveries.find d.id = some row)
      (hr : σ.store.recordOutcome maxAttempts now d outcome = .ok st)
      (ha : st.webhookDeliveries.find d.id = some assigned) :
      Act i σ { σ with session := Function.update σ.session i (some ⟨row, assigned⟩) }
  | flush {σ : Fleet ω} {d : WebhookDelivery} {s : LoadedRow} {sentAt now : ℕ} {outcome : SendOutcome}
      {due : List WebhookDelivery} {subs : List WebhookSubscription}
      (hp : σ.phase i = .storing d sentAt outcome now due subs) (hs : σ.session i = some s) :
      Act i σ { σ with
        store := { σ.store with
          webhookDeliveries := σ.store.webhookDeliveries.modify d.id s.flush s.flush_id }
        phase := Function.update σ.phase i (.dispatching due subs)
        session := Function.update σ.session i none }
  | abort {σ : Fleet ω} {d : WebhookDelivery} {sentAt now : ℕ} {outcome : SendOutcome}
      {due : List WebhookDelivery} {subs : List WebhookSubscription} {e : AppError}
      (hp : σ.phase i = .storing d sentAt outcome now due subs) (hs : σ.session i = none)
      (hr : σ.store.recordOutcome maxAttempts now d outcome = .error e) :
      Act i σ { σ with phase := Function.update σ.phase i .idle }

/-- What happens beside the dispatchers. -/
inductive Beside : Fleet ω → Fleet ω → Prop
  | env {σ : Fleet ω} {st : Store} {clock : ℕ}
      (he : Dispatcher.Env ⟨σ.store, σ.clock, .idle, []⟩ ⟨st, clock, .idle, []⟩) :
      Beside σ { σ with store := st, clock := clock }

/-- A step of the fleet; each dispatcher may die at any moment. -/
inductive Step : Fleet ω → Fleet ω → Prop
  | act {σ τ : Fleet ω} (i : ω) (h : Act limit maxAttempts i σ τ) : Step σ τ
  | crash {σ : Fleet ω} (i : ω) :
      Step σ { σ with phase := Function.update σ.phase i .idle, session := Function.update σ.session i none }
  | beside {σ τ : Fleet ω} (h : Beside σ τ) : Step σ τ

def Reaches : Fleet ω → Fleet ω → Prop := Relation.ReflTransGen (Step limit maxAttempts)

/-- Before the first cycle: whatever is enqueued has not been tried. -/
structure Initial (σ : Fleet ω) : Prop where
  idle : ∀ i, σ.phase i = .idle
  closed : ∀ i, σ.session i = none
  unbegun : σ.begun = []
  unanswered : σ.answered = []
  fresh : ∀ row ∈ σ.store.webhookDeliveries.rows, row.Fresh

end Fleet

/-- How many requests of a delivery have failed. -/
def failures (answered : List (Uuid × SendOutcome)) (id : Uuid) : ℕ :=
  (answered.filter fun a => a.1 = id ∧ a.2.success = false).length

/-- What a row says of its delivery has been answered. -/
structure WebhookDeliveryRow.Backed (row : WebhookDelivery) (maxAttempts : ℕ)
    (answered : List (Uuid × SendOutcome)) : Prop where
  delivered : row.status = .delivered → ∃ outcome, (row.id, outcome) ∈ answered ∧ outcome.success = true
  deadLetter : row.status = .deadLetter → maxAttempts ≤ failures answered row.id
  count : row.attemptCount ≤ failures answered row.id

section Rows

variable {maxAttempts : ℕ} {answered new : List (Uuid × SendOutcome)} {row d : WebhookDelivery}

theorem failures_append (id : Uuid) : failures (answered ++ new) id = failures answered id + failures new id := by
  simp [failures, List.filter_append]

theorem failures_answer {id : Uuid} {outcome : SendOutcome} (h : outcome.success = false) :
    failures [(id, outcome)] id = 1 := by
  simp [failures, h]

theorem WebhookDeliveryRow.Backed.mono (h : row.Backed maxAttempts answered) :
    row.Backed maxAttempts (answered ++ new) where
  delivered := by
    intro hs
    obtain ⟨outcome, hmem, ho⟩ := h.delivered hs
    exact ⟨outcome, List.mem_append_left _ hmem, ho⟩
  deadLetter := by
    intro hs
    have hle := h.deadLetter hs
    rw [failures_append]
    omega
  count := by
    have hle := h.count
    rw [failures_append]
    omega

theorem WebhookDeliveryRow.Fresh.backed (h : row.Fresh) : row.Backed maxAttempts answered where
  delivered := by
    intro hs
    rw [h.1] at hs
    cases hs
  deadLetter := by
    intro hs
    rw [h.1] at hs
    cases hs
  count := by
    rw [h.2]
    exact Nat.zero_le _

theorem flushed_cases {α : Type} [DecidableEq α] (loaded assigned current : α) :
    flushed loaded assigned current = current ∨ flushed loaded assigned current = assigned := by
  unfold flushed
  split
  · exact .inl rfl
  · exact .inr rfl

/-- Each column of a flushed row is backed by where it comes from. -/
theorem LoadedRow.flush_backed {s : LoadedRow} (h : row.Backed maxAttempts answered)
    (hs : s.assigned.Backed maxAttempts answered) (hid : s.assigned.id = row.id) :
    (s.flush row).Backed maxAttempts answered where
  delivered := by
    intro hd
    rcases flushed_cases s.loaded.status s.assigned.status row.status with hc | hc
    · exact h.delivered (hc.symm.trans hd)
    · rw [show (s.flush row).id = s.assigned.id from hid.symm]
      exact hs.delivered (hc.symm.trans hd)
  deadLetter := by
    intro hd
    rcases flushed_cases s.loaded.status s.assigned.status row.status with hc | hc
    · exact h.deadLetter (hc.symm.trans hd)
    · rw [show (s.flush row).id = s.assigned.id from hid.symm]
      exact hs.deadLetter (hc.symm.trans hd)
  count := by
    show flushed s.loaded.attemptCount s.assigned.attemptCount row.attemptCount ≤ failures answered row.id
    rcases flushed_cases s.loaded.attemptCount s.assigned.attemptCount row.attemptCount with hc | hc
    · rw [hc]
      exact h.count
    · rw [hc, ← hid]
      exact hs.count

/-- What recording an outcome assigns to a row, whatever the row has become since it was listed. -/
theorem recordOutcome_assigned {st st' : Store} {now : ℕ} {outcome : SendOutcome} {assigned : WebhookDelivery}
    (hrow : st.webhookDeliveries.find d.id = some row) (h : st.recordOutcome maxAttempts now d outcome = .ok st')
    (ha : st'.webhookDeliveries.find d.id = some assigned) : assigned = row.recorded d maxAttempts now outcome := by
  obtain ⟨-, -, rfl⟩ := (recordOutcome_ok hrow).mp h
  rw [Table.find_modify_self, hrow] at ha
  exact (Option.some.inj ha).symm

end Rows

namespace Dispatcher

variable {limit maxAttempts : ℕ} {v : Dispatcher} {p : Phase}

/-- What a dispatcher does between its transactions: it polls, passes on to the next delivery, sends, is answered,
or begins to record the answer. -/
inductive Passes (limit : ℕ) (v : Dispatcher) : Phase → Prop
  | start (hp : v.phase = .idle) : Passes limit v (.polling v.clock)
  | list {now : ℕ} {due order : List WebhookDelivery} (hp : v.phase = .polling now)
      (hd : v.store.listDueDeliveries now limit order = some due) : Passes limit v (.listed due)
  | subscribe {due : List WebhookDelivery} (hp : v.phase = .listed due) :
      Passes limit v (.dispatching due v.store.activeSubscriptions)
  | skip {d : WebhookDelivery} {due : List WebhookDelivery} {subs : List WebhookSubscription}
      (hp : v.phase = .dispatching (d :: due) subs) : Passes limit v (.dispatching due subs)
  | send {d : WebhookDelivery} {due : List WebhookDelivery} {subs : List WebhookSubscription}
      {sub : WebhookSubscription}
      (hp : v.phase = .dispatching (d :: due) subs) : Passes limit v (.sending d sub v.clock due subs)
  | answer {d : WebhookDelivery} {sub : WebhookSubscription} {sentAt : ℕ} {due : List WebhookDelivery}
      {subs : List WebhookSubscription} (outcome : SendOutcome) (hp : v.phase = .sending d sub sentAt due subs) :
      Passes limit v (.recording d sentAt outcome due subs)
  | stamp {d : WebhookDelivery} {sentAt : ℕ} {outcome : SendOutcome} {due : List WebhookDelivery}
      {subs : List WebhookSubscription} (hp : v.phase = .recording d sentAt outcome due subs) :
      Passes limit v (.storing d sentAt outcome v.clock due subs)
  | stop : Passes limit v .idle

theorem Own.passes (h : Own limit maxAttempts v { v with phase := p }) : Passes limit v p := by
  generalize hw : { v with phase := p } = w at h
  have hphase : p = w.phase := by rw [← hw]
  have hsends : v.sends = w.sends := by rw [← hw]
  rw [hphase]
  cases h with
  | start hp => exact .start hp
  | list order hp hd => exact .list hp hd
  | subscribe hp => exact .subscribe hp
  | skip hp hs => exact .skip hp
  | send hp hs => exact .send hp
  | answer outcome hp => exact .answer outcome hp
  | stamp hp => exact .stamp hp
  | record hp hr => simp at hsends
  | abort hp hr => simp at hsends
  | stop hp => exact .stop

theorem Passes.snapshot (h : Passes limit v p) : ∀ d ∈ p.snapshot,
    d ∈ v.phase.snapshot ∨ d ∈ v.store.webhookDeliveries.rows := by
  intro d hd
  cases h with
  | start hp => cases hd
  | @list now due order hp hdue =>
    obtain ⟨hperm, -, rfl⟩ := listDue_some.mp hdue
    exact .inr (List.mem_of_mem_filter (hperm.subset (List.mem_of_mem_take hd)))
  | subscribe hp => exact .inl (by rw [hp]; exact hd)
  | skip hp => exact .inl (by rw [hp]; exact List.mem_cons_of_mem _ hd)
  | send hp => exact .inl (by rw [hp]; exact hd)
  | answer outcome hp => exact .inl (by rw [hp]; exact hd)
  | stamp hp => exact .inl (by rw [hp]; exact hd)
  | stop => cases hd

/-- A dispatcher sends what it has listed, each delivery once, and lists only what is pending. -/
theorem Passes.waiting (h : Passes limit v p) : (∀ id, (p.waiting.map WebhookDeliveryRow.id).count id +
      p.begins.toList.count id ≤ (v.phase.waiting.map WebhookDeliveryRow.id).count id) ∨
    p.begins = none ∧ (p.waiting.map WebhookDeliveryRow.id).Nodup ∧
      ∀ d ∈ p.waiting, v.store.webhookDeliveries.find d.id = some d ∧ d.status = .pending := by
  cases h with
  | start hp => exact .inl fun id => by simp [Phase.waiting, Phase.begins]
  | @list now due order hp hdue =>
    obtain ⟨hperm, -, rfl⟩ := listDue_some.mp hdue
    refine .inr ⟨rfl, ?_, ?_⟩
    · have hnodup : (order.map WebhookDeliveryRow.id).Nodup := by
        rw [(hperm.map _).nodup_iff]
        exact v.store.webhookDeliveries.nodup.sublist (List.filter_sublist.map _)
      exact hnodup.sublist ((List.take_sublist _ _).map _)
    · intro d hd
      obtain ⟨hrow, hpending, -⟩ := mem_dueDeliveries.mp (hperm.subset (List.mem_of_mem_take hd))
      exact ⟨Table.find_of_mem hrow, hpending⟩
  | subscribe hp => exact .inl fun id => by simp [Phase.waiting, Phase.begins, hp]
  | skip hp =>
    refine .inl fun id => ?_
    simp [Phase.waiting, Phase.begins, hp, List.count_cons]
  | send hp =>
    refine .inl fun id => ?_
    simp [Phase.waiting, Phase.begins, hp, List.count_cons]
  | answer outcome hp => exact .inl fun id => by simp [Phase.waiting, Phase.begins, hp]
  | stamp hp => exact .inl fun id => by simp [Phase.waiting, Phase.begins, hp]
  | stop => exact .inl fun id => by simp [Phase.waiting, Phase.begins]

/-- An answer comes in, or it is the one that came in before. -/
theorem Passes.received (h : Passes limit v p) {d : WebhookDelivery} {outcome : SendOutcome}
    (hr : p.received = some (d, outcome)) :
    (p.answer = some (d.id, outcome) ∧ d ∈ p.snapshot) ∨ v.phase.received = some (d, outcome) := by
  cases h with
  | answer outcome hp =>
    cases hr
    exact .inl ⟨rfl, List.mem_cons_self⟩
  | stamp hp =>
    right
    rw [hp]
    exact hr
  | _ => cases hr

end Dispatcher

namespace Fleet

variable {ω : Type} [DecidableEq ω] {limit maxAttempts : ℕ} {σ τ : Fleet ω}

/-- What holds of one dispatcher of the fleet. -/
structure Sane (maxAttempts : ℕ) (answered : List (Uuid × SendOutcome)) (p : Phase) (session : Option LoadedRow) :
    Prop where
  listed : ∀ d ∈ p.snapshot, d.attemptCount ≤ failures answered d.id
  received : ∀ d outcome, p.received = some (d, outcome) → (d.id, outcome) ∈ answered ∧
    (outcome.success = false → d.attemptCount + 1 ≤ failures answered d.id)
  loaded : ∀ s, session = some s → ∃ d sentAt outcome now due subs, p = .storing d sentAt outcome now due subs ∧
    s.assigned.id = d.id ∧ s.assigned.Backed maxAttempts answered ∧
      (s.assigned.status = s.loaded.status ∨ s.assigned.status ≠ .pending)
  distinct : (p.waiting.map WebhookDeliveryRow.id).Nodup

structure Inv (maxAttempts : ℕ) (σ : Fleet ω) : Prop where
  rows : ∀ id row, σ.store.webhookDeliveries.find id = some row → row.Backed maxAttempts σ.answered
  dispatchers : ∀ i, Sane maxAttempts σ.answered (σ.phase i) (σ.session i)

section Sane

variable {answered new : List (Uuid × SendOutcome)} {p : Phase} {session : Option LoadedRow}

theorem Sane.mono (h : Sane maxAttempts answered p session) : Sane maxAttempts (answered ++ new) p session where
  listed := by
    intro d hd
    have hle := h.listed d hd
    rw [failures_append]
    omega
  received := by
    intro d outcome hp
    obtain ⟨hmem, hcount⟩ := h.received d outcome hp
    refine ⟨List.mem_append_left _ hmem, ?_⟩
    intro ho
    have hle := hcount ho
    rw [failures_append]
    omega
  loaded := by
    intro s hs
    obtain ⟨d, sentAt, outcome, now, due, subs, hp, hid, hbacked, hstatus⟩ := h.loaded s hs
    exact ⟨d, sentAt, outcome, now, due, subs, hp, hid, hbacked.mono, hstatus⟩
  distinct := h.distinct

theorem sane_idle : Sane maxAttempts answered .idle none where
  listed := by
    intro d hd
    cases hd
  received := nofun
  loaded := nofun
  distinct := List.nodup_nil

/-- A dispatcher stays sane between its transactions. -/
theorem Sane.passes {v : Dispatcher} (h : Sane maxAttempts answered v.phase none) (hp : Dispatcher.Passes limit v p)
    (hrows : ∀ id row, v.store.webhookDeliveries.find id = some row → row.Backed maxAttempts answered) :
    Sane maxAttempts (answered ++ p.answer.toList) p none := by
  have hlisted : ∀ d ∈ p.snapshot, d.attemptCount ≤ failures answered d.id := by
    intro d hd
    rcases hp.snapshot d hd with hold | hrow
    · exact h.listed d hold
    · exact (hrows d.id d (Table.find_of_mem hrow)).count
  refine ⟨?_, ?_, nofun, ?_⟩
  · intro d hd
    have hle := hlisted d hd
    rw [failures_append]
    omega
  · intro d outcome hr
    rcases hp.received hr with ⟨hanswer, hd⟩ | hbefore
    · rw [hanswer]
      refine ⟨List.mem_append_right _ (List.mem_singleton_self _), ?_⟩
      intro ho
      have hle := hlisted d hd
      have hone : failures (some (d.id, outcome)).toList d.id = 1 := failures_answer ho
      rw [failures_append, hone]
      omega
    · exact (Sane.mono h).received d outcome hbefore
  · rcases hp.waiting with hcount | ⟨-, hnodup, -⟩
    · rw [List.nodup_iff_count_le_one]
      intro id
      have hle := hcount id
      have hone := List.nodup_iff_count_le_one.mp h.distinct id
      omega
    · exact hnodup

/-- What a session has assigned to a row that it has loaded. -/
theorem Sane.load {d row assigned : WebhookDelivery} {sentAt now : ℕ} {outcome : SendOutcome}
    {due : List WebhookDelivery} {subs : List WebhookSubscription} {st st' : Store}
    (h : Sane maxAttempts answered (.storing d sentAt outcome now due subs) none)
    (hbacked : row.Backed maxAttempts answered) (hrow : st.webhookDeliveries.find d.id = some row)
    (hr : st.recordOutcome maxAttempts now d outcome = .ok st')
    (ha : st'.webhookDeliveries.find d.id = some assigned) :
    Sane maxAttempts answered (.storing d sentAt outcome now due subs) (some ⟨row, assigned⟩) := by
  have hid : row.id = d.id := Table.find_key hrow
  obtain ⟨hmem, hcount⟩ := h.received d outcome rfl
  refine ⟨h.listed, h.received, ?_, h.distinct⟩
  rintro s hs
  obtain rfl := Option.some.inj hs
  refine ⟨d, sentAt, outcome, now, due, subs, rfl, ?_⟩
  dsimp only
  rw [recordOutcome_assigned hrow hr ha]
  refine ⟨(recorded_id row).trans hid, ?_⟩
  rcases recorded_cases row d maxAttempts now outcome with ⟨ho, heq⟩ | ⟨error, -, ho, ⟨hmax, heq⟩ | ⟨-, heq⟩⟩
  · rw [heq]
    refine ⟨⟨?_, by simp, hbacked.count⟩, .inr (by simp)⟩
    intro _
    simp only [hid]
    exact ⟨outcome, hmem, ho⟩
  · rw [heq]
    have hle := hcount ho
    refine ⟨⟨by simp, ?_, ?_⟩, .inr (by simp)⟩
    · intro _
      simp only [hid]
      omega
    · simp only [hid]
      exact hle
  · rw [heq]
    refine ⟨⟨hbacked.delivered, hbacked.deadLetter, ?_⟩, .inl rfl⟩
    simp only [hid]
    exact hcount ho

end Sane

omit [DecidableEq ω] in
theorem Initial.inv (h : σ.Initial) : σ.Inv maxAttempts where
  rows := by
    intro id row hrow
    exact (h.fresh row (Table.mem_of_find hrow)).backed
  dispatchers := by
    intro i
    rw [h.idle, h.closed]
    exact sane_idle

/-- Only one dispatcher of the fleet has changed. -/
theorem dispatchers_update {answered : List (Uuid × SendOutcome)} {phase : ω → Phase}
    {session : ω → Option LoadedRow}
    {i : ω} {p : Phase} {s : Option LoadedRow} (h : ∀ j, Sane maxAttempts answered (phase j) (session j))
    (hi : Sane maxAttempts answered p s) :
    ∀ j, Sane maxAttempts answered (Function.update phase i p j) (Function.update session i s j) := by
  intro j
  by_cases hj : j = i
  · subst hj
    rw [Function.update_self, Function.update_self]
    exact hi
  · rw [Function.update_of_ne hj, Function.update_of_ne hj]
    exact h j

/-- What one of the dispatchers does keeps the invariant. -/
theorem Inv.act {i : ω} (h : σ.Inv maxAttempts) (hact : Act limit maxAttempts i σ τ) : τ.Inv maxAttempts := by
  cases hact with
  | @work p hs how =>
    refine ⟨fun id row hrow => (h.rows id row hrow).mono, ?_⟩
    have hi := h.dispatchers i
    rw [hs] at hi
    have hmoved := dispatchers_update (i := i) (fun j => (h.dispatchers j).mono) (hi.passes how.passes h.rows)
    rwa [← hs, Function.update_eq_self] at hmoved
  | @load d row assigned sentAt now outcome due subs st hp hs hrow hr ha =>
    refine ⟨h.rows, ?_⟩
    have hi := h.dispatchers i
    rw [hs, hp] at hi
    have hloaded := dispatchers_update (i := i) h.dispatchers (hi.load (h.rows _ _ hrow) hrow hr ha)
    rwa [← hp, Function.update_eq_self] at hloaded
  | @flush d s sentAt now outcome due subs hp hs =>
    have hi := h.dispatchers i
    obtain ⟨d', _, _, _, _, _, hp', hid, hbacked, -⟩ := hi.loaded s hs
    rw [hp] at hi hp'
    cases hp'
    refine ⟨?_, dispatchers_update h.dispatchers ?_⟩
    · intro id row hrow
      have hfind := Table.find_modify σ.store.webhookDeliveries d.id s.flush s.flush_id id
      obtain ⟨r, hr, rfl⟩ := Option.map_eq_some_iff.mp (hfind.symm.trans hrow)
      have hr' := h.rows id r hr
      split
      · next heq =>
        apply LoadedRow.flush_backed hr' hbacked
        rw [hid, ← heq]
        exact (Table.find_key hr).symm
      · exact hr'
    · refine ⟨fun x hx => hi.listed x (List.mem_cons_of_mem _ hx), ?_, ?_, hi.distinct⟩
      · intro d outcome hreceived
        cases hreceived
      · intro s hs
        cases hs
  | @abort d sentAt now outcome due subs e hp hs hr =>
    refine ⟨h.rows, ?_⟩
    have hidle :=
      dispatchers_update (i := i) h.dispatchers (show Sane maxAttempts σ.answered .idle none from sane_idle)
    rwa [← hs, Function.update_eq_self] at hidle

theorem Inv.step (h : σ.Inv maxAttempts) (hstep : Step limit maxAttempts σ τ) : τ.Inv maxAttempts := by
  cases hstep with
  | act i hact => exact h.act hact
  | crash i => exact ⟨h.rows, dispatchers_update h.dispatchers sane_idle⟩
  | beside hbeside =>
    obtain ⟨he⟩ := hbeside
    rename_i st clock
    refine ⟨?_, h.dispatchers⟩
    intro id row hrow
    have hgrown := he.grown
    cases hold : σ.store.webhookDeliveries.find id with
    | some r =>
      have hr := hgrown.kept id r hold
      rw [show st.webhookDeliveries.find id = some row from hrow] at hr
      cases hr
      exact h.rows id row hold
    | none => exact (hgrown.fresh id row hold hrow).backed

theorem Reaches.inv (h : σ.Inv maxAttempts) (hr : Reaches limit maxAttempts σ τ) : τ.Inv maxAttempts := by
  induction hr with
  | refl => exact h
  | tail _ hstep ih => exact ih.step hstep

/-- However many dispatchers run and whenever they die, a delivered delivery has been answered with success, a dead
letter has failed as often as is allowed, and no failure is counted that did not happen. -/
theorem deliveries_answered {σ₀ : Fleet ω} (h₀ : σ₀.Initial) (h : Reaches limit maxAttempts σ₀ σ)
    {row : WebhookDelivery}
    (hrow : row ∈ σ.store.webhookDeliveries.rows) :
    (row.status = .delivered → ∃ outcome, (row.id, outcome) ∈ σ.answered ∧ outcome.success = true) ∧
      (row.status = .deadLetter → maxAttempts ≤ failures σ.answered row.id) ∧
      row.attemptCount ≤ failures σ.answered row.id := by
  have hbacked := (h.inv h₀.inv).rows row.id row (Table.find_of_mem hrow)
  exact ⟨hbacked.delivered, hbacked.deadLetter, hbacked.count⟩

/-- The delivery is stored and no longer pending. -/
def Finished (σ : Fleet ω) (id : Uuid) : Prop :=
  ∃ row, σ.store.webhookDeliveries.find id = some row ∧ row.status ≠ .pending

/-- How often the dispatcher can still send a delivery in its cycle. -/
def toSend (p : Phase) (id : Uuid) : ℕ := (p.waiting.map WebhookDeliveryRow.id).count id

theorem Finished.step {id : Uuid} (hf : σ.Finished id) (h : σ.Inv maxAttempts)
    (hstep : Step limit maxAttempts σ τ) :
    τ.Finished id := by
  obtain ⟨row, hrow, hs⟩ := hf
  cases hstep with
  | act i hact =>
    cases hact with
    | @flush d s sentAt now outcome due subs hp hsession =>
      obtain ⟨_, _, _, _, _, _, -, -, -, hstatus⟩ := (h.dispatchers i).loaded s hsession
      refine ⟨if id = d.id then s.flush row else row, ?_, ?_⟩
      · show (σ.store.webhookDeliveries.modify d.id s.flush s.flush_id).find id = _
        rw [Table.find_modify, hrow, Option.map_some]
      · split
        · show flushed s.loaded.status s.assigned.status row.status ≠ .pending
          unfold flushed
          split
          · exact hs
          · next hne => exact hstatus.resolve_left hne
        · exact hs
    | _ => exact ⟨row, hrow, hs⟩
  | crash i => exact ⟨row, hrow, hs⟩
  | beside hbeside =>
    obtain ⟨he⟩ := hbeside
    exact ⟨row, he.grown.kept id row hrow, hs⟩

/-- A dispatcher that gives up its cycle has nothing left to send. -/
theorem toSend_idle (phase : ω → Phase) (i j : ω) (id : Uuid) :
    toSend (Function.update phase j .idle i) id ≤ toSend (phase i) id := by
  by_cases hi : i = j
  · subst hi
    simp [toSend, Phase.waiting]
  · rw [Function.update_of_ne hi]

/-- Once a delivery is finished a dispatcher begins no more requests for it than its cycle still has it listed. -/
theorem Finished.sends {id : Uuid} (hf : σ.Finished id) (hstep : Step limit maxAttempts σ τ) (i : ω) :
    τ.begun.count (i, id) + toSend (τ.phase i) id ≤ σ.begun.count (i, id) + toSend (σ.phase i) id := by
  cases hstep with
  | act j hact =>
    cases hact with
    | @work p hs how =>
      by_cases hi : i = j
      · subst hi
        have hbegun : ((p.begins.map fun id => (i, id)).toList.count (i, id)) = p.begins.toList.count id := by
          cases p.begins with
          | none => rfl
          | some x => simp [List.count_singleton]
        simp only [Function.update_self, List.count_append, hbegun]
        rcases how.passes.waiting with hcount | ⟨hnone, -, hpending⟩
        · have hle := hcount id
          simp only [view] at hle
          unfold toSend
          omega
        · have hzero : toSend p id = 0 := by
            rw [toSend, List.count_eq_zero]
            intro hmem
            obtain ⟨d, hd, rfl⟩ := List.mem_map.mp hmem
            obtain ⟨hfound, hp⟩ := hpending d hd
            obtain ⟨row, hrow, hstatus⟩ := hf
            rw [show σ.store.webhookDeliveries.find d.id = some d from hfound] at hrow
            cases hrow
            exact hstatus hp
          rw [hnone, hzero]
          simp
      · have hother : ((p.begins.map fun id => (j, id)).toList.count (i, id)) = 0 := by
          rw [List.count_eq_zero]
          cases p.begins <;> simp [hi]
        simp only [Function.update_of_ne hi, List.count_append, hother]
        omega
    | load hp hs hrow hr ha => rfl
    | @flush d s sentAt now outcome due subs hp hs =>
      by_cases hi : i = j
      · subst hi
        simp [toSend, hp, Phase.waiting]
      · simp [Function.update_of_ne hi]
    | abort hp hs hr => exact Nat.add_le_add_left (toSend_idle _ _ _ _) _
  | crash j => exact Nat.add_le_add_left (toSend_idle _ _ _ _) _
  | beside hbeside =>
    obtain ⟨he⟩ := hbeside
    rfl

/-- Once a delivery has been recorded as delivered or dead it stays finished, and every dispatcher sends it at most
once more, and only if its cycle had listed it before. -/
theorem finished_sends {σ₀ : Fleet ω} (h₀ : σ₀.Initial) (h : Reaches limit maxAttempts σ₀ σ) {id : Uuid}
    (hf : σ.Finished id) (hr : Reaches limit maxAttempts σ τ) : τ.Finished id ∧ ∀ i,
      τ.begun.count (i, id) ≤ σ.begun.count (i, id) +
        if id ∈ (σ.phase i).waiting.map WebhookDeliveryRow.id then 1 else 0 := by
  have hinv := h.inv h₀.inv
  have hrun : τ.Finished id ∧ τ.Inv maxAttempts ∧ ∀ i,
      τ.begun.count (i, id) + toSend (τ.phase i) id ≤ σ.begun.count (i, id) + toSend (σ.phase i) id := by
    induction hr with
    | refl => exact ⟨hf, hinv, fun _ => le_refl _⟩
    | tail _ hstep ih =>
      obtain ⟨hfin, hi, hle⟩ := ih
      exact ⟨hfin.step hi hstep, hi.step hstep, fun i => (hfin.sends hstep i).trans (hle i)⟩
  refine ⟨hrun.1, ?_⟩
  intro i
  have hle := hrun.2.2 i
  have hone : toSend (σ.phase i) id ≤ if id ∈ (σ.phase i).waiting.map WebhookDeliveryRow.id then 1 else 0 := by
    split
    · exact List.nodup_iff_count_le_one.mp (hinv.dispatchers i).distinct id
    · next hmem => exact (List.count_eq_zero.mpr hmem).le
  omega

section Sample

/-- Two dispatchers on one pending delivery, neither in a transaction. -/
def sample (p q : Phase) (begun : List (Bool × Uuid)) (answered : List (Uuid × SendOutcome)) : Fleet Bool where
  store := (Dispatcher.sample .idle).store
  clock := 5
  phase := fun i => if i then q else p
  session := fun _ => none
  begun := begun
  answered := answered

theorem sample_initial : (sample .idle .idle [] []).Initial := by
  refine ⟨?_, fun _ => rfl, rfl, rfl, Dispatcher.sample_initial.fresh⟩
  intro i
  cases i <;> rfl

variable {p q p' : Phase} {begun : List (Bool × Uuid)} {answered : List (Uuid × SendOutcome)}

theorem update_first :
    Function.update (fun i : Bool => if i then q else p) false p' = fun i => if i then q else p' := by
  funext i
  cases i <;> rfl

theorem update_second :
    Function.update (fun i : Bool => if i then q else p) true p' = fun i => if i then p' else p := by
  funext i
  cases i <;> rfl

theorem sample_first (h : Dispatcher.Own 1 2 (Dispatcher.sample p) (Dispatcher.sample p')) :
    Act 1 2 false (sample p q begun answered) (sample p' q (begun ++ (p'.begins.map fun id => (false, id)).toList)
      (answered ++ p'.answer.toList)) := by
  have hact : Act 1 2 false (sample p q begun answered) _ := .work rfl h
  simp only [sample, update_first] at hact
  exact hact

theorem sample_second (h : Dispatcher.Own 1 2 (Dispatcher.sample q) (Dispatcher.sample p')) :
    Act 1 2 true (sample p q begun answered) (sample p p' (begun ++ (p'.begins.map fun id => (true, id)).toList)
      (answered ++ p'.answer.toList)) := by
  have hact : Act 1 2 true (sample p q begun answered) _ := .work rfl h
  simp only [sample, update_second] at hact
  exact hact

/-- A cycle up to the transaction that is to record the answer to its request. -/
theorem sample_cycle :
    let d := Dispatcher.sampleDelivery
    let subs := [Dispatcher.sampleSubscription]
    let step (p q : Phase) := Dispatcher.Own 1 2 (Dispatcher.sample p) (Dispatcher.sample q)
    step .idle (.polling 5) ∧ step (.polling 5) (.listed [d]) ∧ step (.listed [d]) (.dispatching [d] subs) ∧
      step (.dispatching [d] subs) (.sending d Dispatcher.sampleSubscription 5 [] subs) ∧
      step (.sending d Dispatcher.sampleSubscription 5 [] subs) (.recording d 5 (.status 200) [] subs) ∧
      step (.recording d 5 (.status 200) [] subs) (.storing d 5 (.status 200) 5 [] subs) :=
  ⟨.start rfl, .list [Dispatcher.sampleDelivery] rfl (by decide), .subscribe rfl,
    .send rfl (by decide), .answer _ rfl, .stamp rfl⟩

/-- The first dispatcher has delivered what the second still has listed. -/
theorem sample_delivered : ∃ σ, Reaches 1 2 (sample .idle .idle [] []) σ ∧
    (∃ row ∈ σ.store.webhookDeliveries.rows, row.id = 80 ∧ row.status = .delivered) ∧
    σ.phase true = .listed [Dispatcher.sampleDelivery] ∧ σ.session true = none ∧
    σ.store.activeSubscriptions = [Dispatcher.sampleSubscription] := by
  set d := Dispatcher.sampleDelivery
  set subs := [Dispatcher.sampleSubscription]
  obtain ⟨hstart, hlist, hsubs, hsend, hanswer, hstamp⟩ := sample_cycle
  have hlisted : Reaches 1 2 (sample .idle .idle [] []) (sample (.listed [d]) (.listed [d]) [] []) :=
    .tail (.tail (.tail (.single (.act false (sample_first hstart))) (.act true (sample_second hstart)))
      (.act false (sample_first hlist))) (.act true (sample_second hlist))
  have hanswered : Reaches 1 2 (sample .idle .idle [] [])
      (sample (.storing d 5 (.status 200) 5 [] subs) (.listed [d]) [(false, 80)] [(80, .status 200)]) :=
    .tail (.tail (.tail (.tail hlisted (.act false (sample_first hsubs))) (.act false (sample_first hsend)))
      (.act false (sample_first hanswer))) (.act false (sample_first hstamp))
  set σ := sample (.storing d 5 (.status 200) 5 [] subs) (.listed [d]) [(false, 80)] [(80, .status 200)]
  have hload : Step 1 2 σ { σ with
      session := Function.update σ.session false (some ⟨d, { d with status := .delivered }⟩) } :=
    .act false (.load rfl rfl rfl rfl rfl)
  refine ⟨_, (hanswered.tail hload).tail (.act false (.flush rfl rfl)), ?_, rfl, rfl, rfl⟩
  exact ⟨{ d with status := .delivered }, List.mem_singleton_self _, rfl, rfl⟩

theorem deliveries_answered_delivered : ∃ σ, ∃ row ∈ σ.store.webhookDeliveries.rows,
    Reaches 1 2 (sample .idle .idle [] []) σ ∧ row.status = .delivered ∧
    ((row.status = .delivered → ∃ outcome, (row.id, outcome) ∈ σ.answered ∧ outcome.success = true) ∧
      (row.status = .deadLetter → 2 ≤ failures σ.answered row.id) ∧
      row.attemptCount ≤ failures σ.answered row.id) := by
  obtain ⟨σ, hr, ⟨row, hrow, -, hs⟩, -⟩ := sample_delivered
  exact ⟨σ, row, hrow, hr, hs, deliveries_answered sample_initial hr hrow⟩

theorem finished_sends_again : ∃ σ τ, Reaches 1 2 (sample .idle .idle [] []) σ ∧ σ.Finished 80 ∧ Reaches 1 2 σ τ ∧
    (true, 80) ∈ τ.begun ∧ τ.Finished 80 ∧ ∀ i, τ.begun.count (i, 80) ≤ σ.begun.count (i, 80) +
      if 80 ∈ (σ.phase i).waiting.map WebhookDeliveryRow.id then 1 else 0 := by
  obtain ⟨σ, hr, ⟨row, hrow, hid, hs⟩, hphase, hsession, hactive⟩ := sample_delivered
  have hfound := Table.find_of_mem hrow
  rw [hid] at hfound
  have hf : σ.Finished 80 := ⟨row, hfound, by rw [hs]; nofun⟩
  have hsub : subscriptionById σ.store.activeSubscriptions 90 = some Dispatcher.sampleSubscription := by
    rw [hactive]
    decide
  obtain ⟨τ, hτ, hbegun⟩ : ∃ τ, Reaches 1 2 σ τ ∧ (true, 80) ∈ τ.begun := by
    refine ⟨_, .tail (.single (.act true (.work hsession (.subscribe hphase))))
      (.act true (.work hsession (.send rfl hsub))), ?_⟩
    exact List.mem_append_right _ (List.mem_singleton_self _)
  exact ⟨σ, τ, hr, hf, hτ, hbegun, finished_sends sample_initial hr hf hτ⟩

end Sample
end Fleet
end PaymentLedger
