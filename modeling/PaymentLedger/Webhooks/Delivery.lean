import PaymentLedger.Services.Serial
import PaymentLedger.Webhooks.Dispatch

namespace PaymentLedger

section Recording

/-- What recording an outcome makes of a row that was listed as `d`. -/
def WebhookDeliveryRow.recorded (row d : WebhookDelivery) (maxAttempts now : ℕ) (outcome : SendOutcome) :
    WebhookDelivery :=
  match outcome.error with
  | none => { row with status := .delivered }
  | some error =>
    if maxAttempts ≤ d.attemptCount + 1 then
      { row with status := .deadLetter, attemptCount := d.attemptCount + 1, lastError := error.encode }
    else
      { row with attemptCount := d.attemptCount + 1, lastError := error.encode,
                 nextAttemptAt := now + timedelta (exactBackoff d.attemptCount) }

/-- The outcome can be recorded for this delivery: its text can be stored, and its delay can be computed. -/
def SendOutcome.Recordable (maxAttempts : ℕ) (d : WebhookDelivery) (outcome : SendOutcome) : Prop :=
  ∀ error, outcome.error = some error →
    ¬error.Unstorable ∧ (d.attemptCount + 1 < maxAttempts → d.attemptCount < 1024)

variable {st st' : Store} {maxAttempts now : ℕ} {row d : WebhookDelivery} {outcome : SendOutcome}

theorem recorded_id (row : WebhookDelivery) : (row.recorded d maxAttempts now outcome).id = row.id := by
  unfold WebhookDeliveryRow.recorded
  split
  · rfl
  · split <;> rfl

/-- An outcome is an answer with success, or it is the last failure or one that is tried again. -/
theorem recorded_cases (row d : WebhookDelivery) (maxAttempts now : ℕ) (outcome : SendOutcome) :
    (outcome.success = true ∧ row.recorded d maxAttempts now outcome = { row with status := .delivered }) ∨
      ∃ error, outcome.error = some error ∧ outcome.success = false ∧
        ((maxAttempts ≤ d.attemptCount + 1 ∧ row.recorded d maxAttempts now outcome =
            { row with status := .deadLetter, attemptCount := d.attemptCount + 1, lastError := error.encode }) ∨
          d.attemptCount + 1 < maxAttempts ∧ row.recorded d maxAttempts now outcome =
            { row with attemptCount := d.attemptCount + 1, lastError := error.encode,
                       nextAttemptAt := now + timedelta (exactBackoff d.attemptCount) }) := by
  cases he : outcome.error with
  | none =>
    left
    exact ⟨(SendOutcome.error_none_iff outcome).mp he, by rw [WebhookDeliveryRow.recorded, he]⟩
  | some error =>
    right
    refine ⟨error, rfl, SendOutcome.success_of_error he, ?_⟩
    by_cases hm : maxAttempts ≤ d.attemptCount + 1
    · exact .inl ⟨hm, by simp only [WebhookDeliveryRow.recorded, he, if_pos hm]⟩
    · exact .inr ⟨by omega, by simp only [WebhookDeliveryRow.recorded, he, if_neg hm]⟩

theorem integer_ok {n m : ℕ} : integer n = .ok m ↔ n < 2 ^ 31 ∧ m = n := by
  unfold integer
  split
  · next h => simp only [h, Except.ok.injEq, true_and, eq_comm]
  · next h => simp only [h, reduceCtorEq, false_and]

theorem rewriteDelivery_ok {id : Uuid} {f : WebhookDelivery → WebhookDelivery} {hf : ∀ d, (f d).id = d.id}
    (hrow : st.webhookDeliveries.find id = some row) : st.rewriteDelivery id f hf = .ok st' ↔
      st' = { st with webhookDeliveries := st.webhookDeliveries.modify id f hf } := by
  rw [Store.rewriteDelivery, hrow, Except.ok.injEq, eq_comm]

/-- A failure is recorded as a number and a text that their columns take. -/
theorem rewriteFailure_ok {id : Uuid} {n : ℕ} {error : PyStr}
    (hrow : st.webhookDeliveries.find id = some row) (f : ℕ → Option String → WebhookDelivery → WebhookDelivery)
    (hf : ∀ n text d, (f n text d).id = d.id) :
    (do
      let n ← (integer n).mapError .db
      let text ← (pyText error).mapError .db
      st.rewriteDelivery id (f n (some text)) (hf n (some text))) = Except.ok st' ↔
      n < 2 ^ 31 ∧ ¬error.Unstorable ∧ st' = { st with
        webhookDeliveries := st.webhookDeliveries.modify id (f n error.encode) (hf n error.encode) } := by
  simp only [except_bind_ok, mapError_ok, integer_ok, pyText_stored, rewriteDelivery_ok hrow]
  constructor
  · rintro ⟨_, ⟨hint, rfl⟩, text, ⟨htext, hencode⟩, rfl⟩
    simp only [hint, htext, hencode, not_false_eq_true, true_and]
  · rintro ⟨hint, htext, rfl⟩
    obtain ⟨text, ht⟩ := pyText_ok htext
    obtain ⟨-, hencode⟩ := pyText_stored.mp ht
    exact ⟨_, ⟨hint, rfl⟩, text, ⟨htext, hencode⟩, by simp only [hencode]⟩

theorem markRetry_ok {id : Uuid} {n next : ℕ} {error : PyStr} (hrow : st.webhookDeliveries.find id = some row) :
    st.markRetry id n next error = .ok st' ↔ n < 2 ^ 31 ∧ ¬error.Unstorable ∧
      st' = { st with
        webhookDeliveries := st.webhookDeliveries.modify id
          (fun d => { d with attemptCount := n, nextAttemptAt := next, lastError := error.encode })
          fun _ => rfl } :=
  rewriteFailure_ok hrow (fun n text d => { d with attemptCount := n, nextAttemptAt := next, lastError := text })
    fun _ _ _ => rfl

theorem markDeadLetter_ok {id : Uuid} {n : ℕ} {error : PyStr} (hrow : st.webhookDeliveries.find id = some row) :
    st.markDeadLetter id n error = .ok st' ↔ n < 2 ^ 31 ∧ ¬error.Unstorable ∧
      st' = { st with
        webhookDeliveries := st.webhookDeliveries.modify id
          (fun d => { d with status := .deadLetter, attemptCount := n, lastError := error.encode })
          fun _ => rfl } :=
  rewriteFailure_ok hrow (fun n text d => { d with status := .deadLetter, attemptCount := n, lastError := text })
    fun _ _ _ => rfl

theorem backoffSeconds_some {attempt seconds : ℕ} :
    backoffSeconds attempt = some seconds ↔ attempt < 1024 ∧ seconds = exactBackoff attempt := by
  unfold backoffSeconds
  split
  · next h => simp only [h, Option.some.injEq, true_and, eq_comm]
  · next h => simp only [h, reduceCtorEq, false_and]

/-- Recording fails only on a value that a column refuses or that cannot be computed. -/
theorem recordOutcome_ok (hrow : st.webhookDeliveries.find d.id = some row) :
    st.recordOutcome maxAttempts now d outcome = .ok st' ↔
      (outcome.success = false → d.attemptCount + 1 < 2 ^ 31) ∧ outcome.Recordable maxAttempts d ∧
      st' = { st with webhookDeliveries :=
        st.webhookDeliveries.modify d.id (·.recorded d maxAttempts now outcome) recorded_id } := by
  unfold Store.recordOutcome
  cases he : outcome.error with
  | none =>
    have ho : outcome.success = true := (SendOutcome.error_none_iff outcome).mp he
    have hr : outcome.Recordable maxAttempts d := by simp [SendOutcome.Recordable, he]
    simp only [Store.markDelivered, rewriteDelivery_ok hrow, ho, hr, WebhookDeliveryRow.recorded, he, reduceCtorEq,
      false_implies, true_and]
  | some error =>
    have ho : outcome.success = false := SendOutcome.success_of_error he
    have hr : outcome.Recordable maxAttempts d ↔
        ¬error.Unstorable ∧ (d.attemptCount + 1 < maxAttempts → d.attemptCount < 1024) := by
      simp [SendOutcome.Recordable, he]
    by_cases hm : maxAttempts ≤ d.attemptCount + 1
    · simp only [if_pos hm, markDeadLetter_ok hrow, hr, ho, not_lt.mpr hm, WebhookDeliveryRow.recorded, he,
        false_implies, and_true, true_implies]
    · simp only [if_neg hm, Nat.add_sub_cancel, hr, ho, not_le.mp hm, WebhookDeliveryRow.recorded, he, true_implies]
      cases hb : backoffSeconds d.attemptCount with
      | none =>
        have hlate : ¬d.attemptCount < 1024 := by
          intro hlt
          rw [backoffSeconds_some.mpr ⟨hlt, rfl⟩] at hb
          cases hb
        simp only [hlate, reduceCtorEq, and_false, false_and]
      | some seconds =>
        obtain ⟨hlt, rfl⟩ := backoffSeconds_some.mp hb
        simp only [markRetry_ok hrow, hlt, and_true]

/-- What recording an outcome changes of the store in which the delivery is as it was listed. -/
theorem recordOutcome_find (hd : st.webhookDeliveries.find d.id = some d)
    (h : st.recordOutcome maxAttempts now d outcome = .ok st') (id : Uuid) : st'.webhookDeliveries.find id =
      if id = d.id then some (d.recorded d maxAttempts now outcome) else st.webhookDeliveries.find id := by
  obtain ⟨-, -, rfl⟩ := (recordOutcome_ok hd).mp h
  by_cases hid : id = d.id
  · rw [if_pos hid, hid, Table.find_modify_self, hd, Option.map_some]
  · rw [if_neg hid, Table.find_modify_of_ne _ _ _ hid]

end Recording

/-- The transactions of the API leave the deliveries that are there alone and enqueue new ones. -/
theorem Reachable.enqueues {ι : Type} [DecidableEq ι] {rt : Runtime} {step : Feed → Feed → Prop} {st₀ : Store}
    {calls : ι → Call} {σ : Config postgres ι Value} (h : Reachable rt step st₀ calls σ) :
    ∀ c ∈ σ.world.log, Enqueues (writesOf c.tx) := by
  intro c hc row hrow
  obtain ⟨clock, hr⟩ := h
  obtain ⟨l, l', hl⟩ := List.append_of_mem hc
  obtain ⟨e, he, hw⟩ := List.mem_flatMap.mp hrow
  obtain ⟨_, st, choice, -, heval, -⟩ := ((reaches_wellFormed hr).witnessed hl).of_mem he
  have hwrites := eval_writes heval _ hw
  obtain ⟨stmt, res, writes, seen⟩ := e
  cases stmt with
  | insertDelivery subscriptionId paymentId eventType payload =>
    obtain ⟨-, -, -, -, row', hnew, rfl⟩ := eval_insertDelivery.mp heval
    cases List.mem_singleton.mp hw
    exact ⟨_, _, _, _, _, _, hnew⟩
  | _ => simp [Stmt.Writes] at hwrites

section Situations

variable {maxAttempts gap : ℕ}

/-- Where a delivery stands after its finished sends. -/
inductive Stands (maxAttempts : ℕ) (row : WebhookDelivery) (sends : List Sending) : Prop
  | pending (hs : row.status = .pending) (count : row.attemptCount = sends.length)
      (failed : ∀ s ∈ sends, s.outcome.success = false) (lt : row.attemptCount < maxAttempts)
  | delivered (hs : row.status = .delivered) (earlier : List Sending) (last : Sending)
      (made : sends = earlier ++ [last]) (answered : last.outcome.success = true)
      (failed : ∀ s ∈ earlier, s.outcome.success = false)
  | deadLetter (hs : row.status = .deadLetter) (count : row.attemptCount = maxAttempts)
      (made : sends.length = maxAttempts) (failed : ∀ s ∈ sends, s.outcome.success = false)
      (error : row.lastError.isSome = true)

/-- At `now` the backoff after the last of these sends was recorded has passed, but for `gap`. -/
def BackedOff (gap : ℕ) (sends : List Sending) (now : ℕ) : Prop :=
  ∀ last, sends.getLast? = some last →
    ∃ t, last.recordedAt = some t ∧ t + timedelta (exactBackoff (sends.length - 1)) ≤ now + gap

/-- Each retry was sent when the backoff after the failure before it had passed, but for `gap`. -/
def Spaced (gap : ℕ) (sends : List Sending) : Prop :=
  ∀ k (hk : k < sends.length), BackedOff gap (sends.take k) sends[k].sentAt

theorem Spaced.append {sends : List Sending} {s : Sending} (h : Spaced gap sends)
    (hs : BackedOff gap sends s.sentAt) :
    Spaced gap (sends ++ [s]) := by
  intro k hk
  by_cases hlast : k < sends.length
  · rw [List.take_append_of_le_length hlast.le, List.getElem_append_left hlast]
    exact h k hlast
  · have hk' : k = sends.length := by
      rw [List.length_append, List.length_singleton] at hk
      omega
    subst hk'
    rw [List.take_left, List.getElem_append_right (le_refl _)]
    simpa using hs

/-- What is known of a delivery between two sends. -/
structure Tracked (maxAttempts gap : ℕ) (row : WebhookDelivery) (sends : List Sending) : Prop where
  stands : Stands maxAttempts row sends
  few : row.status = .pending → row.attemptCount ≤ 1024
  scheduled : row.status = .pending → ∀ now, row.nextAttemptAt ≤ now → BackedOff gap sends now
  spaced : Spaced gap sends

/-- A row as it is enqueued. -/
def WebhookDeliveryRow.Fresh (row : WebhookDelivery) : Prop := row.status = .pending ∧ row.attemptCount = 0

theorem new_fresh {id subscriptionId : Uuid} {paymentId : Option Uuid} {eventType : String} {payload : PyDict}
    {now : ℕ} {row : WebhookDelivery}
    (h : WebhookDeliveryRow.new id subscriptionId paymentId eventType payload now = .ok row) : row.Fresh := by
  obtain ⟨_, -, rfl⟩ := WebhookDeliveryRow.new_ok.mp h
  exact ⟨rfl, rfl⟩

theorem Tracked.fresh (hm : 1 ≤ maxAttempts) {row : WebhookDelivery} (h : row.Fresh) :
    Tracked maxAttempts gap row [] where
  stands := .pending h.1 h.2 (by simp) (by rw [h.2]; exact hm)
  few := by
    intro _
    rw [h.2]
    exact Nat.zero_le _
  scheduled := by
    intro _ now _ last hlast
    cases hlast
  spaced := by
    intro k hk
    cases hk

theorem Stands.of_pending {row : WebhookDelivery} {sends : List Sending} (h : Stands maxAttempts row sends)
    (hp : row.status = .pending) : row.attemptCount = sends.length ∧ row.attemptCount < maxAttempts ∧
      ∀ s ∈ sends, s.outcome.success = false := by
  cases h with
  | pending _ count failed lt => exact ⟨count, lt, failed⟩
  | delivered hs => rw [hp] at hs; cases hs
  | deadLetter hs => rw [hp] at hs; cases hs

/-- Recording one more send of a pending delivery, at most `gap` after the clock was read for its retry. -/
theorem Tracked.record {d : WebhookDelivery} {sends : List Sending} (h : Tracked maxAttempts gap d sends)
    (hp : d.status = .pending) {sentAt now t : ℕ} (hdue : d.nextAttemptAt ≤ sentAt) {o : SendOutcome}
    (ho : o.Recordable maxAttempts d)
    (hgap : o.success = false → d.attemptCount + 1 < maxAttempts → t ≤ now + gap) :
    Tracked maxAttempts gap (d.recorded d maxAttempts now o) (sends ++ [⟨d.id, sentAt, o, some t⟩]) := by
  obtain ⟨hcount, hlt, hfailed⟩ := h.stands.of_pending hp
  set sent : Sending := ⟨d.id, sentAt, o, some t⟩ with hsent
  have hspaced : Spaced gap (sends ++ [sent]) := h.spaced.append (h.scheduled hp _ hdue)
  have hlen : (sends ++ [sent]).length = d.attemptCount + 1 := by
    rw [hcount, List.length_append, List.length_singleton]
  rcases recorded_cases d d maxAttempts now o with ⟨hok, hrow⟩ | ⟨error, he, hno, hrow⟩
  · rw [hrow]
    exact ⟨.delivered rfl _ _ rfl hok hfailed, nofun, nofun, hspaced⟩
  · have hall : ∀ s ∈ sends ++ [sent], s.outcome.success = false := by
      intro s hs
      rcases List.mem_append.mp hs with hs | hs
      · exact hfailed s hs
      · rw [List.mem_singleton.mp hs]
        exact hno
    obtain ⟨hstorable, hfew⟩ := ho error he
    rcases hrow with ⟨hm, hrow⟩ | ⟨hm, hrow⟩
    · rw [hrow]
      have hmax : d.attemptCount + 1 = maxAttempts := by omega
      obtain ⟨text, ht⟩ := pyText_ok hstorable
      have herror : error.encode.isSome = true := by rw [(pyText_stored.mp ht).2]; rfl
      exact ⟨.deadLetter rfl hmax (hlen.trans hmax) hall herror, nofun, nofun, hspaced⟩
    · rw [hrow]
      refine ⟨.pending hp hlen.symm hall hm, fun _ => hfew hm, ?_, hspaced⟩
      intro _ t' ht' last hlast
      rw [List.getLast?_concat, Option.some.injEq] at hlast
      subst hlast
      refine ⟨t, rfl, ?_⟩
      have hlate := hgap hno hm
      rw [hlen, Nat.add_sub_cancel]
      dsimp only at ht'
      omega

end Situations

namespace Phase

/-- The deliveries of the cycle that still await their outcome's record, as they were listed. -/
def snapshot : Phase → List WebhookDelivery
  | idle => []
  | polling _ => []
  | listed due => due
  | dispatching due _ => due
  | sending d _ _ due _ => d :: due
  | recording d _ _ due _ => d :: due
  | storing d _ _ _ due _ => d :: due

/-- The delivery that is in flight or has just been answered, and when it was sent. -/
def sent : Phase → Option (WebhookDelivery × ℕ)
  | sending d _ sentAt _ _ => some (d, sentAt)
  | recording d sentAt _ _ _ => some (d, sentAt)
  | storing d sentAt _ _ _ _ => some (d, sentAt)
  | _ => none

/-- A finished send awaits being recorded. -/
def Awaits : Phase → Prop
  | recording _ _ _ _ _ => True
  | storing _ _ _ _ _ _ => True
  | _ => False

end Phase

namespace Dispatcher

variable {limit maxAttempts gap : ℕ}

def Step (limit maxAttempts : ℕ) (σ τ : Dispatcher) : Prop := Own limit maxAttempts σ τ ∨ Env σ τ

def Reaches (limit maxAttempts : ℕ) : Dispatcher → Dispatcher → Prop :=
  Relation.ReflTransGen (Step limit maxAttempts)

/-- What is about to be recorded can be, and if it is a failure that is tried again, at most `gap` has passed since
the clock was read for that. -/
def Storable (maxAttempts gap : ℕ) (σ : Dispatcher) : Prop :=
  match σ.phase with
  | .storing d _ outcome now _ _ => outcome.Recordable maxAttempts d ∧
      (outcome.success = false → d.attemptCount + 1 < maxAttempts → σ.clock ≤ now + gap)
  | _ => True

/-- Runs in which every record can be made in time. -/
def ReachesStorably (limit maxAttempts gap : ℕ) : Dispatcher → Dispatcher → Prop :=
  Relation.ReflTransGen fun σ τ => (σ.Storable maxAttempts gap ∧ Own limit maxAttempts σ τ) ∨ Env σ τ

theorem ReachesStorably.reaches {σ τ : Dispatcher} (h : ReachesStorably limit maxAttempts gap σ τ) :
    Reaches limit maxAttempts σ τ := by
  induction h with
  | refl => exact .refl
  | tail _ hstep ih =>
    rcases hstep with ⟨-, hown⟩ | henv
    · exact ih.tail (.inl hown)
    · exact ih.tail (.inr henv)

/-- Before the first cycle: whatever is enqueued has not been tried. -/
structure Initial (σ : Dispatcher) : Prop where
  idle : σ.phase = .idle
  unsent : σ.sends = []
  fresh : ∀ row ∈ σ.store.webhookDeliveries.rows, row.Fresh

/-- A delivery that was listed is still stored as it was listed. -/
structure Held (σ : Dispatcher) (d : WebhookDelivery) : Prop where
  stored : σ.store.webhookDeliveries.find d.id = some d
  pending : d.status = .pending
  due : d.nextAttemptAt ≤ σ.clock

structure Inv (maxAttempts gap : ℕ) (σ : Dispatcher) : Prop where
  tracked : ∀ id row, σ.store.webhookDeliveries.find id = some row → Tracked maxAttempts gap row (σ.sendsOf id)
  known : ∀ s ∈ σ.sends, σ.store.webhookDeliveries.find s.deliveryId ≠ none
  held : ∀ d ∈ σ.phase.snapshot, σ.Held d
  distinct : (σ.phase.snapshot.map WebhookDeliveryRow.id).Nodup
  polled : ∀ now, σ.phase = .polling now → now ≤ σ.clock
  sent : ∀ d sentAt, σ.phase.sent = some (d, sentAt) → d.nextAttemptAt ≤ sentAt

theorem sendsOf_nil {σ : Dispatcher} (h : σ.sends = []) (id : Uuid) : σ.sendsOf id = [] := by
  rw [sendsOf, h, List.filter_nil]

theorem Initial.inv (hm : 1 ≤ maxAttempts) {σ : Dispatcher} (h : σ.Initial) : σ.Inv maxAttempts gap where
  tracked := by
    intro id row hrow
    rw [sendsOf_nil h.unsent]
    exact Tracked.fresh hm (h.fresh row (Table.mem_of_find hrow))
  known := by simp [h.unsent]
  held := by simp [h.idle, Phase.snapshot]
  distinct := by simp [h.idle, Phase.snapshot]
  polled := by simp [h.idle]
  sent := by simp [h.idle, Phase.sent]

/-- The deliveries that were there are untouched, and the others are new. -/
structure Grown (σ τ : Dispatcher) : Prop where
  kept : ∀ id row, σ.store.webhookDeliveries.find id = some row → τ.store.webhookDeliveries.find id = some row
  fresh : ∀ id row, σ.store.webhookDeliveries.find id = none →
    τ.store.webhookDeliveries.find id = some row → row.Fresh
  clock : σ.clock ≤ τ.clock
  phase : τ.phase = σ.phase
  sends : τ.sends = σ.sends

theorem after_kept {ws : List Write} {st : Store} {id : Uuid} {row : WebhookDelivery}
    (h : st.webhookDeliveries.find id = some row) : (st.after ws).webhookDeliveries.find id = some row := by
  induction ws generalizing st with
  | nil => exact h
  | cons w ws ih =>
    rw [Store.after_cons]
    apply ih
    cases w with
    | insertDelivery r => exact Table.find_insert_of_some h
    | _ => exact h

theorem after_fresh {ws : List Write} (hw : Enqueues ws) {st : Store} {id : Uuid} {row : WebhookDelivery}
    (h : st.webhookDeliveries.find id = none) (h' : (st.after ws).webhookDeliveries.find id = some row) :
    row.Fresh := by
  induction ws generalizing st with
  | nil => rw [show st.after [] = st from rfl, h] at h'; cases h'
  | cons w ws ih =>
    have hws : Enqueues ws := fun r hr => hw r (List.mem_cons_of_mem _ hr)
    rw [Store.after_cons] at h'
    cases hn : (w.apply st).webhookDeliveries.find id with
    | none => exact ih hws hn h'
    | some r =>
      have hr : ((w.apply st).after ws).webhookDeliveries.find id = some r := after_kept hn
      rw [h'] at hr
      cases hr
      cases w with
      | insertDelivery r =>
        obtain ⟨_, _, _, _, _, _, hnew⟩ := hw r List.mem_cons_self
        by_cases hid : r.id = id
        · have hfree : st.webhookDeliveries.find r.id = none := by rw [hid, h]
          have hfind := Table.find_insert hfree id
          rw [if_pos hid] at hfind
          have heq : some row = some r := hn.symm.trans hfind
          rw [Option.some.inj heq]
          exact new_fresh hnew
        · have hfind := Table.find_insert_of_ne st.webhookDeliveries hid
          have heq : some row = none := hn.symm.trans (hfind.trans h)
          cases heq
      | _ => rw [show st.webhookDeliveries.find id = some row from hn] at h; cases h

theorem Grown.of_same {σ τ : Dispatcher} (hd : τ.store.webhookDeliveries = σ.store.webhookDeliveries)
    (hc : σ.clock ≤ τ.clock) (hp : τ.phase = σ.phase) (hs : τ.sends = σ.sends) : Grown σ τ where
  kept := by rw [hd]; exact fun _ _ h => h
  fresh := by
    intro id row h h'
    rw [hd, h] at h'
    cases h'
  clock := hc
  phase := hp
  sends := hs

theorem Env.grown {σ τ : Dispatcher} (h : Env σ τ) : Grown σ τ := by
  cases h with
  | tick ht => exact .of_same rfl ht rfl rfl
  | commit hw => exact ⟨fun _ _ => after_kept, fun _ _ => after_fresh hw, le_refl _, rfl, rfl⟩
  | admin feed => exact .of_same rfl (le_refl _) rfl rfl

/-- Nothing was sent for a delivery that is not there. -/
theorem Inv.unsent {σ : Dispatcher} (h : σ.Inv maxAttempts gap) {id : Uuid}
    (hnone : σ.store.webhookDeliveries.find id = none) : σ.sendsOf id = [] := by
  rw [sendsOf, List.filter_eq_nil_iff]
  intro s hs hid
  have hid' : s.deliveryId = id := by simpa using hid
  exact h.known s hs (by rw [hid', hnone])

theorem Inv.grow (hm : 1 ≤ maxAttempts) {σ τ : Dispatcher} (h : σ.Inv maxAttempts gap) (hg : Grown σ τ) :
    τ.Inv maxAttempts gap where
  tracked := by
    intro id row hrow
    have hsends : τ.sendsOf id = σ.sendsOf id := by rw [sendsOf, sendsOf, hg.sends]
    rw [hsends]
    cases hold : σ.store.webhookDeliveries.find id with
    | some r =>
      have hr := hg.kept id r hold
      rw [hrow] at hr
      cases hr
      exact h.tracked id row hold
    | none =>
      rw [h.unsent hold]
      exact Tracked.fresh hm (hg.fresh id row hold hrow)
  known := by
    intro s hs
    rw [hg.sends] at hs
    obtain ⟨r, hr⟩ := Option.ne_none_iff_exists'.mp (h.known s hs)
    rw [hg.kept _ r hr]
    nofun
  held := by
    intro d hd
    rw [hg.phase] at hd
    obtain ⟨hs, hp, hdue⟩ := h.held d hd
    exact ⟨hg.kept _ _ hs, hp, hdue.trans hg.clock⟩
  distinct := by rw [hg.phase]; exact h.distinct
  polled := by rw [hg.phase]; exact fun now hnow => (h.polled now hnow).trans hg.clock
  sent := by rw [hg.phase]; exact h.sent

/-- A step that leaves the store alone and takes no new deliveries. -/
theorem Inv.rephase {σ : Dispatcher} (h : σ.Inv maxAttempts gap) {p : Phase}
    (hp : p.snapshot.Sublist σ.phase.snapshot)
    (polled : ∀ now, p = .polling now → now ≤ σ.clock)
    (sent : ∀ d sentAt, p.sent = some (d, sentAt) → d.nextAttemptAt ≤ sentAt) :
    Inv maxAttempts gap { σ with phase := p } where
  tracked := h.tracked
  known := h.known
  held d hd :=
    have hh := h.held d (hp.subset hd)
    ⟨hh.stored, hh.pending, hh.due⟩
  distinct := h.distinct.sublist (hp.map _)
  polled := polled
  sent := sent

theorem mem_dueDeliveries {st : Store} {now : ℕ} {d : WebhookDelivery} :
    d ∈ st.dueDeliveries now ↔
      d ∈ st.webhookDeliveries.rows ∧ d.status = .pending ∧ d.nextAttemptAt ≤ now := by
  simp [Store.dueDeliveries]

theorem Inv.list {σ : Dispatcher} (h : σ.Inv maxAttempts gap) {now : ℕ} {due order : List WebhookDelivery}
    (hp : σ.phase = .polling now) (hd : σ.store.listDueDeliveries now limit order = some due) :
    Inv maxAttempts gap { σ with phase := .listed due } := by
  unfold Store.listDueDeliveries at hd
  split at hd
  case isFalse => cases hd
  case isTrue hcond =>
    obtain ⟨hperm, -⟩ := hcond
    cases hd
    have hmem : ∀ d ∈ order.take limit, d ∈ σ.store.dueDeliveries now :=
      fun d hd => hperm.subset (List.mem_of_mem_take hd)
    have hnodup : (order.map WebhookDeliveryRow.id).Nodup := by
      rw [(hperm.map _).nodup_iff]
      exact σ.store.webhookDeliveries.nodup.sublist (List.filter_sublist.map _)
    have hheld : ∀ d ∈ order.take limit, Held { σ with phase := .listed (order.take limit) } d := by
      intro d hd
      obtain ⟨hrow, hpend, hdue⟩ := mem_dueDeliveries.mp (hmem d hd)
      exact ⟨Table.find_of_mem hrow, hpend, hdue.trans (h.polled now hp)⟩
    have hdistinct : ((order.take limit).map WebhookDeliveryRow.id).Nodup :=
      hnodup.sublist ((List.take_sublist _ _).map _)
    exact ⟨h.tracked, h.known, hheld, hdistinct, nofun, nofun⟩

theorem sendsOf_append {σ τ : Dispatcher} {s : Sending} (h : τ.sends = σ.sends ++ [s]) (id : Uuid) :
    τ.sendsOf id = if s.deliveryId = id then σ.sendsOf id ++ [s] else σ.sendsOf id := by
  rw [sendsOf, h, List.filter_append]
  by_cases hid : s.deliveryId = id <;> simp [sendsOf, hid]

theorem Inv.record {σ : Dispatcher} (h : σ.Inv maxAttempts gap) (hstore : σ.Storable maxAttempts gap)
    {d : WebhookDelivery} {sentAt now : ℕ} {o : SendOutcome} {due : List WebhookDelivery}
    {subs : List WebhookSubscription} {st : Store} (hp : σ.phase = .storing d sentAt o now due subs)
    (hr : σ.store.recordOutcome maxAttempts now d o = .ok st) :
    Inv maxAttempts gap ⟨st, σ.clock, .dispatching due subs, σ.sends ++ [⟨d.id, sentAt, o, some σ.clock⟩]⟩ := by
  have hsnap : σ.phase.snapshot = d :: due := by rw [hp, Phase.snapshot]
  have hd : σ.Held d := h.held d (by rw [hsnap]; exact List.mem_cons_self)
  have hfind := recordOutcome_find hd.stored hr
  rw [Storable, hp] at hstore
  have hsent : d.nextAttemptAt ≤ sentAt := h.sent d sentAt (by rw [hp, Phase.sent])
  have hnodup := h.distinct
  rw [hsnap, List.map_cons, List.nodup_cons] at hnodup
  constructor
  case tracked =>
    intro id row hrow
    rw [hfind] at hrow
    rw [sendsOf_append (σ := σ) rfl]
    by_cases hid : id = d.id
    · rw [if_pos hid] at hrow
      cases hrow
      rw [if_pos hid.symm, hid]
      exact (h.tracked _ _ hd.stored).record hd.pending hsent hstore.1 hstore.2
    · rw [if_neg hid] at hrow
      rw [if_neg (Ne.symm hid)]
      exact h.tracked id row hrow
  case known =>
    intro s hs
    rw [hfind]
    by_cases hid : s.deliveryId = d.id
    · rw [if_pos hid]
      nofun
    · rw [if_neg hid]
      rcases List.mem_append.mp hs with hs | hs
      · exact h.known s hs
      · rw [List.mem_singleton.mp hs] at hid
        exact absurd rfl hid
  case held =>
    intro d' hd'
    have hh := h.held d' (by rw [hsnap]; exact List.mem_cons_of_mem _ hd')
    have hne : d'.id ≠ d.id := by
      intro heq
      exact hnodup.1 (by rw [← heq]; exact List.mem_map_of_mem hd')
    refine ⟨?_, hh.pending, hh.due⟩
    rw [hfind, if_neg hne]
    exact hh.stored
  case distinct => exact hnodup.2
  case polled => nofun
  case sent => nofun

theorem Inv.own {σ τ : Dispatcher} (h : σ.Inv maxAttempts gap) (hstore : σ.Storable maxAttempts gap)
    (hstep : Own limit maxAttempts σ τ) : τ.Inv maxAttempts gap := by
  cases hstep with
  | start hp =>
    refine h.rephase (List.nil_sublist _) ?_ nofun
    intro now hnow
    cases hnow
    exact le_refl _
  | list order hp hd => exact h.list hp hd
  | subscribe hp => exact h.rephase (by rw [hp]; exact List.Sublist.refl _) nofun nofun
  | skip hp _ => exact h.rephase (by rw [hp]; exact List.sublist_cons_self _ _) nofun nofun
  | @send d _ _ _ hp _ =>
    refine h.rephase (by rw [hp]; exact List.Sublist.refl _) nofun ?_
    intro d' sentAt hsent
    cases hsent
    exact (h.held d (by rw [hp]; exact List.mem_cons_self)).due
  | @answer d _ sentAt _ _ _ hp =>
    refine h.rephase (by rw [hp]; exact List.Sublist.refl _) nofun ?_
    intro d' sentAt' hsent
    cases hsent
    exact h.sent d sentAt (by rw [hp]; rfl)
  | @stamp d sentAt _ _ _ hp =>
    refine h.rephase (by rw [hp]; exact List.Sublist.refl _) nofun ?_
    intro d' sentAt' hsent
    cases hsent
    exact h.sent d sentAt (by rw [hp]; rfl)
  | record hp hr => exact h.record hstore hp hr
  | @abort d _ now o _ _ _ hp hr =>
    have hd : σ.Held d := h.held d (by rw [hp]; exact List.mem_cons_self)
    have hfew := (h.tracked _ _ hd.stored).few hd.pending
    rw [Storable, hp] at hstore
    have hok : σ.store.recordOutcome maxAttempts now d o = .ok _ :=
      (recordOutcome_ok hd.stored).mpr ⟨fun _ => by omega, hstore.1, rfl⟩
    rw [hr] at hok
    cases hok
  | stop hp => exact h.rephase (List.nil_sublist _) nofun nofun

theorem ReachesStorably.inv (hm : 1 ≤ maxAttempts) {σ τ : Dispatcher} (h : σ.Inv maxAttempts gap)
    (hrun : ReachesStorably limit maxAttempts gap σ τ) : τ.Inv maxAttempts gap := by
  induction hrun with
  | refl => exact h
  | tail _ hstep ih =>
    rcases hstep with ⟨hstore, hown⟩ | henv
    · exact ih.own hstore hown
    · exact ih.grow hm henv.grown

/-- A delivery that is no longer pending is left alone, as its row is. -/
theorem Inv.own_silent {σ τ : Dispatcher} (h : σ.Inv maxAttempts gap)
    (hstep : Own limit maxAttempts σ τ) {id : Uuid}
    {row : WebhookDelivery} (hrow : σ.store.webhookDeliveries.find id = some row) (hs : row.status ≠ .pending) :
    τ.store.webhookDeliveries.find id = some row ∧ τ.sendsOf id = σ.sendsOf id := by
  have away : ∀ d, σ.Held d → d.id ≠ id := by
    intro d hd heq
    have hsame := hd.stored
    rw [heq, hrow] at hsame
    cases hsame
    exact hs hd.pending
  cases hstep with
  | @record d _ _ _ _ _ _ hp hr =>
    have hd : σ.Held d := h.held d (by rw [hp]; exact List.mem_cons_self)
    have hne := away d hd
    rw [recordOutcome_find hd.stored hr, if_neg (Ne.symm hne), sendsOf_append (σ := σ) rfl, if_neg hne]
    exact ⟨hrow, rfl⟩
  | @abort d _ _ _ _ _ _ hp hr =>
    have hd : σ.Held d := h.held d (by rw [hp]; exact List.mem_cons_self)
    rw [sendsOf_append (σ := σ) rfl, if_neg (away d hd)]
    exact ⟨hrow, rfl⟩
  | _ => exact ⟨hrow, rfl⟩

theorem ReachesStorably.silent (hm : 1 ≤ maxAttempts) {σ τ : Dispatcher} (h : σ.Inv maxAttempts gap)
    (hrun : ReachesStorably limit maxAttempts gap σ τ) {id : Uuid} {row : WebhookDelivery}
    (hrow : σ.store.webhookDeliveries.find id = some row) (hs : row.status ≠ .pending) :
    τ.store.webhookDeliveries.find id = some row ∧ τ.sendsOf id = σ.sendsOf id := by
  induction hrun with
  | refl => exact ⟨hrow, rfl⟩
  | @tail ρ τ hrun hstep ih =>
    obtain ⟨hstored, hsends⟩ := ih
    rcases hstep with ⟨-, hown⟩ | henv
    · obtain ⟨hfind, hsame⟩ := (ReachesStorably.inv hm h hrun).own_silent hown hstored hs
      exact ⟨hfind, hsame.trans hsends⟩
    · have hg := henv.grown
      refine ⟨hg.kept id row hstored, ?_⟩
      rw [← hsends, sendsOf, sendsOf, hg.sends]

/-- As long as every failure can be recorded, at most `gap` after the clock was read for it: a delivery stands as
the sends made for it say, it is sent only while it is pending, due and backed off but for `gap`, and never again
once it is no longer pending. -/
theorem delivery_lifecycle (hm : 1 ≤ maxAttempts) {σ₀ σ : Dispatcher} (h₀ : σ₀.Initial)
    (h : ReachesStorably limit maxAttempts gap σ₀ σ) :
    (¬σ.phase.Awaits → ∀ row ∈ σ.store.webhookDeliveries.rows, Stands maxAttempts row (σ.sendsOf row.id)) ∧
    (∀ d sentAt, σ.phase.sent = some (d, sentAt) →
      ∃ row, σ.store.webhookDeliveries.find d.id = some row ∧ row.status = .pending ∧
        row.nextAttemptAt ≤ sentAt ∧ BackedOff gap (σ.sendsOf d.id) sentAt) ∧
    (∀ id, Spaced gap (σ.sendsOf id)) ∧
    ∀ row ∈ σ.store.webhookDeliveries.rows, row.status ≠ .pending →
      ∀ τ, ReachesStorably limit maxAttempts gap σ τ → τ.sendsOf row.id = σ.sendsOf row.id := by
  have hinv : σ.Inv maxAttempts gap := h.inv hm (h₀.inv hm)
  refine ⟨?_, ?_, ?_, ?_⟩
  · intro _ row hrow
    exact (hinv.tracked _ _ (Table.find_of_mem hrow)).stands
  · intro d sentAt hsent
    have hd : σ.Held d := by
      apply hinv.held d
      cases hp : σ.phase <;> rw [hp] at hsent <;> cases hsent <;> exact List.mem_cons_self
    have hdue := hinv.sent d sentAt hsent
    exact ⟨d, hd.stored, hd.pending, hdue, (hinv.tracked _ _ hd.stored).scheduled hd.pending _ hdue⟩
  · intro id
    cases hrow : σ.store.webhookDeliveries.find id with
    | some row => exact (hinv.tracked id row hrow).spaced
    | none =>
      rw [hinv.unsent hrow]
      intro k hk
      cases hk
  · intro row hrow hs τ hτ
    exact (ReachesStorably.silent hm hinv hτ (Table.find_of_mem hrow) hs).2

def sampleDelivery : WebhookDelivery := ⟨80, 90, some 10, "payment.settled", [], .pending, 0, 0, none⟩

def sampleSubscription : WebhookSubscription := ⟨90, "https://merchant", "secret", [], true⟩

/-- One delivery, enqueued at time 0 for an active subscription. -/
def sample (phase : Phase) : Dispatcher where
  store := { sampleStore with webhookDeliveries := ⟨[sampleDelivery], by simp⟩ }
  clock := 5
  phase := phase
  sends := []

theorem sample_initial : (sample .idle).Initial := by
  refine ⟨rfl, rfl, ?_⟩
  intro row hrow
  rw [List.mem_singleton.mp hrow]
  exact ⟨rfl, rfl⟩

/-- The first cycle, up to the transaction that is to record the answer to its only request. -/
theorem sample_answered (o : SendOutcome) : ReachesStorably 1 2 0 (sample .idle)
    (sample (.storing sampleDelivery 5 o 5 [] [sampleSubscription])) := by
  have hstart : Own 1 2 (sample .idle) (sample (.polling 5)) := .start rfl
  have hlist : Own 1 2 (sample (.polling 5)) (sample (.listed [sampleDelivery])) :=
    .list [sampleDelivery] rfl (by decide)
  have hsubs : Own 1 2 (sample (.listed [sampleDelivery]))
      (sample (.dispatching [sampleDelivery] [sampleSubscription])) := .subscribe rfl
  have hsend : Own 1 2 (sample (.dispatching [sampleDelivery] [sampleSubscription]))
      (sample (.sending sampleDelivery sampleSubscription 5 [] [sampleSubscription])) := .send rfl (by decide)
  have hanswer : Own 1 2 (sample (.sending sampleDelivery sampleSubscription 5 [] [sampleSubscription]))
      (sample (.recording sampleDelivery 5 o [] [sampleSubscription])) := .answer o rfl
  have hstamp : Own 1 2 (sample (.recording sampleDelivery 5 o [] [sampleSubscription]))
      (sample (.storing sampleDelivery 5 o 5 [] [sampleSubscription])) := .stamp rfl
  have next {p q : Phase} (h : ReachesStorably 1 2 0 (sample .idle) (sample p))
      (hp : (sample p).Storable 2 0) (hs : Own 1 2 (sample p) (sample q)) :
      ReachesStorably 1 2 0 (sample .idle) (sample q) := h.tail (.inl ⟨hp, hs⟩)
  have hdispatching := next (next (next .refl trivial hstart) trivial hlist) trivial hsubs
  exact next (next (next hdispatching trivial hsend) trivial hanswer) trivial hstamp

/-- The row that a failure with status 500 leaves. -/
def sampleRetry : WebhookDelivery := ⟨80, 90, some 10, "payment.settled", [], .pending, 1, 2000005, some "HTTP 500"⟩

/-- The answer 500 is recorded at time `t`. -/
def sampleFailed (t : ℕ) (phase : Phase) : Dispatcher where
  store := { sampleStore with webhookDeliveries := ⟨[sampleRetry], by simp⟩ }
  clock := t
  phase := phase
  sends := [⟨80, 5, .status 500, some t⟩]

theorem sample_recorded (t : ℕ) :
    Own 1 2 ⟨(sample .idle).store, t, .storing sampleDelivery 5 (.status 500) 5 [] [sampleSubscription], []⟩
      (sampleFailed t (.dispatching [] [sampleSubscription])) := by
  have hrecorded :
      (sample .idle).store.recordOutcome 2 5 sampleDelivery (.status 500) = .ok (sampleFailed t .idle).store :=
    rfl
  exact .record (σ := ⟨_, t, .storing sampleDelivery 5 (.status 500) 5 [] [sampleSubscription], []⟩) rfl hrecorded

/-- After an answer with status 500 the delivery stands as that one send says. -/
theorem delivery_lifecycle_retry : ∃ σ, ReachesStorably 1 2 0 (sample .idle) σ ∧ σ.sends.length = 1 ∧
    ∀ row ∈ σ.store.webhookDeliveries.rows, Stands 2 row (σ.sendsOf row.id) := by
  have ho : (sample (.storing sampleDelivery 5 (.status 500) 5 [] [sampleSubscription])).Storable 2 0 := by
    refine ⟨?_, fun _ _ => le_refl _⟩
    intro error he
    cases he
    exact ⟨by rw [ofString_unstorable]; decide +kernel, fun _ => by decide⟩
  have hrun := (sample_answered (.status 500)).tail (.inl ⟨ho, sample_recorded 5⟩)
  exact ⟨_, hrun, rfl, (delivery_lifecycle (by decide) sample_initial hrun).1 nofun⟩

/-- An exception whose text no column takes: the failure is not recorded. -/
theorem unstorable_unrecorded (type : String) (message : PyStr)
    (h : ∀ error, (SendOutcome.raised type message).error = some error → error.Unstorable) :
    ∃ σ, Reaches 1 2 (sample .idle) σ ∧ ¬σ.phase.Awaits ∧
      ∃ row ∈ σ.store.webhookDeliveries.rows, ¬Stands 2 row (σ.sendsOf row.id) := by
  set o : SendOutcome := .raised type message
  have hrun : Reaches 1 2 (sample .idle) (sample (.storing sampleDelivery 5 o 5 [] [sampleSubscription])) :=
    ReachesStorably.reaches (sample_answered o)
  have hrow : (sample .idle).store.webhookDeliveries.find sampleDelivery.id = some sampleDelivery := rfl
  obtain ⟨e, hrefused⟩ : ∃ e, (sample .idle).store.recordOutcome 2 5 sampleDelivery o = .error e := by
    cases hr : (sample .idle).store.recordOutcome 2 5 sampleDelivery o with
    | error e => exact ⟨e, rfl⟩
    | ok st =>
      obtain ⟨-, hrecordable, -⟩ := (recordOutcome_ok hrow).mp hr
      exact absurd (h _ rfl) (hrecordable _ rfl).1
  refine ⟨_, hrun.tail (.inl (.abort rfl hrefused)), fun hawaits => hawaits, sampleDelivery,
    List.mem_singleton_self _, ?_⟩
  intro hstands
  have hcount := (hstands.of_pending rfl).1
  exact absurd hcount Nat.zero_ne_one

/-- The failure is recorded two seconds after the clock was read for it: the retry is due at once. -/
theorem lateRecord_early : ∃ σ d sentAt, Reaches 1 2 (sample .idle) σ ∧ σ.phase.sent = some (d, sentAt) ∧
    ¬BackedOff 0 (σ.sendsOf d.id) sentAt := by
  have hstoring : Reaches 1 2 (sample .idle) _ := ReachesStorably.reaches (sample_answered (.status 500))
  have hlate := hstoring.tail (.inr (.tick (t := 2000005) (by decide)))
  have hrecorded := hlate.tail (.inl (sample_recorded 2000005))
  have hstop : Own 1 2 (sampleFailed 2000005 (.dispatching [] [sampleSubscription])) (sampleFailed 2000005 .idle) :=
    .stop rfl
  have hstart : Own 1 2 (sampleFailed 2000005 .idle) (sampleFailed 2000005 (.polling 2000005)) := .start rfl
  have hlist : Own 1 2 (sampleFailed 2000005 (.polling 2000005)) (sampleFailed 2000005 (.listed [sampleRetry])) :=
    .list [sampleRetry] rfl (by decide)
  have hsubs : Own 1 2 (sampleFailed 2000005 (.listed [sampleRetry]))
      (sampleFailed 2000005 (.dispatching [sampleRetry] [sampleSubscription])) := .subscribe rfl
  have hsend : Own 1 2 (sampleFailed 2000005 (.dispatching [sampleRetry] [sampleSubscription]))
      (sampleFailed 2000005 (.sending sampleRetry sampleSubscription 2000005 [] [sampleSubscription])) :=
    .send rfl (by decide)
  have hlisted := ((hrecorded.tail (.inl hstop)).tail (.inl hstart)).tail (.inl hlist)
  refine ⟨_, _, _, (hlisted.tail (.inl hsubs)).tail (.inl hsend), rfl, ?_⟩
  intro h
  obtain ⟨t, ht, hle⟩ := h _ rfl
  cases ht
  exact absurd hle (by decide)

/-- A failure whose text has a NUL character is not recorded, and one that is recorded late is retried early. -/
theorem delivery_lifecycle_fails : (sample .idle).Initial ∧
    (∃ σ, Reaches 1 2 (sample .idle) σ ∧ ¬σ.phase.Awaits ∧
      ∃ row ∈ σ.store.webhookDeliveries.rows, ¬Stands 2 row (σ.sendsOf row.id)) ∧
    ∃ σ d sentAt, Reaches 1 2 (sample .idle) σ ∧ σ.phase.sent = some (d, sentAt) ∧
      ¬BackedOff 0 (σ.sendsOf d.id) sentAt := by
  refine ⟨sample_initial, unstorable_unrecorded "ConnectionError" ⟨[.char (Char.ofNat 0)]⟩ ?_,
    lateRecord_early⟩
  intro error he
  cases he
  exact .inl (List.mem_append_right _ (List.mem_singleton_self _))

end Dispatcher
end PaymentLedger
