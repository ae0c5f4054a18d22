import PaymentLedger.Webhooks.Workers

namespace PaymentLedger

/-- The delivery whose request has begun and is not recorded. -/
def Phase.underway : Phase → Option Uuid
  | sending d _ _ _ _ => some d.id
  | recording d _ _ _ _ => some d.id
  | storing d _ _ _ _ _ => some d.id
  | _ => none

namespace Fleet

variable {ω : Type} [DecidableEq ω]

/-- A step in which no dispatcher but `i` does anything, and none dies. -/
inductive Lone (limit maxAttempts : ℕ) (i : ω) : Fleet ω → Fleet ω → Prop
  | act {σ τ : Fleet ω} (h : Act limit maxAttempts i σ τ) : Lone limit maxAttempts i σ τ
  | beside {σ τ : Fleet ω} (h : Beside σ τ) : Lone limit maxAttempts i σ τ

/-- The fleet looks like this one dispatcher: the same store at the same time, and the requests that it has made. -/
structure Shows (σ : Fleet ω) (i : ω) (δ : Dispatcher) : Prop where
  store : δ.store = σ.store
  clock : δ.clock = σ.clock
  phase : δ.phase = σ.phase i
  begun : σ.begun = δ.sends.map (fun s => (i, s.deliveryId)) ++ (δ.phase.underway.map fun id => (i, id)).toList
  answered : σ.answered =
    δ.sends.map (fun s => (s.deliveryId, s.outcome)) ++ (δ.phase.received.map fun r => (r.1.id, r.2)).toList

/-- What the session of `i` has loaded is still stored, and what it has assigned can be recorded. -/
def Loaded (maxAttempts : ℕ) (σ : Fleet ω) (i : ω) : Prop :=
  ∀ s, σ.session i = some s → ∃ d sentAt outcome now due subs st,
    σ.phase i = .storing d sentAt outcome now due subs ∧
    σ.store.webhookDeliveries.find d.id = some s.loaded ∧
    σ.store.recordOutcome maxAttempts now d outcome = .ok st ∧
    s.assigned = s.loaded.recorded d maxAttempts now outcome

section Rows

variable {st st' : Store} {d row : WebhookDelivery} {maxAttempts now : ℕ} {outcome : SendOutcome}

theorem flushed_loaded {α : Type} [DecidableEq α] (loaded assigned : α) :
    flushed loaded assigned loaded = assigned := by
  unfold flushed
  split
  · next heq => exact heq.symm
  · rfl

/-- On the row that it has loaded, a session stores what it has assigned. -/
theorem flush_loaded {s : LoadedRow} (h : s.assigned = s.loaded.recorded d maxAttempts now outcome) :
    s.flush s.loaded = s.assigned := by
  rw [LoadedRow.flush, flushed_loaded, flushed_loaded, flushed_loaded, flushed_loaded, h]
  rcases recorded_cases s.loaded d maxAttempts now outcome with ⟨-, heq⟩ | ⟨error, -, -, ⟨-, heq⟩ | ⟨-, heq⟩⟩
  · rw [heq]
  · rw [heq]
  · rw [heq]

/-- Recording at once stores what a session stores that has loaded the row. -/
theorem recordOutcome_flush {s : LoadedRow} (hrow : st.webhookDeliveries.find d.id = some s.loaded)
    (h : st.recordOutcome maxAttempts now d outcome = .ok st')
    (hs : s.assigned = s.loaded.recorded d maxAttempts now outcome) :
    st' = { st with webhookDeliveries := st.webhookDeliveries.modify d.id s.flush s.flush_id } := by
  obtain ⟨-, -, rfl⟩ := (recordOutcome_ok hrow).mp h
  have hsame : st.webhookDeliveries.modify d.id (·.recorded d maxAttempts now outcome) recorded_id =
      st.webhookDeliveries.modify d.id s.flush s.flush_id := by
    apply Table.modify_congr
    intro r hr
    obtain rfl := Option.some.inj (hrow.symm.trans hr)
    rw [flush_loaded hs, hs]
  rw [hsame]

/-- Whether an outcome can be recorded does not depend on the store that has the row. -/
theorem recordOutcome_elsewhere {st₁ : Store} (hrow : st.webhookDeliveries.find d.id = some row)
    (h : st.recordOutcome maxAttempts now d outcome = .ok st')
    (hrow₁ : st₁.webhookDeliveries.find d.id = some row) :
    ∃ st₁', st₁.recordOutcome maxAttempts now d outcome = .ok st₁' := by
  obtain ⟨hint, hrecordable, -⟩ := (recordOutcome_ok hrow).mp h
  exact ⟨_, (recordOutcome_ok hrow₁).mpr ⟨hint, hrecordable, rfl⟩⟩

end Rows

section Steps

variable {limit maxAttempts : ℕ} {i : ω} {σ τ : Fleet ω} {δ v : Dispatcher} {p : Phase}

/-- What a dispatcher does between its transactions it does whatever it has sent before. -/
theorem own_sends {sends : List Sending} (h : Dispatcher.Own limit maxAttempts v { v with phase := p }) :
    Dispatcher.Own limit maxAttempts { v with sends } { v with phase := p, sends } := by
  generalize hw : { v with phase := p } = w at h
  have hphase : p = w.phase := by rw [← hw]
  have hsends : v.sends = w.sends := by rw [← hw]
  rw [hphase]
  cases h with
  | start hp => exact .start hp
  | list order hp hd => exact .list order hp hd
  | subscribe hp => exact .subscribe hp
  | skip hp hs => exact .skip hp hs
  | send hp hs => exact .send hp hs
  | answer outcome hp => exact .answer outcome hp
  | stamp hp => exact .stamp hp
  | record hp hr => simp at hsends
  | abort hp hr => simp at hsends
  | stop hp => exact .stop hp

/-- A request stays under way until it is recorded, and so does its answer. -/
theorem own_underway (h : Dispatcher.Own limit maxAttempts v { v with phase := p }) :
    v.phase.underway.toList ++ p.begins.toList = p.underway.toList ∧
      (v.phase.received.map fun r => (r.1.id, r.2)).toList ++ p.answer.toList =
        (p.received.map fun r => (r.1.id, r.2)).toList := by
  generalize hw : { v with phase := p } = w at h
  have hphase : p = w.phase := by rw [← hw]
  have hsends : v.sends = w.sends := by rw [← hw]
  rw [hphase]
  cases h with
  | record hp hr => simp at hsends
  | abort hp hr => simp at hsends
  | start hp => simp [hp, Phase.underway, Phase.begins, Phase.answer, Phase.received]
  | list order hp hd => simp [hp, Phase.underway, Phase.begins, Phase.answer, Phase.received]
  | subscribe hp => simp [hp, Phase.underway, Phase.begins, Phase.answer, Phase.received]
  | skip hp hs => simp [hp, Phase.underway, Phase.begins, Phase.answer, Phase.received]
  | send hp hs => simp [hp, Phase.underway, Phase.begins, Phase.answer, Phase.received]
  | answer outcome hp => simp [hp, Phase.underway, Phase.begins, Phase.answer, Phase.received]
  | stamp hp => simp [hp, Phase.underway, Phase.begins, Phase.answer, Phase.received]
  | stop hp => simp [hp, Phase.underway, Phase.begins, Phase.answer, Phase.received]

theorem Act.loaded (hact : Act limit maxAttempts i σ τ) : τ.Loaded maxAttempts i := by
  cases hact with
  | work hs how =>
    intro s hs'
    rw [hs] at hs'
    cases hs'
  | @load d row assigned sentAt now outcome due subs st hp hs hrow hr ha =>
    intro s hs'
    obtain rfl := Option.some.inj ((Function.update_self i _ σ.session).symm.trans hs')
    exact ⟨d, sentAt, outcome, now, due, subs, st, hp, hrow, hr, recordOutcome_assigned hrow hr ha⟩
  | flush hp hs =>
    intro s hs'
    cases (Function.update_self i none σ.session).symm.trans hs'
  | abort hp hs hr =>
    intro s hs'
    rw [hs] at hs'
    cases hs'

omit [DecidableEq ω] in
/-- What happens beside the dispatcher leaves the row alone that it has loaded. -/
theorem Loaded.beside (h : σ.Loaded maxAttempts i) (hbeside : Beside σ τ) : τ.Loaded maxAttempts i := by
  obtain ⟨he⟩ := hbeside
  intro s hs
  obtain ⟨d, sentAt, outcome, now, due, subs, st, hp, hrow, hr, hassigned⟩ := h s hs
  have hkept := he.grown.kept d.id s.loaded hrow
  obtain ⟨st', hr'⟩ := recordOutcome_elsewhere hrow hr hkept
  exact ⟨d, sentAt, outcome, now, due, subs, st', hp, hkept, hr', hassigned⟩

/-- What the dispatcher does shows as a step or not at all: not when it loads a row, but when it is stored. -/
theorem Shows.act (h : σ.Shows i δ) (hl : σ.Loaded maxAttempts i) (hact : Act limit maxAttempts i σ τ) :
    ∃ δ', Dispatcher.Reaches limit maxAttempts δ δ' ∧ τ.Shows i δ' := by
  obtain ⟨st, clock, phase, sends⟩ := δ
  obtain ⟨rfl, rfl, rfl, hbegun, hanswered⟩ := h
  cases hact with
  | @work p hs how =>
    obtain ⟨hunderway, hreceived⟩ := own_underway how
    refine ⟨⟨σ.store, σ.clock, p, sends⟩, .single (.inl (own_sends how)), ?_⟩
    refine ⟨rfl, rfl, (Function.update_self i p σ.phase).symm, ?_, ?_⟩
    · have hids : ((σ.phase i).underway.map fun id => (i, id)).toList ++ (p.begins.map fun id => (i, id)).toList =
          (p.underway.map fun id => (i, id)).toList := by
        simp only [Option.toList_map, ← List.map_append, ← hunderway]
        rfl
      simp only [hbegun, List.append_assoc, hids]
    · simp only [hanswered, List.append_assoc]
      rw [← hreceived]
      rfl
  | load hp hs hrow hr ha => exact ⟨_, .refl, rfl, rfl, rfl, hbegun, hanswered⟩
  | @flush d s sentAt now outcome due subs hp hs =>
    obtain ⟨d', sentAt', outcome', now', due', subs', st, hp', hrow, hr, hassigned⟩ := hl s hs
    obtain ⟨rfl, rfl, rfl, rfl, rfl, rfl⟩ := Phase.storing.inj (hp.symm.trans hp')
    obtain rfl := recordOutcome_flush hrow hr hassigned
    refine ⟨_, .single (.inl (.record hp hr)), rfl, rfl, (Function.update_self i _ σ.phase).symm, ?_, ?_⟩
    · simp only [hbegun, hp, List.map_append]
      exact (List.append_nil _).symm
    · simp only [hanswered, hp, List.map_append]
      exact (List.append_nil _).symm
  | @abort d sentAt now outcome due subs e hp hs hr =>
    refine ⟨_, .single (.inl (.abort hp hr)), rfl, rfl, (Function.update_self i _ σ.phase).symm, ?_, ?_⟩
    · simp only [hbegun, hp, List.map_append]
      exact (List.append_nil _).symm
    · simp only [hanswered, hp, List.map_append]
      exact (List.append_nil _).symm

omit [DecidableEq ω] in
/-- What happens beside the dispatcher happens beside what it shows. -/
theorem Shows.beside (h : σ.Shows i δ) (hbeside : Beside σ τ) :
    ∃ δ', Dispatcher.Reaches limit maxAttempts δ δ' ∧ τ.Shows i δ' := by
  obtain ⟨st, clock, phase, sends⟩ := δ
  obtain ⟨rfl, rfl, rfl, hbegun, hanswered⟩ := h
  obtain ⟨he⟩ := hbeside
  cases he with
  | tick ht => exact ⟨_, .single (.inr (.tick ht)), rfl, rfl, rfl, hbegun, hanswered⟩
  | commit hw => exact ⟨_, .single (.inr (.commit hw)), rfl, rfl, rfl, hbegun, hanswered⟩
  | admin feed => exact ⟨_, .single (.inr (.admin feed)), rfl, rfl, rfl, hbegun, hanswered⟩

/-- One dispatcher that does not die, as the scheduler runs it, does nothing that it would not do if it recorded
every outcome at once, at the moment of its commit. -/
theorem lone_dispatcher_refines {σ₀ : Fleet ω} (h₀ : σ₀.Initial)
    (h : Relation.ReflTransGen (Lone limit maxAttempts i) σ₀ σ) :
    ∃ δ, (σ₀.view i).Initial ∧ Dispatcher.Reaches limit maxAttempts (σ₀.view i) δ ∧ σ.Shows i δ := by
  have hrun : ∃ δ, Dispatcher.Reaches limit maxAttempts (σ₀.view i) δ ∧ σ.Shows i δ ∧ σ.Loaded maxAttempts i := by
    induction h with
    | refl =>
      refine ⟨σ₀.view i, .refl, ⟨rfl, rfl, rfl, ?_, ?_⟩, ?_⟩
      · simp [view, h₀.unbegun, h₀.idle, Phase.underway]
      · simp [view, h₀.unanswered, h₀.idle, Phase.received]
      · intro s hs
        rw [h₀.closed] at hs
        cases hs
    | tail _ hstep ih =>
      obtain ⟨δ, hr, hshows, hloaded⟩ := ih
      cases hstep with
      | act hact =>
        obtain ⟨δ', hr', hshows'⟩ := hshows.act hloaded hact
        exact ⟨δ', hr.trans hr', hshows', hact.loaded⟩
      | beside hbeside =>
        obtain ⟨δ', hr', hshows'⟩ := hshows.beside hbeside
        exact ⟨δ', hr.trans hr', hshows', hloaded.beside hbeside⟩
  obtain ⟨δ, hr, hshows, -⟩ := hrun
  exact ⟨δ, ⟨h₀.idle i, rfl, h₀.fresh⟩, hr, hshows⟩

end Steps

/-- A delivery is sent, answered and recorded while the second dispatcher does nothing. -/
theorem lone_dispatcher_refines_delivered :
    ∃ σ δ, Relation.ReflTransGen (Lone 1 2 false) (sample .idle .idle [] []) σ ∧
    σ.answered = [(80, .status 200)] ∧ σ.session false = none ∧ ((sample .idle .idle [] []).view false).Initial ∧
    Dispatcher.Reaches 1 2 ((sample .idle .idle [] []).view false) δ ∧ σ.Shows false δ := by
  set d := Dispatcher.sampleDelivery
  set subs := [Dispatcher.sampleSubscription]
  obtain ⟨hstart, hlist, hsubs, hsend, hanswer, hstamp⟩ := sample_cycle
  have hanswered : Relation.ReflTransGen (Lone 1 2 false) (sample .idle .idle [] [])
      (sample (.storing d 5 (.status 200) 5 [] subs) .idle [(false, 80)] [(80, .status 200)]) :=
    .tail (.tail (.tail (.tail (.tail (.single (.act (sample_first hstart))) (.act (sample_first hlist)))
      (.act (sample_first hsubs))) (.act (sample_first hsend))) (.act (sample_first hanswer)))
      (.act (sample_first hstamp))
  set σ := sample (.storing d 5 (.status 200) 5 [] subs) .idle [(false, 80)] [(80, .status 200)]
  have hload : Act 1 2 false σ { σ with
      session := Function.update σ.session false (some ⟨d, { d with status := .delivered }⟩) } :=
        .load rfl rfl rfl rfl rfl
  have hrun := (hanswered.tail (.act hload)).tail (.act (.flush rfl rfl))
  obtain ⟨δ, hinitial, hr, hshows⟩ := lone_dispatcher_refines sample_initial hrun
  exact ⟨_, δ, hrun, rfl, rfl, hinitial, hr, hshows⟩

end Fleet
end PaymentLedger
