import PaymentLedger.Payments.Lifecycle
import PaymentLedger.Payments.Outbox
import PaymentLedger.Reconciliation.Reports
import PaymentLedger.Transaction.Windows

namespace PaymentLedger

def Call.settles : Call → Bool
  | .settlePayment _ _ => true
  | _ => false

/-- The window of `list_settled_payments`. -/
def Stmt.window : Stmt → Option (ℕ × ℕ)
  | .selectSettled windowStart windowEnd => some (windowStart, windowEnd)
  | _ => none

/-- The settled payments that a statement has listed. -/
def Event.settled (e : Event postgres) : List LedgerSettledPayment :=
  match e with
  | ⟨.selectSettled _ _, settled, _, _⟩ => settled
  | _ => []

def settledRead (tx : List (Event postgres)) : List LedgerSettledPayment := tx.flatMap Event.settled

theorem mem_settledRead {tx : List (Event postgres)} {p : LedgerSettledPayment} : p ∈ settledRead tx ↔
    ∃ e ∈ tx, ∃ windowStart windowEnd settled, Did (.selectSettled windowStart windowEnd) settled e ∧
    p ∈ settled := by
  rw [settledRead, List.mem_flatMap]
  refine exists_congr fun e => and_congr_right fun _ => ?_
  constructor
  · intro hp
    obtain ⟨s, r, ws, n⟩ := e
    cases s with
    | selectSettled a b => exact ⟨a, b, r, ⟨ws, n, rfl⟩, hp⟩
    | _ => cases hp
  · rintro ⟨a, b, settled, ⟨ws, n, rfl⟩, hp⟩
    exact hp

/-- Half-open windows that tile the time line, each with its reconciliation run, if it has one. -/
structure Tiling {ι : Type} (calls : ι → Call) where
  bound : ℕ → ℕ
  monotone : Monotone bound
  run : ℕ → Option ι
  runs : ∀ k i, run k = some i → ∃ batchId records,
    calls i = .runReconciliation batchId records (bound k) (bound (k + 1))

theorem Tiling.unique {ι : Type} {calls : ι → Call} (T : Tiling calls) {k k' t : ℕ} (hk : T.bound k ≤ t)
    (ht : t < T.bound (k + 1))
    (hk' : T.bound k' ≤ t) (ht' : t < T.bound (k' + 1)) : k = k' := by
  rcases Nat.lt_trichotomy k k' with h | h | h
  · have hle := T.monotone (show k + 1 ≤ k' by omega)
    omega
  · exact h
  · have hle := T.monotone (show k' + 1 ≤ k by omega)
    omega

section Rows

variable {st : Store} {windowStart windowEnd : ℕ} {x : StatusHistoryRow}

/-- The payments of a window are those with a history row that settled them inside it. -/
theorem settledIn_iff {id : Uuid} : (∃ p ∈ st.settledIn windowStart windowEnd, p.paymentId = id) ↔
    st.hasPayment id = true ∧ ∃ x ∈ st.statusHistory, x.paymentId = id ∧ x.toStatus = .settled ∧
      windowStart ≤ x.transitionedAt ∧ x.transitionedAt < windowEnd := by
  constructor
  · rintro ⟨p, hp, rfl⟩
    obtain ⟨x, hx, hp⟩ := List.mem_flatMap.mp hp
    obtain ⟨row, hrow, rfl⟩ := List.mem_map.mp hp
    have hfind := Option.mem_toList.mp hrow
    have hid : row.id = x.paymentId := Table.find_key hfind
    obtain ⟨hmem, hwindow⟩ := List.mem_filter.mp hx
    have hwindow := of_decide_eq_true hwindow
    refine ⟨?_, x, hmem, hid.symm, hwindow⟩
    show st.hasPayment row.id = true
    rw [hid]
    exact Option.isSome_iff_exists.mpr ⟨row, hfind⟩
  · rintro ⟨hpayment, x, hx, rfl, hwindow⟩
    obtain ⟨row, hrow⟩ := Option.isSome_iff_exists.mp hpayment
    have hmem : x ∈ st.statusHistory.filter fun h =>
        h.toStatus = .settled ∧ windowStart ≤ h.transitionedAt ∧ h.transitionedAt < windowEnd :=
      List.mem_filter.mpr ⟨hx, decide_eq_true hwindow⟩
    have hid : row.id = x.paymentId := Table.find_key hrow
    exact ⟨_, List.mem_flatMap.mpr ⟨x, hmem, List.mem_map.mpr ⟨row, Option.mem_toList.mpr hrow, rfl⟩⟩, hid⟩

/-- A row that settles a payment comes from a settlement, at the time at which its transaction began. -/
theorem Commit.Does.settled {ι : Type} {rt : Runtime} {calls : ι → Call} {c : Commit postgres ι}
    {v : Option Value} {d : Deed}
    (hd : c.Does rt calls v d) (hx : x ∈ historyCreated c.tx) (hs : x.toStatus = .settled) :
    (calls c.caller).settles = true ∧ x.transitionedAt = c.began := by
  rw [Deed.historyCreated_eq hd.deed.legal hd.writes] at hx
  have hdeed := hd.deed
  cases d with
  | initiate row subs ds completion =>
    rw [List.mem_singleton.mp hx] at hs
    cases hs
  | transition row toStatus reason fx posting subs ds =>
    rw [List.mem_singleton.mp hx] at hs ⊢
    refine ⟨?_, rfl⟩
    have hto : toStatus = .settled := hs
    generalize calls c.caller = call at hdeed ⊢
    cases call with
    | settlePayment id n => rfl
    | initiatePaymentIdempotent key body req =>
      rcases hdeed with ⟨claimed, h, -⟩ | ⟨row', subs', ds', completion, h, -⟩ <;> cases h
    | postJournalEntry entry n =>
      obtain ⟨posting', h, -⟩ := hdeed
      cases h
    | runReconciliation batchId records a b =>
      obtain ⟨ws, runId, result, h, -⟩ := hdeed
      cases h
    | initiatePayment req =>
      obtain ⟨row', subs', ds', h, -⟩ := hdeed
      cases h
    | authorisePayment id n =>
      obtain ⟨row', reason', subs', ds', h, -⟩ := hdeed
      cases h
      cases hto
    | failPayment id r n =>
      obtain ⟨row', reason', subs', ds', h, -⟩ := hdeed
      cases h
      cases hto
    | reversePayment id n =>
      obtain ⟨row', reason', fx', entry, posting', subs', ds', h, -⟩ := hdeed
      cases h
      cases hto
  | _ => cases hx

end Rows

section Run

variable {ι : Type} {rt : Runtime} {step : Feed → Feed → Prop} {st₀ : Store}
  {calls : ι → Call} {σ : Config postgres ι Value} {log : List (Commit postgres ι)}
  {st : Store} {x : StatusHistoryRow}

/-- The history of a store is what its log has created. -/
theorem Fresh.history_created (h₀ : Fresh st₀) (h : History (feedEnv step) st₀ log st) :
    x ∈ st.statusHistory ↔ ∃ c ∈ log, x ∈ historyCreated c.tx := by
  have hst : st.statusHistory = (st₀.after (logWrites log)).statusHistory := by
    rw [h.eq_after]
  rw [hst, history_after, h₀.history, List.nil_append, logWrites, List.filterMap_flatMap, List.mem_flatMap]
  rfl

/-- No payment is settled twice. -/
theorem Lifecycle.settled_unique {y : StatusHistoryRow} (h : Lifecycle st) (hx : x ∈ st.statusHistory)
    (hy : y ∈ st.statusHistory)
    (hid : y.paymentId = x.paymentId) (hto : x.toStatus = y.toStatus) : x = y := by
  obtain ⟨row, hrow⟩ := Option.isSome_iff_exists.mp (h.history x hx)
  have hkey : row.id = x.paymentId := Table.find_key hrow
  have hnodup := (h.payments _ row hrow).chain.nodup
  have hof (z : StatusHistoryRow) (hz : z ∈ st.statusHistory) (hzid : z.paymentId = x.paymentId) :
      z ∈ st.historyOf row.id := by
    rw [hkey]
    exact List.mem_filter.mpr ⟨hz, decide_eq_true hzid⟩
  exact List.inj_on_of_nodup_map hnodup (hof x hx rfl) (hof y hy hid) hto

/-- The caller has committed a reconciliation run with the payment in its list of settled payments. -/
def Lists (σ : Config postgres ι Value) (i : ι) (id : Uuid) : Prop :=
  ∃ c ∈ σ.world.log, c.caller = i ∧ ∃ p ∈ settledRead c.tx, p.paymentId = id

variable [DecidableEq ι]

/-- In a run in which no window is read before its end, or while a settlement that began inside it is open, each
settlement is listed by the run of its window and by no other. -/
theorem settled_once (h₀ : Fresh st₀) (T : Tiling calls) {clock : ℕ}
    (h : Relation.ReflTransGen (fun σ σ' => Step (feedEnv step) σ σ' ∧ Elapsed Stmt.window σ σ' ∧
      Drained Stmt.window (fun i => (calls i).settles) σ σ') (System rt st₀ clock calls) σ)
    (hx : x ∈ σ.world.store.statusHistory) (hs : x.toStatus = .settled) {k : ℕ} {i : ι} (hi : T.run k = some i)
    (hstart : T.bound k ≤ x.transitionedAt) (hend : x.transitionedAt < T.bound (k + 1))
    (hdone : ∃ c ∈ σ.world.log, c.caller = i) :
    ∃! k', ∃ i', T.run k' = some i' ∧ Lists σ i' x.paymentId := by
  have hreaches : Reaches (feedEnv step) (System rt st₀ clock calls) σ :=
    Relation.ReflTransGen.mono (fun _ _ hs => hs.1) _ _ h
  have hwf := reaches_wellFormed hreaches
  have hlife := hwf.lifecycle h₀ (List.prefix_refl _) hwf.history
  refine ⟨k, ⟨i, hi, ?_⟩, ?_⟩
  · obtain ⟨c, hc, rfl⟩ := hdone
    obtain ⟨batchId, records, hcall⟩ := T.runs k _ hi
    obtain ⟨l, l', hl⟩ := List.append_of_mem hc
    obtain ⟨v, hv⟩ := hwf.reported hl hcall
    obtain ⟨e, he, settled, st, hd, -, -, hseen, hpast, hperm⟩ := hwf.settled_seen hl hv
    have hcaught : CaughtUp (fun i => (calls i).settles) σ e (T.bound k) (T.bound (k + 1)) := by
      apply caughtUp_reached h (.inr ⟨c, hc, rfl, he⟩)
      rw [hd.stmt]
      rfl
    have hread : x ∈ st.statusHistory := by
      obtain ⟨c', hc', hcreated⟩ := (h₀.history_created hwf.history).mp hx
      obtain ⟨v', d, hdoes⟩ := hwf.does hc'
      obtain ⟨hsettles, hbegan⟩ := hdoes.settled hcreated hs
      apply (h₀.history_created hpast).mpr ⟨c', ?_, hcreated⟩
      rw [← List.take_append_drop e.seen σ.world.log] at hc'
      rcases List.mem_append.mp hc' with hc' | hc'
      · rw [hl, List.take_append_of_le_length hseen] at hc'
        exact hc'
      · have hlate := hcaught.late c' hc' hsettles
        omega
    have hpayment : st.hasPayment x.paymentId = true := by
      have hprefix : l.take e.seen <+: σ.world.log := by
        rw [hl]
        exact (List.take_prefix _ _).trans (List.prefix_append _ _)
      exact (hwf.lifecycle h₀ hprefix hpast).history x hread
    obtain ⟨p, hp, hid⟩ := settledIn_iff.mpr ⟨hpayment, x, hread, rfl, hs, hstart, hend⟩
    exact ⟨c, hc, rfl, p, mem_settledRead.mpr ⟨e, he, _, _, settled, hd, hperm.mem_iff.mpr hp⟩, hid⟩
  · rintro k' ⟨i', hi', c, hc, rfl, p, hp, hid⟩
    obtain ⟨e', he', a, b, settled', hd', hp⟩ := mem_settledRead.mp hp
    obtain ⟨batchId, records, hcall⟩ := T.runs k' _ hi'
    obtain ⟨l, l', hl⟩ := List.append_of_mem hc
    obtain ⟨v, hv⟩ := hwf.reported hl hcall
    obtain ⟨e, he, settled, st, hd, honly, -, hseen, hpast, hperm⟩ := hwf.settled_seen hl hv
    rw [honly e' he' a b settled' hd'] at hp
    obtain ⟨-, y, hy, hyid, hys, hystart, hyend⟩ := settledIn_iff.mp ⟨p, hperm.mem_iff.mp hp, hid⟩
    have hylate : y ∈ σ.world.store.statusHistory := by
      obtain ⟨c', hc', hcreated⟩ := (h₀.history_created hpast).mp hy
      apply (h₀.history_created hwf.history).mpr ⟨c', ?_, hcreated⟩
      rw [hl]
      exact List.mem_append_left _ (List.mem_of_mem_take hc')
    obtain rfl := hlife.settled_unique hx hylate hyid (hs.trans hys.symm)
    exact T.unique hystart hyend hstart hend

end Run

section Samples

/-- The sample payment, and the runs of two windows. -/
def windowCalls : Fin 5 → Call
  | 0 => sampleCalls 0
  | 1 => sampleCalls 1
  | 2 => sampleCalls 2
  | 3 => .runReconciliation 50 [] 0 5
  | 4 => .runReconciliation 51 [] 5 10

def windowTiling : Tiling windowCalls where
  bound := fun k => 5 * k
  monotone := fun _ _ h => Nat.mul_le_mul_left 5 h
  run
    | 0 => some 3
    | 1 => some 4
    | _ => none
  runs := by
    intro k i hi
    match k with
    | 0 =>
      obtain rfl := Option.some.inj hi
      exact ⟨50, [], rfl⟩
    | 1 =>
      obtain rfl := Option.some.inj hi
      exact ⟨51, [], rfl⟩
    | _ + 2 => cases hi

def initiationSteps : List ((Fin 5 × Choice) ⊕ ℕ) :=
  let subscriptions := sampleStore.feed.webhookSubscriptions.rows
  List.replicate 4 (.inl (0, { id := 10 })) ++ List.replicate 4 (.inl (0, { id := 80, subscriptions })) ++
    List.replicate 7 (.inl (1, { id := 81, subscriptions }))

def settlementSteps (n : ℕ) : List ((Fin 5 × Choice) ⊕ ℕ) :=
  List.replicate n (.inl (2, { id := 82, subscriptions := sampleStore.feed.webhookSubscriptions.rows }))

def runSteps (i : Fin 5) (settled : List LedgerSettledPayment) (n : ℕ) : List ((Fin 5 × Choice) ⊕ ℕ) :=
  List.replicate n (.inl (i, { id := 60 + BitVec.ofNat 128 i, settled }))

instance (σ : Config postgres (Fin 5) Value) (i : Fin 5) (id : Uuid) : Decidable (Lists σ i id) :=
  inferInstanceAs (Decidable (∃ c ∈ σ.world.log, c.caller = i ∧ ∃ p ∈ settledRead c.tx, p.paymentId = id))

/-- The payment is settled at time 0, and the run of its window starts at time 5. -/
def settledSchedule : List ((Fin 5 × Choice) ⊕ ℕ) :=
  initiationSteps ++ settlementSteps 15 ++ .inr 5 :: runSteps 3 [⟨10, Uuid.str 10, cents 1000, "EUR"⟩] 5

theorem settled_once_sample : ∃ σ, ∃ x ∈ σ.world.store.statusHistory, x.paymentId = 10 ∧ x.toStatus = .settled ∧
    ∃! k, ∃ i, windowTiling.run k = some i ∧ Lists σ i x.paymentId := by
  let settles (i : Fin 5) : Bool := (windowCalls i).settles
  let ok (σ : Config postgres (Fin 5) Value) (i : Fin 5) : Bool :=
    σ.elapsed Stmt.window i && σ.drained Stmt.window settles i
  obtain ⟨σ, hσ⟩ := Option.isSome_iff_exists.mp (by decide +kernel :
    ((System sampleRuntime sampleStore 0 windowCalls).guarded ok settledSchedule).isSome = true)
  have hreached :
    Relation.ReflTransGen (fun σ σ' => Step (feedEnv fun _ _ => False) σ σ' ∧ Elapsed Stmt.window σ σ' ∧
      Drained Stmt.window settles σ σ') (System sampleRuntime sampleStore 0 windowCalls) σ := by
    refine guarded_reaches (D := postgres) ?_ ?_ settledSchedule hσ
    · intro σ σ' i c hok h
      have hboth := Bool.and_eq_true_iff.mp hok
      exact ⟨elapsed_act hboth.1 h, drained_act hboth.2 h⟩
    · intro σ t
      exact ⟨fun a b ha => (not_asks_tick ha).elim, fun a b ha => (not_asks_tick ha).elim⟩
  have hrows : ((System sampleRuntime sampleStore 0 windowCalls).guarded ok settledSchedule).map (fun σ =>
      (σ.world.store.statusHistory.any (fun x => x = ⟨10, some .authorised, .settled, 0, none⟩),
        σ.world.log.any fun c => c.caller = 3)) = some (true, true) := by decide +kernel
  rw [hσ, Option.map_some, Option.some.injEq, Prod.mk.injEq, List.any_eq_true, List.any_eq_true] at hrows
  obtain ⟨⟨x, hx, hrow⟩, c, hc, hcaller⟩ := hrows
  have hrow := of_decide_eq_true hrow
  have hdone : ∃ c ∈ σ.world.log, c.caller = 3 := ⟨c, hc, of_decide_eq_true hcaller⟩
  have hs : x.toStatus = .settled := by rw [hrow]
  have hat : x.transitionedAt = 0 := by rw [hrow]
  refine ⟨σ, x, hx, by rw [hrow], hs, ?_⟩
  exact settled_once sampleStore_fresh windowTiling hreached hx hs (k := 0) (i := 3) rfl (Nat.zero_le _)
    (by rw [hat]; decide) hdone

/-- The settlement begins at time 0 and ends after the run of its window has read, before that of the next one. -/
def straddlingSchedule : List ((Fin 5 × Choice) ⊕ ℕ) :=
  initiationSteps ++ settlementSteps 1 ++ .inr 5 :: runSteps 3 [] 4 ++ settlementSteps 14 ++
    .inr 10 :: runSteps 4 [] 4

theorem straddling_lost : ∃ σ, Relation.ReflTransGen (fun σ σ' => Step (feedEnv fun _ _ => False) σ σ' ∧
      Elapsed Stmt.window σ σ') (System sampleRuntime sampleStore 0 windowCalls) σ ∧
    (∃ x ∈ σ.world.store.statusHistory, x.paymentId = 10 ∧ x.toStatus = .settled ∧
      windowTiling.bound 0 ≤ x.transitionedAt ∧ x.transitionedAt < windowTiling.bound 1) ∧
    (∀ k i, windowTiling.run k = some i → ∃ c ∈ σ.world.log, c.caller = i) ∧
    ¬∃ k i, windowTiling.run k = some i ∧ Lists σ i 10 := by
  obtain ⟨σ, hσ⟩ := Option.isSome_iff_exists.mp (by decide +kernel :
    ((System sampleRuntime sampleStore 0 windowCalls).guarded (Config.elapsed Stmt.window)
      straddlingSchedule).isSome = true)
  have hrows :
    ((System sampleRuntime sampleStore 0 windowCalls).guarded (Config.elapsed Stmt.window) straddlingSchedule).map
      (fun σ => (σ.world.store.statusHistory.any (fun x => x = ⟨10, some .authorised, .settled, 0, none⟩),
        σ.world.log.any (fun c => c.caller = 3), σ.world.log.any (fun c => c.caller = 4),
        decide (Lists σ 3 10 ∨ Lists σ 4 10))) = some (true, true, true, false) := by decide +kernel
  rw [hσ, Option.map_some, Option.some.injEq, Prod.mk.injEq, Prod.mk.injEq, Prod.mk.injEq, List.any_eq_true,
    List.any_eq_true, List.any_eq_true] at hrows
  obtain ⟨⟨x, hx, hrow⟩, ⟨c, hc, hcaller⟩, ⟨c', hc', hcaller'⟩, hunlisted⟩ := hrows
  have hrow := of_decide_eq_true hrow
  have hneither := of_decide_eq_false hunlisted
  refine ⟨σ, ?_, ⟨x, hx, ?_⟩, ?_, ?_⟩
  · refine guarded_reaches (D := postgres) elapsed_act ?_ straddlingSchedule hσ
    intro σ t a b ha
    exact (not_asks_tick ha).elim
  · rw [hrow]
    decide
  · intro k i hi
    match k with
    | 0 =>
      obtain rfl := Option.some.inj hi
      exact ⟨c, hc, of_decide_eq_true hcaller⟩
    | 1 =>
      obtain rfl := Option.some.inj hi
      exact ⟨c', hc', of_decide_eq_true hcaller'⟩
    | _ + 2 => cases hi
  · rintro ⟨k, i, hi, hlists⟩
    match k with
    | 0 =>
      obtain rfl := Option.some.inj hi
      exact hneither (.inl hlists)
    | 1 =>
      obtain rfl := Option.some.inj hi
      exact hneither (.inr hlists)
    | _ + 2 => cases hi

end Samples
end PaymentLedger
