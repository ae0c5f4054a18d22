import PaymentLedger.Ledger.Tables

namespace PaymentLedger

/-- The history rows of a payment, in commit order. -/
def Store.historyOf (st : Store) (id : Uuid) : List StatusHistoryRow :=
  st.statusHistory.filter fun h => h.paymentId = id

/-- A history that starts with the initiation and moves along allowed edges, up to the given status. -/
inductive Chronicle : List StatusHistoryRow → PaymentStatus → Prop
  | initiated {h : StatusHistoryRow} (hf : h.fromStatus = none) (ht : h.toStatus = .initiated) :
      Chronicle [h] .initiated
  | moved {hs : List StatusHistoryRow} {s : PaymentStatus} {h : StatusHistoryRow} (hc : Chronicle hs s)
      (hf : h.fromStatus = some s) (ha : h.toStatus ∈ allowedTransitions s) :
      Chronicle (hs ++ [h]) h.toStatus

/-- A measure that every allowed edge increases. -/
def PaymentStatus.rank : PaymentStatus → ℕ
  | .initiated => 0
  | .authorised => 1
  | .settled => 2
  | .reversed => 3
  | .failed => 3

theorem rank_lt {s t : PaymentStatus} (h : t ∈ allowedTransitions s) : s.rank < t.rank := by
  cases s <;> cases t <;> simp [allowedTransitions, PaymentStatus.rank] at h ⊢

theorem Chronicle.rank_le {hs : List StatusHistoryRow} {s : PaymentStatus} (hc : Chronicle hs s) :
    ∀ h ∈ hs, h.toStatus.rank ≤ s.rank := by
  induction hc with
  | initiated hf ht =>
    intro h hmem
    obtain rfl := List.mem_singleton.mp hmem
    rw [ht]
  | moved _ _ ha ih =>
    have hlt := rank_lt ha
    intro h hmem
    rcases List.mem_append.mp hmem with hmem | hmem
    · have hle := ih h hmem
      omega
    · obtain rfl := List.mem_singleton.mp hmem
      exact le_rfl

theorem Chronicle.reached {hs : List StatusHistoryRow} {s : PaymentStatus} (hc : Chronicle hs s) :
    ∃ h ∈ hs, h.toStatus = s := by
  cases hc with
  | @initiated h hf ht => exact ⟨h, List.mem_singleton_self h, ht⟩
  | @moved hs s h hc hf ha => exact ⟨h, List.mem_append_right _ (List.mem_singleton_self h), rfl⟩

/-- The edges have no cycle, so no status occurs twice. -/
theorem Chronicle.nodup {hs : List StatusHistoryRow} {s : PaymentStatus} (hc : Chronicle hs s) :
    (hs.map StatusHistoryRow.toStatus).Nodup := by
  induction hc with
  | initiated hf ht => simp
  | moved hc _ ha ih =>
    rw [List.map_append, List.nodup_append]
    refine ⟨ih, by simp, ?_⟩
    intro t ht u hu heq
    obtain ⟨h, hmem, rfl⟩ := List.mem_map.mp ht
    have hle := hc.rank_le h hmem
    have hlt := rank_lt ha
    have hu' := List.mem_singleton.mp hu
    simp only [hu'] at heq
    rw [heq] at hle
    omega

/-- The rate and the converted amount of a payment. -/
def PaymentRow.fx (row : PaymentRow) : Option Uuid × Option (Numeric 2) := (row.fxRateId, row.creditorAmount)

/-- A payment whose history leads to its status, with one row for each version, and whose FX fields
are set together, after the settlement. -/
structure Chronicled (st : Store) (row : PaymentRow) : Prop where
  chain : Chronicle (st.historyOf row.id) row.status
  version : (st.historyOf row.id).length = row.version + 1
  paired : row.fxRateId.isSome = row.creditorAmount.isSome
  unset : row.status.rank < PaymentStatus.settled.rank → row.fx = (none, none)

structure Lifecycle (st : Store) : Prop where
  history : ∀ h ∈ st.statusHistory, st.hasPayment h.paymentId = true
  payments : ∀ id row, st.payments.find id = some row → Chronicled st row

section Step

variable {rt : Runtime} {st : Store} {now : ℕ} {d : Deed}

theorem historyOf_effect (h : d.Legal rt st now) (id : Uuid) : (st.after (d.writes now)).historyOf id =
    st.historyOf id ++ (d.history now).filter fun h => h.paymentId = id := by
  rw [Store.historyOf, Deed.history_effect h, List.filter_append]
  rfl

theorem Lifecycle.untouched (hl : Lifecycle st) {id : Uuid} (hid : st.payments.find id = none) :
    st.historyOf id = [] := by
  rw [Store.historyOf, List.filter_eq_nil_iff]
  intro h hmem heq
  have hsome := hl.history h hmem
  rw [of_decide_eq_true heq, Store.hasPayment, hid] at hsome
  cases hsome

/-- A payment that the deed does not touch. -/
theorem Chronicled.frame {row : PaymentRow} (hc : Chronicled st row) (h : d.Legal rt st now)
    (hd : ∀ x ∈ d.history now, x.paymentId ≠ row.id) : Chronicled (st.after (d.writes now)) row := by
  have hnone : ((d.history now).filter fun h => h.paymentId = row.id) = [] := by
    rw [List.filter_eq_nil_iff]
    intro x hx
    simpa using hd x hx
  have hsame := historyOf_effect h row.id
  rw [hnone, List.append_nil] at hsame
  refine ⟨?_, ?_, hc.paired, hc.unset⟩
  · rw [hsame]
    exact hc.chain
  · rw [hsame]
    exact hc.version

theorem Lifecycle.initiation {row : PaymentRow} {subs : List WebhookSubscription} {ds : List WebhookDeliveryRow}
    {completion : Option (String × PyDict)} (hl : Lifecycle st)
    (h : (Deed.initiate row subs ds completion).Legal rt st now) :
    Chronicled (st.after ((Deed.initiate row subs ds completion).writes now)) row := by
  obtain ⟨⟨req, hi⟩, -⟩ := id h
  obtain ⟨a, -, cur, -, ref, -, hrow⟩ := PaymentRow.new_ok.mp hi.stored
  have hhist := historyOf_effect h row.id
  rw [hl.untouched hi.fresh] at hhist
  simp only [Deed.history, List.nil_append, decide_true, List.filter_cons_of_pos, List.filter_nil] at hhist
  have hstatus : row.status = .initiated := by rw [hrow]
  have hversion : row.version = 0 := by rw [hrow]
  have hrate : row.fxRateId = none := by rw [hrow]
  have hamount : row.creditorAmount = none := by rw [hrow]
  refine ⟨?_, ?_, ?_, ?_⟩
  · rw [hhist, hstatus]
    exact .initiated rfl rfl
  · rw [hhist, hversion]
    rfl
  · rw [hrate, hamount]
    rfl
  · intro _
    rw [PaymentRow.fx, hrate, hamount]

/-- The FX fields change in the step to settled only, from unset to set. -/
theorem Transition.fx {row : PaymentRow} {toStatus : PaymentStatus} {fx : Option (Uuid × Numeric 2)}
    {posting : Option (JournalEntry × Posting)} {subs : List WebhookSubscription} {ds : List WebhookDeliveryRow}
    (h : Transition rt st now row toStatus fx posting subs ds) :
    (row.moved toStatus fx).fx = row.fx ∨ (row.status = .authorised ∧ toStatus = .settled) := by
  cases fx with
  | none => exact .inl rfl
  | some x =>
    right
    have hallowed := h.allowed
    have hbooking := h.booking
    generalize posting.map Prod.fst = e at hbooking
    cases hbooking
    refine ⟨?_, rfl⟩
    cases hs : row.status <;> simp [allowedTransitions, hs] at hallowed ⊢

theorem Chronicled.transition {row : PaymentRow} {toStatus : PaymentStatus} {reason : Option String}
    {fx : Option (Uuid × Numeric 2)} {posting : Option (JournalEntry × Posting)}
    {subs : List WebhookSubscription} {ds : List WebhookDeliveryRow} (hc : Chronicled st row)
    (h : Transition rt st now row toStatus fx posting subs ds) :
    Chronicled (st.after ((Deed.transition row toStatus reason fx posting subs ds).writes now))
      (row.moved toStatus fx) := by
  have hlegal : (Deed.transition row toStatus reason fx posting subs ds).Legal rt st now := h
  have hhist := historyOf_effect hlegal row.id
  simp only [Deed.history, decide_true, List.filter_cons_of_pos, List.filter_nil] at hhist
  refine ⟨?_, ?_, ?_, ?_⟩
  · rw [moved_id, moved_status, hhist]
    exact .moved hc.chain rfl h.allowed
  · rw [moved_id, moved_version, hhist, List.length_append, hc.version, List.length_singleton]
  · cases fx with
    | none => exact hc.paired
    | some x => rfl
  · intro hrank
    rw [moved_status] at hrank
    rcases h.fx with hsame | ⟨-, rfl⟩
    · rw [hsame]
      apply hc.unset
      exact (rank_lt h.allowed).trans hrank
    · omega

theorem Lifecycle.step (hl : Lifecycle st) (h : d.Legal rt st now) : Lifecycle (st.after (d.writes now)) := by
  have hpayment := Deed.payment_effect h
  refine ⟨?_, ?_⟩
  · intro x hx
    rw [Deed.history_effect h] at hx
    rcases List.mem_append.mp hx with hx | hx
    · exact (hasPayment_after _).mpr (.inl (hl.history x hx))
    · cases d with
      | initiate row subs ds completion =>
        have hid : x.paymentId = row.id := by rw [List.mem_singleton.mp hx]
        rw [hid, Store.hasPayment, hpayment, Deed.payment, if_pos rfl]
        rfl
      | transition row toStatus reason fx posting subs ds =>
        have hid : x.paymentId = row.id := by rw [List.mem_singleton.mp hx]
        rw [hid, Store.hasPayment, hpayment, Deed.payment, if_pos rfl]
        rfl
      | _ => simp [Deed.history] at hx
  · intro id row hrow
    rw [hpayment] at hrow
    cases d with
    | initiate new subs ds completion =>
      by_cases hid : new.id = id
      · rw [Deed.payment, if_pos hid] at hrow
        obtain rfl := Option.some.inj hrow
        exact Lifecycle.initiation hl h
      · rw [Deed.payment, if_neg hid] at hrow
        have hrid : row.id = id := Table.find_key hrow
        exact (hl.payments id row hrow).frame h (by simp [Deed.history, hrid, hid])
    | transition moved toStatus reason fx posting subs ds =>
      by_cases hid : moved.id = id
      · rw [Deed.payment, if_pos hid] at hrow
        obtain rfl := Option.some.inj hrow
        exact (hl.payments _ moved h.found).transition h
      · rw [Deed.payment, if_neg hid] at hrow
        have hrid : row.id = id := Table.find_key hrow
        exact (hl.payments id row hrow).frame h (by simp [Deed.history, hrid, hid])
    | post entry p => exact (hl.payments id row hrow).frame h (by simp [Deed.history])
    | claim key => exact (hl.payments id row hrow).frame h (by simp [Deed.history])
    | reconcile ws => exact (hl.payments id row hrow).frame h (by simp [Deed.history])

theorem Fresh.lifecycle (h : Fresh st) : Lifecycle st where
  history := by simp [h.history]
  payments := by
    intro id row hrow
    have hmem := Table.mem_of_find hrow
    rw [h.payments] at hmem
    simp at hmem

end Step

section Run

variable {ι : Type} [DecidableEq ι] {rt : Runtime} {step : Feed → Feed → Prop} {st₀ : Store}
  {calls : ι → Call} {σ : Config postgres ι Value}

theorem WellFormed.lifecycle (h : WellFormed (feedEnv step) st₀ (fun i => (calls i).prog rt) σ) (h₀ : Fresh st₀)
    {log : List (Commit postgres ι)} {st : Store} (hlog : log <+: σ.world.log)
    (hst : History (feedEnv step) st₀ log st) : Lifecycle st := by
  apply h.invariant_past (fun _ st => Lifecycle st) h₀.lifecycle _ _ hlog hst
  · intro l st f hl
    refine ⟨hl.history, ?_⟩
    intro id row hrow
    obtain ⟨h₁, h₂, h₃, h₄⟩ := hl.payments id row hrow
    exact ⟨h₁, h₂, h₃, h₄⟩
  · intro l c v d hd hl
    exact hl.step hd.deed.legal

/-- What one commit may change in the FX fields of a payment: set them, in its step to settled. -/
def FxStep (before after : Store) (id : Uuid) : Prop :=
  ∀ row', after.payments.find id = some row' →
    (before.payments.find id = none ∧ row'.fx = (none, none)) ∨
      ∃ row, before.payments.find id = some row ∧
        (row'.fx = row.fx ∨ (row.fx = (none, none) ∧ row.status = .authorised ∧ row'.status = .settled))

theorem Lifecycle.fxStep {st : Store} (hl : Lifecycle st) {now : ℕ} {d : Deed} (h : d.Legal rt st now) (id : Uuid) :
    FxStep st (st.after (d.writes now)) id := by
  intro row' hrow'
  rw [Deed.payment_effect h] at hrow'
  have same {row : PaymentRow} (hrow : st.payments.find id = some row) :
      ∃ row₁, st.payments.find id = some row₁ ∧
        (row.fx = row₁.fx ∨ (row₁.fx = (none, none) ∧ row₁.status = .authorised ∧ row.status = .settled)) :=
    ⟨row, hrow, .inl rfl⟩
  cases d with
  | initiate row subs ds completion =>
    by_cases hid : row.id = id
    · rw [Deed.payment, if_pos hid] at hrow'
      obtain rfl := Option.some.inj hrow'
      obtain ⟨⟨req, hi⟩, -⟩ := h
      obtain ⟨a, -, cur, -, ref, -, hnew⟩ := PaymentRow.new_ok.mp hi.stored
      refine .inl ⟨by rw [← hid]; exact hi.fresh, ?_⟩
      rw [hnew]
      rfl
    · rw [Deed.payment, if_neg hid] at hrow'
      exact .inr (same hrow')
  | transition row toStatus reason fx posting subs ds =>
    by_cases hid : row.id = id
    · rw [Deed.payment, if_pos hid] at hrow'
      obtain rfl := Option.some.inj hrow'
      have hfound := h.found
      rw [hid] at hfound
      refine .inr ⟨row, hfound, ?_⟩
      rcases h.fx with hsame | ⟨hfrom, rfl⟩
      · exact .inl hsame
      · refine .inr ⟨(hl.payments id row hfound).unset ?_, hfrom, moved_status row .settled fx⟩
        rw [hfrom]
        decide
    · rw [Deed.payment, if_neg hid] at hrow'
      exact .inr (same hrow')
  | post entry p => exact .inr (same hrow')
  | claim key => exact .inr (same hrow')
  | reconcile ws => exact .inr (same hrow')

/-- The life of every payment: its history is a chain of allowed edges that starts with the initiation
and leads to its status, it has one row for each version, no status twice, and the FX fields are set
together, in the step to settled, for ever. -/
theorem payment_lifecycle (h₀ : Fresh st₀) (h : Reachable rt step st₀ calls σ) :
    (∀ id row, σ.world.store.payments.find id = some row →
      Chronicle (σ.world.store.historyOf id) row.status ∧
      (σ.world.store.historyOf id).length = row.version + 1 ∧
      ((σ.world.store.historyOf id).map StatusHistoryRow.toStatus).Nodup ∧
      row.fxRateId.isSome = row.creditorAmount.isSome) ∧
    (∀ x ∈ σ.world.store.statusHistory, σ.world.store.hasPayment x.paymentId = true) ∧
    ∀ c ∈ σ.world.log, ∀ id, FxStep c.before c.after id := by
  obtain ⟨clock, hr⟩ := h
  have hwf := reaches_wellFormed hr
  have hlife := hwf.lifecycle h₀ (List.prefix_refl _) hwf.history
  refine ⟨?_, hlife.history, ?_⟩
  · intro id row hrow
    obtain rfl : row.id = id := Table.find_key hrow
    have hc := hlife.payments _ row hrow
    exact ⟨hc.chain, hc.version, hc.chain.nodup, hc.paired⟩
  · intro c hc id
    obtain ⟨l, l', hl⟩ := List.append_of_mem hc
    obtain ⟨v, d, hd⟩ := hwf.does hc
    have hbefore : Lifecycle c.before := by
      have hpast : l <+: σ.world.log := by
        rw [hl]
        exact List.prefix_append _ _
      exact hwf.lifecycle h₀ hpast (hwf.committed l c l' hl).1
    have hafter : c.after = c.before.after (d.writes c.began) := by
      rw [← hd.writes]
      rfl
    rw [hafter]
    exact hbefore.fxStep hd.deed.legal id

theorem payment_lifecycle_settled : ∃ row, sampleEnd.world.store.payments.find 10 = some row ∧ row.version = 2 ∧
    Chronicle (sampleEnd.world.store.historyOf 10) row.status ∧
    (sampleEnd.world.store.historyOf 10).length = 3 := by
  obtain ⟨row, hrow⟩ := Option.isSome_iff_exists.mp
    (by decide +kernel : (sampleEnd.world.store.payments.find 10).isSome = true)
  have hversion : (sampleEnd.world.store.payments.find 10).map PaymentRow.version = some 2 := by decide +kernel
  rw [hrow] at hversion
  obtain ⟨hlife, -⟩ := payment_lifecycle sampleStore_fresh (sampleEnd_reachable fun _ _ => False)
  obtain ⟨hchain, hlength, -⟩ := hlife 10 row hrow
  refine ⟨row, hrow, Option.some.inj hversion, hchain, ?_⟩
  rw [hlength, Option.some.inj hversion]

end Run
end PaymentLedger
