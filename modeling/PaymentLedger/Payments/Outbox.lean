import PaymentLedger.Ledger.Tables

namespace PaymentLedger

/-- The history rows that a transaction creates. -/
def historyCreated (tx : List (Event postgres)) : List StatusHistoryRow :=
  (writesOf (D := postgres) tx).filterMap Write.historyRow

def StatusHistoryRow.event (h : StatusHistoryRow) : String := "payment." ++ h.toStatus.value

/-- What a commit has to report: each of its history rows, to each subscription that it has read as
active and that wants the event. -/
def Commit.notices {ι : Type} (c : Commit postgres ι) : List (StatusHistoryRow × WebhookSubscription) :=
  (historyCreated c.tx).flatMap fun h => ((subscriptionsRead c.tx).filter (·.wants h.event)).map fun s => (h, s)

/-- The delivery of one report, with the payment as the commit has left it. -/
structure Reports {ι : Type} (c : Commit postgres ι) (h : StatusHistoryRow) (s : WebhookSubscription)
    (d : WebhookDeliveryRow) : Prop where
  subscription : d.subscriptionId = s.id
  payment : d.paymentId = some h.paymentId
  event : d.eventType = h.event
  payload : ∃ row, c.after.payments.find h.paymentId = some row ∧ row.status = h.toStatus ∧
    d.payload = (paymentResponseDict row.toDomain).json

/-- The history and the outbox of a store are those of its log. -/
structure Published {ι : Type} (log : List (Commit postgres ι)) (st : Store) : Prop where
  history : st.statusHistory = log.flatMap fun c => historyCreated c.tx
  deliveries : List.Forall₂ (fun x d => Reports x.1 x.2.1 x.2.2 d)
    (log.flatMap fun c => c.notices.map fun n => (c, n)) st.webhookDeliveries.rows

section Step

variable {rt : Runtime} {st : Store} {now : ℕ} {d : Deed}

theorem event_stored (h : StatusHistoryRow) : varchar 50 h.event = .ok h.event := by
  have hall (t : PaymentStatus) : varchar 50 ("payment." ++ t.value) = .ok ("payment." ++ t.value) := by
    cases t <;> decide
  exact hall h.toStatus

theorem Deed.historyCreated_eq {ι : Type} {c : Commit postgres ι} (h : d.Legal rt st now)
    (hw : writesOf c.tx = d.writes now) : historyCreated c.tx = d.history now := by
  rw [historyCreated, hw, Deed.historyRows h]

/-- The deliveries of one event are the reports of its history row. -/
theorem Notices.reports {ι : Type} {c : Commit postgres ι} {h : StatusHistoryRow} {row : PaymentRow}
    {subs : List WebhookSubscription} {ds : List WebhookDeliveryRow}
    (hn : Notices st now subs h.paymentId h.event (paymentResponseDict row.toDomain) ds)
    (hrow : c.after.payments.find h.paymentId = some row) (hstatus : row.status = h.toStatus) :
    List.Forall₂ (fun x d => Reports x.1 x.2.1 x.2.2 d)
      ((subs.filter (·.wants h.event)).map fun s => (c, h, s)) ds := by
  rw [List.forall₂_map_left_iff]
  apply hn.rows.imp
  intro s d hd
  obtain ⟨event, hevent, hd⟩ := WebhookDeliveryRow.new_ok.mp hd
  rw [event_stored] at hevent
  rw [hd]
  exact ⟨rfl, rfl, (Except.ok.inj hevent).symm, row, hrow, hstatus, rfl⟩

/-- What a deed reports is what it delivers. -/
theorem Deed.reports {ι : Type} {c : Commit postgres ι} (h : d.Legal rt c.before c.began)
    (hw : writesOf c.tx = d.writes c.began) (hs : subscriptionsRead c.tx = d.subscriptions) :
    List.Forall₂ (fun x d => Reports x.1 x.2.1 x.2.2 d) (c.notices.map fun n => (c, n)) d.deliveries := by
  have hafter : c.after = c.before.after (d.writes c.began) := by
    rw [← hw]
    rfl
  have hpayment := Deed.payment_effect h
  rw [Commit.notices, Deed.historyCreated_eq h hw, hs]
  cases d with
  | initiate row subs ds completion =>
    obtain ⟨⟨req, hi⟩, -⟩ := id h
    obtain ⟨a, -, cur, -, ref, -, hnew⟩ := PaymentRow.new_ok.mp hi.stored
    have hfind : c.after.payments.find row.id = some row := by
      rw [hafter, hpayment, Deed.payment, if_pos rfl]
    have hreports := Notices.reports (h := ⟨row.id, none, .initiated, c.began, none⟩) hi.notices hfind
      (by rw [hnew])
    simpa [Deed.history, Deed.subscriptions, Deed.deliveries] using hreports
  | transition row toStatus reason fx posting subs ds =>
    have hfind : c.after.payments.find row.id = some (row.moved toStatus fx) := by
      rw [hafter, hpayment, Deed.payment, if_pos rfl]
    have hreports := Notices.reports (h := ⟨row.id, some row.status, toStatus, c.began, reason⟩)
      (Transition.notices h) hfind (moved_status row toStatus fx)
    simpa [Deed.history, Deed.subscriptions, Deed.deliveries] using hreports
  | _ => exact .nil

end Step

section Run

variable {ι : Type} {rt : Runtime} {step : Feed → Feed → Prop} {st₀ : Store} {calls : ι → Call}
  {σ : Config postgres ι Value}

theorem Published.commit {l : List (Commit postgres ι)} {c : Commit postgres ι} {v : Option Value} {d : Deed}
    (h : Published l c.before) (hd : c.Does rt calls v d) :
    Published (l ++ [c]) (c.before.after (d.writes c.began)) := by
  have hlegal := hd.deed.legal
  refine ⟨?_, ?_⟩
  · rw [Deed.history_effect hlegal, h.history, List.flatMap_append, List.flatMap_singleton,
      Deed.historyCreated_eq hlegal hd.writes]
  · rw [Deed.deliveries_effect hlegal, List.flatMap_append, List.flatMap_singleton]
    exact List.rel_append h.deliveries (Deed.reports hlegal hd.writes hd.subscriptions)

/-- The calls that create a payment or move one. -/
def Call.touchesPayment : Call → Bool
  | .postJournalEntry _ _ => false
  | .runReconciliation _ _ _ _ => false
  | _ => true

variable [DecidableEq ι]

theorem WellFormed.published (h : WellFormed (feedEnv step) st₀ (fun i => (calls i).prog rt) σ) (h₀ : Fresh st₀) :
    Published σ.world.log σ.world.store := by
  apply h.invariant Published
  · refine ⟨by simp [h₀.history], ?_⟩
    rw [h₀.deliveries]
    exact .nil
  · intro l st f hp
    exact ⟨hp.history, hp.deliveries⟩
  · intro l c v d hd hp
    exact hp.commit hd

end Run
end PaymentLedger
