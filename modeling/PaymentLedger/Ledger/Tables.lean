import PaymentLedger.Services.Commits

namespace PaymentLedger

namespace Write

def entryRow : Write → Option JournalEntryRow
  | insertEntry row => some row
  | _ => none

def lineRow : Write → Option JournalLineRow
  | insertLine row => some row
  | _ => none

def historyRow : Write → Option StatusHistoryRow
  | insertHistory row => some row
  | _ => none

def deliveryRow : Write → Option WebhookDeliveryRow
  | insertDelivery row => some row
  | _ => none

def paymentRow : Write → Option PaymentRow
  | insertPayment row => some row
  | _ => none

def bumped : Write → Option Uuid
  | bumpAccount id => some id
  | _ => none

theorem mem_paymentRow {ws : List Write} {row : PaymentRow} :
    row ∈ ws.filterMap paymentRow ↔ .insertPayment row ∈ ws := by
  rw [List.mem_filterMap]
  constructor
  · rintro ⟨w, hw, heq⟩
    cases w with
    | insertPayment row' =>
      obtain rfl := Option.some.inj heq
      exact hw
    | _ => cases heq
  · intro h
    exact ⟨_, h, rfl⟩

end Write

section Tables

variable {st : Store} {ws : List Write}

/-- A list that only some writes append to. -/
theorem list_after {ρ : Type} (f : Store → List ρ) (g : Write → Option ρ)
    (hg : ∀ (w : Write) (st : Store), f (w.apply st) = f st ++ (g w).toList) :
    f (st.after ws) = f st ++ ws.filterMap g := by
  induction ws generalizing st with
  | nil => simp
  | cons w ws ih =>
    rw [Store.after_cons, ih, hg, List.filterMap_cons, List.append_assoc]
    cases g w <;> simp

/-- A table that only some writes insert into: rows with fresh keys are appended. -/
theorem table_after {κ ρ : Type} [DecidableEq κ] {key : ρ → κ} (f : Store → Table key) (g : Write → Option ρ)
    (hg : ∀ (w : Write) (st : Store), f (w.apply st) = (g w).elim (f st) (f st).insert)
    (h : (((f st).rows ++ ws.filterMap g).map key).Nodup) :
    (f (st.after ws)).rows = (f st).rows ++ ws.filterMap g := by
  induction ws generalizing st with
  | nil => simp
  | cons w ws ih =>
    rw [List.filterMap_cons] at h ⊢
    cases hw : g w with
    | none =>
      have hf : f (w.apply st) = f st := by rw [hg, hw, Option.elim_none]
      simp only [hw] at h
      rw [Store.after_cons, ih (by rw [hf]; exact h), hf]
    | some row =>
      simp only [hw] at h
      have hfresh : (f st).find (key row) = none := by
        rw [Table.find_none_iff]
        intro hmem
        rw [List.map_append, List.map_cons] at h
        exact (List.nodup_append.mp h).2.2 _ hmem _ List.mem_cons_self rfl
      have hrows : (f (w.apply st)).rows = (f st).rows ++ [row] := by
        rw [hg, hw, Option.elim_some]
        exact Table.rows_insert hfresh
      rw [Store.after_cons, ih (by rw [hrows]; simpa using h), hrows]
      simp

theorem lines_after : (st.after ws).journalLines = st.journalLines ++ ws.filterMap Write.lineRow := by
  apply list_after Store.journalLines
  intro w st
  cases w <;> simp [Write.apply, Write.onLines, Write.lineRow]

theorem history_after : (st.after ws).statusHistory = st.statusHistory ++ ws.filterMap Write.historyRow := by
  apply list_after Store.statusHistory
  intro w st
  cases w <;> simp [Write.apply, Write.onHistory, Write.historyRow]

theorem entries_after (h : ((st.journalEntries.rows ++ ws.filterMap Write.entryRow).map JournalEntryRow.id).Nodup) :
    (st.after ws).journalEntries.rows = st.journalEntries.rows ++ ws.filterMap Write.entryRow := by
  apply table_after Store.journalEntries _ _ h
  intro w st
  cases w <;> rfl

theorem deliveries_after
    (h : ((st.webhookDeliveries.rows ++ ws.filterMap Write.deliveryRow).map WebhookDeliveryRow.id).Nodup) :
    (st.after ws).webhookDeliveries.rows = st.webhookDeliveries.rows ++ ws.filterMap Write.deliveryRow := by
  apply table_after Store.webhookDeliveries _ _ h
  intro w st
  cases w <;> rfl

theorem account_version_after {id : Uuid} {a : Account} (h : st.accounts.find id = some a) :
    (st.after ws).accounts.find id =
      some { a with version := a.version + (ws.filterMap Write.bumped).count id } := by
  induction ws generalizing st a with
  | nil => simp [h]
  | cons w ws ih =>
    rw [Store.after_cons]
    cases w with
    | bumpAccount id' =>
      by_cases hid : id = id'
      · subst hid
        have hw : ((Write.bumpAccount id).apply st).accounts.find id =
            some { a with version := a.version + 1 } := by
          simp only [Write.apply, Write.onAccounts, Table.find_modify_self, h, Option.map_some]
        rw [ih hw]
        simp only [List.filterMap_cons, Write.bumped, List.count_cons_self, Nat.add_assoc, Nat.add_comm 1]
      · have hw : ((Write.bumpAccount id').apply st).accounts.find id = some a := by
          rw [← h]
          simp only [Write.apply, Write.onAccounts]
          exact Table.find_modify_of_ne _ _ _ hid
        rw [ih hw]
        simp [Write.bumped, List.count_cons_of_ne (Ne.symm hid)]
    | _ => exact ih h

end Tables

namespace Deed

def postings : Deed → List Posting
  | transition _ _ _ _ posting _ _ => posting.toList.map Prod.snd
  | post _ posting => [posting]
  | _ => []

def history (now : ℕ) : Deed → List StatusHistoryRow
  | initiate row _ _ _ => [⟨row.id, none, .initiated, now, none⟩]
  | transition row toStatus reason _ _ _ _ => [⟨row.id, some row.status, toStatus, now, reason⟩]
  | _ => []

def deliveries : Deed → List WebhookDeliveryRow
  | initiate _ _ ds _ => ds
  | transition _ _ _ _ _ _ ds => ds
  | _ => []

section Writes

variable {X : Type} (f : Write → Option X)

theorem filterMap_map_none {α : Type} {g : α → Write} (h : ∀ a, f (g a) = none) (l : List α) :
    (l.map g).filterMap f = [] := by
  rw [List.filterMap_eq_nil_iff]
  intro w hw
  obtain ⟨a, -, rfl⟩ := List.mem_map.mp hw
  exact h a

theorem filterMap_map_some {α : Type} {g : α → Write} {k : α → X} (h : ∀ a, f (g a) = some (k a)) (l : List α) :
    (l.map g).filterMap f = l.map k := by
  induction l with
  | nil => rfl
  | cons a l ih => rw [List.map_cons, List.filterMap_cons, h, ih, List.map_cons]

end Writes

/-- A projection of the writes on the journal, the history and the deliveries. -/
structure Projects {X : Type} (f : Write → Option X) : Prop where
  key : ∀ row, f (.insertKey row) = none
  completion : ∀ endpoint key code body, f (.completeKey endpoint key code body) = none
  payment : ∀ row, f (.insertPayment row) = none
  status : ∀ id s, f (.setStatus id s) = none
  fx : ∀ id rate n, f (.setFxDetails id rate n) = none
  reconcile : ∀ w : Write, w.ofReconciliation = true → f w = none

section Effects

variable {rt : Runtime} {st : Store} {now : ℕ} {d : Deed}

/-- What a projection finds among the writes of a deed. -/
theorem filterMap_writes {X : Type} {f : Write → Option X} (hf : Projects f) (h : d.Legal rt st now) :
    (d.writes now).filterMap f = (d.postings.flatMap fun p => p.writes.filterMap f) ++
      (((d.history now).map Write.insertHistory).filterMap f ++
        (d.deliveries.map Write.insertDelivery).filterMap f) := by
  cases d with
  | initiate row subs ds completion =>
    have hcompl : (completion.toList.map fun x =>
        Write.completeKey idempotencyEndpointInitiatePayment x.1 201 x.2).filterMap f = [] :=
      filterMap_map_none f (fun _ => hf.completion _ _ _ _) completion.toList
    simp only [writes, postings, history, deliveries, List.filterMap_cons, hf.payment, List.filterMap_append,
      hcompl, List.flatMap_nil, List.nil_append, List.append_nil, List.map_cons, List.map_nil, List.filterMap_nil]
    cases f (.insertHistory ⟨row.id, none, .initiated, now, none⟩) <;> rfl
  | transition row toStatus reason fx posting subs ds =>
    have hfx : (fxWrites row.id fx).filterMap f = [] := filterMap_map_none f (fun _ => hf.fx _ _ _) _
    simp only [writes, postings, history, deliveries, List.filterMap_append, List.filterMap_cons, hf.status, hfx,
      List.nil_append, List.filterMap_flatMap, List.flatMap_map, List.map_cons, List.map_nil,
      List.filterMap_nil]
    cases f (.insertHistory ⟨row.id, some row.status, toStatus, now, reason⟩) <;> rfl
  | post entry posting => simp [writes, postings, history, deliveries]
  | claim key =>
    simp only [writes, postings, history, deliveries, List.flatMap_nil, List.map_nil, List.filterMap_nil,
      List.append_nil]
    exact filterMap_map_none f hf.key key.toList
  | reconcile ws =>
    simp only [writes, postings, history, deliveries, List.flatMap_nil, List.map_nil, List.filterMap_nil,
      List.append_nil]
    rw [List.filterMap_eq_nil_iff]
    intro w hw
    exact hf.reconcile w (h w hw)

theorem entryRows (h : d.Legal rt st now) :
    (d.writes now).filterMap Write.entryRow = d.postings.map Posting.entry := by
  have hf : Projects Write.entryRow := by
    refine ⟨?_, ?_, ?_, ?_, ?_, ?_⟩ <;> intro w <;> cases w <;> simp [Write.entryRow, Write.ofReconciliation]
  have hp (p : Posting) : p.writes.filterMap Write.entryRow = [p.entry] := by
    rw [Posting.writes, List.filterMap_cons, List.filterMap_append,
      filterMap_map_none Write.entryRow (fun _ => rfl), filterMap_map_none Write.entryRow (fun _ => rfl)]
    rfl
  rw [filterMap_writes hf h, filterMap_map_none Write.entryRow (fun _ => rfl),
    filterMap_map_none Write.entryRow (fun _ => rfl), List.append_nil, List.append_nil]
  simp only [hp]
  exact List.map_eq_flatMap.symm

theorem lineRows (h : d.Legal rt st now) :
    (d.writes now).filterMap Write.lineRow = d.postings.flatMap Posting.lines := by
  have hf : Projects Write.lineRow := by
    refine ⟨?_, ?_, ?_, ?_, ?_, ?_⟩ <;> intro w <;> cases w <;> simp [Write.lineRow, Write.ofReconciliation]
  have hp (p : Posting) : p.writes.filterMap Write.lineRow = p.lines := by
    have hlines : (p.lines.map Write.insertLine).filterMap Write.lineRow = p.lines.map id :=
      filterMap_map_some Write.lineRow (fun _ => rfl) p.lines
    rw [Posting.writes, List.filterMap_cons, List.filterMap_append, hlines,
      filterMap_map_none Write.lineRow (fun _ => rfl), List.map_id, List.append_nil]
    rfl
  rw [filterMap_writes hf h, filterMap_map_none Write.lineRow (fun _ => rfl),
    filterMap_map_none Write.lineRow (fun _ => rfl), List.append_nil, List.append_nil]
  simp only [hp]

theorem bumps (h : d.Legal rt st now) :
    (d.writes now).filterMap Write.bumped = d.postings.flatMap Posting.accounts := by
  have hf : Projects Write.bumped := by
    refine ⟨?_, ?_, ?_, ?_, ?_, ?_⟩ <;> intro w <;> cases w <;> simp [Write.bumped, Write.ofReconciliation]
  have hp (p : Posting) : p.writes.filterMap Write.bumped = p.accounts := by
    have hbumps : (p.accounts.map Write.bumpAccount).filterMap Write.bumped = p.accounts.map id :=
      filterMap_map_some Write.bumped (fun _ => rfl) p.accounts
    rw [Posting.writes, List.filterMap_cons, List.filterMap_append, hbumps,
      filterMap_map_none Write.bumped (fun _ => rfl), List.map_id, List.nil_append]
    rfl
  rw [filterMap_writes hf h, filterMap_map_none Write.bumped (fun _ => rfl),
    filterMap_map_none Write.bumped (fun _ => rfl), List.append_nil, List.append_nil]
  simp only [hp]

theorem historyRows (h : d.Legal rt st now) : (d.writes now).filterMap Write.historyRow = d.history now := by
  have hf : Projects Write.historyRow := by
    refine ⟨?_, ?_, ?_, ?_, ?_, ?_⟩ <;> intro w <;> cases w <;> simp [Write.historyRow, Write.ofReconciliation]
  have hp (p : Posting) : p.writes.filterMap Write.historyRow = [] := by
    rw [Posting.writes, List.filterMap_cons, List.filterMap_append,
      filterMap_map_none Write.historyRow (fun _ => rfl), filterMap_map_none Write.historyRow (fun _ => rfl)]
    rfl
  have hhist : ((d.history now).map Write.insertHistory).filterMap Write.historyRow = (d.history now).map id :=
    filterMap_map_some Write.historyRow (fun _ => rfl) _
  rw [filterMap_writes hf h, hhist, filterMap_map_none Write.historyRow (fun _ => rfl), List.map_id,
    List.append_nil]
  simp [hp]

theorem deliveryRows (h : d.Legal rt st now) : (d.writes now).filterMap Write.deliveryRow = d.deliveries := by
  have hf : Projects Write.deliveryRow := by
    refine ⟨?_, ?_, ?_, ?_, ?_, ?_⟩ <;> intro w <;> cases w <;> simp [Write.deliveryRow, Write.ofReconciliation]
  have hp (p : Posting) : p.writes.filterMap Write.deliveryRow = [] := by
    rw [Posting.writes, List.filterMap_cons, List.filterMap_append,
      filterMap_map_none Write.deliveryRow (fun _ => rfl), filterMap_map_none Write.deliveryRow (fun _ => rfl)]
    rfl
  have hdel : (d.deliveries.map Write.insertDelivery).filterMap Write.deliveryRow = d.deliveries.map id :=
    filterMap_map_some Write.deliveryRow (fun _ => rfl) _
  rw [filterMap_writes hf h, hdel, filterMap_map_none Write.deliveryRow (fun _ => rfl), List.map_id]
  simp [hp]

/-- A deed makes at most one posting, on a fresh id. -/
theorem postings_stored (h : d.Legal rt st now) : d.postings = [] ∨ ∃ entry p, d.postings = [p] ∧
    validateJournalEntry entry.lines = .ok () ∧ p.Stores rt st entry := by
  cases d with
  | transition row toStatus reason fx posting subs ds =>
    cases posting with
    | none => exact .inl rfl
    | some x => exact .inr ⟨x.1, x.2, rfl, h.posted x rfl⟩
  | post entry posting => exact .inr ⟨entry, posting, rfl, h⟩
  | _ => exact .inl rfl

theorem deliveries_fresh (h : d.Legal rt st now) :
    (d.deliveries.map WebhookDeliveryRow.id).Nodup ∧ ∀ x ∈ d.deliveries, st.hasDelivery x.id = false := by
  cases d with
  | initiate row subs ds completion =>
    obtain ⟨⟨req, hi⟩, -⟩ := h
    exact ⟨hi.notices.nodup, hi.notices.fresh⟩
  | transition row toStatus reason fx posting subs ds => exact ⟨h.notices.nodup, h.notices.fresh⟩
  | _ => simp [deliveries]

theorem lines_effect (h : d.Legal rt st now) :
    (st.after (d.writes now)).journalLines = st.journalLines ++ d.postings.flatMap Posting.lines := by
  rw [lines_after, lineRows h]

theorem history_effect (h : d.Legal rt st now) :
    (st.after (d.writes now)).statusHistory = st.statusHistory ++ d.history now := by
  rw [history_after, historyRows h]

theorem entries_effect (h : d.Legal rt st now) :
    (st.after (d.writes now)).journalEntries.rows = st.journalEntries.rows ++ d.postings.map Posting.entry := by
  rw [entries_after, entryRows h]
  rw [entryRows h, List.map_append, List.nodup_append]
  rcases postings_stored h with hp | ⟨entry, p, hp, -, hs⟩
  · simp [hp, st.journalEntries.nodup]
  · refine ⟨st.journalEntries.nodup, by simp [hp], ?_⟩
    intro id hid id' hid'
    have hp' : id' = p.entry.id := by simpa [hp] using hid'
    intro heq
    have hnone : st.journalEntries.find p.entry.id = none := by simpa [Store.hasEntry] using hs.fresh
    rw [Table.find_none_iff, ← hp', ← heq] at hnone
    exact hnone hid

theorem deliveries_effect (h : d.Legal rt st now) :
    (st.after (d.writes now)).webhookDeliveries.rows = st.webhookDeliveries.rows ++ d.deliveries := by
  rw [deliveries_after, deliveryRows h]
  obtain ⟨hnodup, hfresh⟩ := deliveries_fresh h
  rw [deliveryRows h, List.map_append, List.nodup_append]
  refine ⟨st.webhookDeliveries.nodup, hnodup, ?_⟩
  intro id hid id' hid' heq
  obtain ⟨x, hx, rfl⟩ := List.mem_map.mp hid'
  have hnone : st.webhookDeliveries.find x.id = none := by simpa [Store.hasDelivery] using hfresh x hx
  rw [Table.find_none_iff, ← heq] at hnone
  exact hnone hid

theorem accounts_effect (h : d.Legal rt st now) {id : Uuid} {a : Account} (ha : st.accounts.find id = some a) :
    (st.after (d.writes now)).accounts.find id =
      some { a with version := a.version + (d.postings.flatMap Posting.accounts).count id } := by
  rw [account_version_after ha, bumps h]

/-- What becomes of a payment. -/
def payment (d : Deed) (id : Uuid) (old : Option PaymentRow) : Option PaymentRow :=
  match d with
  | initiate row _ _ _ => if row.id = id then some row else old
  | transition row toStatus _ fx _ _ _ => if row.id = id then some (row.moved toStatus fx) else old
  | post _ _ => old
  | claim _ => old
  | reconcile _ => old

theorem foldl_onRow {id : Uuid} {ws : List Write} (h : ∀ w ∈ ws, ∀ row, w.onRow id row = row) (row : PaymentRow) :
    ws.foldl (fun row w => w.onRow id row) row = row := by
  induction ws with
  | nil => rfl
  | cons w ws ih =>
    rw [List.foldl_cons, h w List.mem_cons_self]
    apply ih
    intro w' hw'
    exact h w' (List.mem_cons_of_mem w hw')

theorem payment_effect (h : d.Legal rt st now) (id : Uuid) :
    (st.after (d.writes now)).payments.find id = d.payment id (st.payments.find id) := by
  have frame {ws : List Write} (hws : ∀ w ∈ ws, w.locked ≠ some (.payment id)) (st : Store) :
      (st.after ws).payments.find id = st.payments.find id := by
    apply st.after_eq fun st => st.payments.find id
    intro w hw st
    exact payment_frame (hws w hw)
  cases d with
  | initiate row subs ds completion =>
    obtain ⟨⟨req, hi⟩, -⟩ := h
    rw [writes, Store.after_cons, Store.after_cons, frame]
    · exact Table.find_insert hi.fresh id
    · intro w hw
      rcases List.mem_append.mp hw with hw | hw
      · obtain ⟨x, -, rfl⟩ := List.mem_map.mp hw
        simp [Write.locked]
      · obtain ⟨x, -, rfl⟩ := List.mem_map.mp hw
        simp [Write.locked]
  | transition row toStatus reason fx posting subs ds =>
    by_cases hid : row.id = id
    · subst hid
      have hother : ∀ w ∈ posting.toList.flatMap fun x => x.2.writes, ∀ r, w.onRow row.id r = r := by
        intro w hw r
        obtain ⟨x, -, hx⟩ := List.mem_flatMap.mp hw
        simp only [Posting.writes, List.mem_cons, List.mem_append, List.mem_map] at hx
        rcases hx with rfl | ⟨l, -, rfl⟩ | ⟨a, -, rfl⟩ <;> rfl
      have hdel : ∀ w ∈ ds.map Write.insertDelivery, ∀ r, w.onRow row.id r = r := by
        intro w hw r
        obtain ⟨x, -, rfl⟩ := List.mem_map.mp hw
        rfl
      rw [payment_after _ h.found, payment, if_pos rfl]
      simp only [writes, List.foldl_append, List.foldl_cons, foldl_onRow hother, foldl_onRow hdel]
      cases fx with
      | none => simp [fxWrites, Write.onRow, PaymentRow.moved]
      | some x => simp [fxWrites, Write.onRow, PaymentRow.moved]
    · rw [payment, if_neg hid, frame]
      intro w hw
      simp only [writes, List.mem_append, List.mem_flatMap, List.mem_cons, List.mem_map] at hw
      rcases hw with hw | ⟨x, -, hw⟩ | rfl | rfl | ⟨x, -, rfl⟩
      · obtain ⟨x, -, rfl⟩ := List.mem_map.mp hw
        simp [Write.locked, hid]
      · simp only [Posting.writes, List.mem_cons, List.mem_append, List.mem_map] at hw
        rcases hw with rfl | ⟨l, -, rfl⟩ | ⟨a, -, rfl⟩ <;> simp [Write.locked]
      · simp [Write.locked, hid]
      · simp [Write.locked]
      · simp [Write.locked]
  | post entry posting =>
    rw [payment, frame]
    intro w hw
    simp only [writes, Posting.writes, List.mem_cons, List.mem_append, List.mem_map] at hw
    rcases hw with rfl | ⟨l, -, rfl⟩ | ⟨a, -, rfl⟩ <;> simp [Write.locked]
  | claim key =>
    rw [payment, frame]
    intro w hw
    obtain ⟨x, -, rfl⟩ := List.mem_map.mp hw
    simp [Write.locked]
  | reconcile ws =>
    rw [payment, frame]
    intro w hw
    have hrec := h w hw
    cases w <;> simp [Write.locked, Write.ofReconciliation] at hrec ⊢

end Effects
end Deed
end PaymentLedger
