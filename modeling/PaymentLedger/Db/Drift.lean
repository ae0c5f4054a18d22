import PaymentLedger.Db.Effects

namespace PaymentLedger

/-- The store after these writes. -/
def Store.after (st : Store) (ws : List Write) : Store := ws.foldl (fun st w => w.apply st) st

theorem view_eq (tx : List (Event postgres)) (st : Store) :
    view tx st = st.after (writesOf tx) := rfl

namespace Store

variable (st : Store) (ws ws' : List Write) (w : Write)

@[simp] theorem after_nil : st.after [] = st := rfl

@[simp] theorem after_cons : st.after (w :: ws) = (w.apply st).after ws := rfl

theorem after_append : st.after (ws ++ ws') = (st.after ws).after ws' := List.foldl_append

/-- What no write of the list changes. -/
theorem after_eq {X : Type} {ws : List Write} (f : Store → X)
    (h : ∀ w ∈ ws, ∀ st : Store, f (w.apply st) = f st) : f (st.after ws) = f st := by
  induction ws generalizing st with
  | nil => rfl
  | cons w ws ih =>
    rw [after_cons, ih, h w List.mem_cons_self]
    intro w' hw'
    exact h w' (List.mem_cons_of_mem w hw')

/-- What every write of the list keeps. -/
theorem after_induction {ws : List Write} {P : Store → Prop} (h₀ : P st)
    (h : ∀ w ∈ ws, ∀ st : Store, P st → P (w.apply st)) : P (st.after ws) := by
  induction ws generalizing st with
  | nil => exact h₀
  | cons w ws ih =>
    apply ih
    · exact h w List.mem_cons_self st h₀
    · intro w' hw'
      exact h w' (List.mem_cons_of_mem w hw')

@[simp] theorem after_feed : (st.after ws).feed = st.feed := by
  apply st.after_eq Store.feed
  intro w _ st
  rfl

end Store

/-- What a write does to the payment row with this id. -/
def Write.onRow (id : Uuid) : Write → PaymentRow → PaymentRow
  | setStatus id' status, row =>
    if id = id' then { row with status := status, version := row.version + 1 } else row
  | setFxDetails id' fxRateId creditorAmount, row =>
    if id = id' then { row with fxRateId := some fxRateId, creditorAmount := some creditorAmount } else row
  | _, row => row

/-- The writes that change the payment row with this id without changing its version are followed
by one that does. -/
def Paired (ws : List Write) : Prop :=
  ∀ id rate amount, .setFxDetails id rate amount ∈ ws → ∃ status, .setStatus id status ∈ ws

/-- What an account keeps for ever: everything but its version. -/
def Account.fixed (a : Account) : Account := { a with version := 0 }

section Frames

variable {w : Write} {st st' : Store}

theorem account_frame {id : Uuid} (h : w.locked ≠ some (.account id)) :
    (w.apply st).accounts.find id = st.accounts.find id := by
  cases w with
  | bumpAccount id' =>
    have hne : id ≠ id' := by
      intro hid
      exact h (by rw [hid]; rfl)
    simp only [Write.apply, Write.onAccounts]
    exact Table.find_modify_of_ne _ _ _ hne
  | _ => rfl

theorem account_congr {id : Uuid} (h : st'.accounts.find id = st.accounts.find id) :
    (w.apply st').accounts.find id = (w.apply st).accounts.find id := by
  cases w with
  | bumpAccount id' => simp only [Write.apply, Write.onAccounts, Table.find_modify, h]
  | _ => exact h

theorem accounts_fixed : (w.apply st).accounts.rows.map Account.fixed = st.accounts.rows.map Account.fixed := by
  cases w with
  | bumpAccount id' =>
    simp only [Write.apply, Write.onAccounts]
    exact Table.map_rows_modify _ _ _ _ _ fun _ => rfl
  | _ => rfl

theorem account_le {id : Uuid} {a : Account} (h : st.accounts.find id = some a) :
    ∃ a', (w.apply st).accounts.find id = some a' ∧ a.version ≤ a'.version := by
  cases w with
  | bumpAccount id' =>
    by_cases hid : id = id'
    · subst hid
      refine ⟨{ a with version := a.version + 1 }, ?_, Nat.le_succ _⟩
      simp only [Write.apply, Write.onAccounts, Table.find_modify_self, h, Option.map_some]
    · refine ⟨a, ?_, le_rfl⟩
      rw [← h]
      simp only [Write.apply, Write.onAccounts]
      exact Table.find_modify_of_ne _ _ _ hid
  | _ => exact ⟨a, h, le_rfl⟩

theorem account_after {id : Uuid} {a : Account} (ws : List Write) (h : st.accounts.find id = some a) :
    ∃ a', (st.after ws).accounts.find id = some a' ∧ a.version ≤ a'.version := by
  induction ws generalizing st a with
  | nil => exact ⟨a, h, le_rfl⟩
  | cons w ws ih =>
    obtain ⟨a₁, h₁, hle₁⟩ := account_le (w := w) h
    obtain ⟨a₂, h₂, hle₂⟩ := ih h₁
    exact ⟨a₂, h₂, hle₁.trans hle₂⟩

theorem lookup_accountVersions (ids : List Uuid) (id : Uuid) : (st.accountVersions ids).lookup id =
    if id ∈ ids then (st.accounts.find id).map Account.version else none := by
  induction ids with
  | nil => rfl
  | cons a ids ih =>
    have hne (h : id ≠ a) : (id ∈ a :: ids) = (id ∈ ids) := by simp [h]
    cases ha : st.accounts.find a with
    | none =>
      have hcons : st.accountVersions (a :: ids) = st.accountVersions ids := by
        simp [Store.accountVersions, ha]
      rw [hcons, ih]
      by_cases h : id = a
      · subst h
        simp [ha]
      · simp only [hne h]
    | some acc =>
      have hcons : st.accountVersions (a :: ids) = (a, acc.version) :: st.accountVersions ids := by
        simp [Store.accountVersions, ha]
      rw [hcons]
      by_cases h : id = a
      · subst h
        simp [ha]
      · simp only [hne h, ← ih]
        rw [List.lookup_cons, beq_false_of_ne h]

theorem accountVersions_congr {ids : List Uuid} (h : ∀ id ∈ ids, (st'.accounts.find id).map Account.version =
    (st.accounts.find id).map Account.version) : st'.accountVersions ids = st.accountVersions ids := by
  apply List.filterMap_congr
  intro id hid
  have hpair (o : Option Account) :
      (o.map fun a => (id, a.version)) = (o.map Account.version).map fun v => (id, v) := by
    rw [Option.map_map]
    rfl
  rw [hpair, hpair, h id hid]

theorem payment_frame {id : Uuid} (h : w.locked ≠ some (.payment id)) :
    (w.apply st).payments.find id = st.payments.find id := by
  cases w with
  | insertPayment row =>
    apply Table.find_insert_of_ne
    intro hid
    exact h (by rw [← hid]; rfl)
  | setStatus id' status =>
    have hne : id ≠ id' := by
      intro hid
      exact h (by rw [hid]; rfl)
    simp only [Write.apply, Write.onPayments]
    exact Table.find_modify_of_ne _ _ _ hne
  | setFxDetails id' rate amount =>
    have hne : id ≠ id' := by
      intro hid
      exact h (by rw [hid]; rfl)
    simp only [Write.apply, Write.onPayments]
    exact Table.find_modify_of_ne _ _ _ hne
  | _ => rfl

theorem payment_congr {id : Uuid} (h : st'.payments.find id = st.payments.find id) :
    (w.apply st').payments.find id = (w.apply st).payments.find id := by
  cases w with
  | insertPayment row => exact Table.find_insert_congr h
  | setStatus id' status => simp only [Write.apply, Write.onPayments, Table.find_modify, h]
  | setFxDetails id' rate amount => simp only [Write.apply, Write.onPayments, Table.find_modify, h]
  | _ => exact h

theorem payment_apply {id : Uuid} {row : PaymentRow} (h : st.payments.find id = some row) :
    (w.apply st).payments.find id = some (w.onRow id row) := by
  cases w with
  | insertPayment r => exact Table.find_insert_of_some h
  | setStatus id' status => simp [Write.apply, Write.onPayments, Write.onRow, Table.find_modify, h]
  | setFxDetails id' rate amount => simp [Write.apply, Write.onPayments, Write.onRow, Table.find_modify, h]
  | _ => exact h

theorem payment_after {id : Uuid} {row : PaymentRow} (ws : List Write) (h : st.payments.find id = some row) :
    (st.after ws).payments.find id = some (ws.foldl (fun row w => w.onRow id row) row) := by
  induction ws generalizing st row with
  | nil => exact h
  | cons w ws ih => exact ih (payment_apply h)

/-- Payments are never deleted, so the ones there are were there or have been inserted. -/
theorem hasPayment_after {id : Uuid} (ws : List Write) : (st.after ws).hasPayment id = true ↔
    st.hasPayment id = true ∨ ∃ row, .insertPayment row ∈ ws ∧ row.id = id := by
  induction ws generalizing st with
  | nil => simp
  | cons w ws ih =>
    rw [Store.after_cons, ih]
    have hw : (w.apply st).hasPayment id = true ↔
        st.hasPayment id = true ∨ ∃ row, w = .insertPayment row ∧ row.id = id := by
      cases w with
      | insertPayment row =>
        by_cases hid : row.id = id
        · subst hid
          cases hf : st.payments.find row.id with
          | none => simp [Store.hasPayment, Write.apply, Write.onPayments, Table.find_insert hf]
          | some r => simp [Store.hasPayment, Write.apply, Write.onPayments, Table.find_insert_of_some hf, hf]
        · have hne : ∀ row', Write.insertPayment row = .insertPayment row' → row'.id ≠ id := by
            intro row' h
            cases h
            exact hid
          rw [Store.hasPayment, Write.apply, Write.onPayments, Table.find_insert_of_ne _ hid]
          constructor
          · exact Or.inl
          · intro h
            rcases h with h | ⟨row', h, hr⟩
            · exact h
            · exact absurd hr (hne row' h)
      | setStatus id' status => simp [Store.hasPayment, Write.apply, Write.onPayments, Table.find_modify]
      | setFxDetails id' rate amount => simp [Store.hasPayment, Write.apply, Write.onPayments, Table.find_modify]
      | _ => simp [Store.hasPayment, Write.apply, Write.onPayments]
    rw [hw]
    constructor
    · intro h
      rcases h with (h | ⟨row, rfl, hr⟩) | ⟨row, hmem, hr⟩
      · exact .inl h
      · exact .inr ⟨row, List.mem_cons_self, hr⟩
      · exact .inr ⟨row, List.mem_cons_of_mem w hmem, hr⟩
    · intro h
      rcases h with h | ⟨row, hmem, hr⟩
      · exact .inl (.inl h)
      · rcases List.mem_cons.mp hmem with rfl | hmem
        · exact .inl (.inr ⟨row, rfl, hr⟩)
        · exact .inr ⟨row, hmem, hr⟩

theorem onRow_version_le (id : Uuid) (ws : List Write) (row : PaymentRow) :
    row.version ≤ (ws.foldl (fun row w => w.onRow id row) row).version := by
  induction ws generalizing row with
  | nil => exact le_rfl
  | cons w ws ih =>
    apply le_trans _ (ih _)
    cases w with
    | setStatus id' status =>
      simp only [Write.onRow]
      split <;> simp
    | setFxDetails id' rate amount =>
      simp only [Write.onRow]
      split <;> simp
    | _ => exact le_rfl

theorem onRow_version_lt {id : Uuid} {status : PaymentStatus} {ws : List Write}
    (h : .setStatus id status ∈ ws) (row : PaymentRow) :
    row.version < (ws.foldl (fun row w => w.onRow id row) row).version := by
  obtain ⟨ws₁, ws₂, rfl⟩ := List.append_of_mem h
  rw [List.foldl_append, List.foldl_cons]
  apply lt_of_lt_of_le _ (onRow_version_le id ws₂ _)
  rw [Write.onRow, if_pos rfl]
  have := onRow_version_le id ws₁ row
  exact Nat.lt_succ_of_le this

/-- A payment row that a paired list of writes changes gets a larger version. -/
theorem onRow_paired {id : Uuid} {ws : List Write} (hp : Paired ws) (row : PaymentRow) :
    ws.foldl (fun row w => w.onRow id row) row = row ∨
      row.version < (ws.foldl (fun row w => w.onRow id row) row).version := by
  by_cases hs : ∃ status, .setStatus id status ∈ ws
  · obtain ⟨status, hs⟩ := hs
    exact .inr (onRow_version_lt hs row)
  · left
    have hsame : ∀ w ∈ ws, ∀ row, w.onRow id row = row := by
      intro w hw row
      cases w with
      | setStatus id' status =>
        have hne : id ≠ id' := by
          intro h
          exact hs ⟨status, h ▸ hw⟩
        rw [Write.onRow, if_neg hne]
      | setFxDetails id' rate amount =>
        have hne : id ≠ id' := by
          intro h
          exact hs (hp id rate amount (h ▸ hw))
        rw [Write.onRow, if_neg hne]
      | _ => rfl
    clear hp hs
    induction ws with
    | nil => rfl
    | cons w ws ih =>
      rw [List.foldl_cons, hsame w List.mem_cons_self]
      apply ih
      intro w' hw'
      exact hsame w' (List.mem_cons_of_mem w hw')

theorem entry_frame {id : Uuid} (h : w.locked ≠ some (.entry id)) :
    (w.apply st).journalEntries.find id = st.journalEntries.find id := by
  cases w with
  | insertEntry row =>
    apply Table.find_insert_of_ne
    intro hid
    exact h (by rw [← hid]; rfl)
  | _ => rfl

theorem entry_congr {id : Uuid} (h : st'.journalEntries.find id = st.journalEntries.find id) :
    (w.apply st').journalEntries.find id = (w.apply st).journalEntries.find id := by
  cases w with
  | insertEntry row => exact Table.find_insert_congr h
  | _ => exact h

theorem entry_kept {id : Uuid} {row : JournalEntryRow} (h : st.journalEntries.find id = some row) :
    (w.apply st).journalEntries.find id = some row := by
  cases w with
  | insertEntry r => exact Table.find_insert_of_some h
  | _ => exact h

theorem delivery_frame {id : Uuid} (h : w.locked ≠ some (.delivery id)) :
    (w.apply st).webhookDeliveries.find id = st.webhookDeliveries.find id := by
  cases w with
  | insertDelivery row =>
    apply Table.find_insert_of_ne
    intro hid
    exact h (by rw [← hid]; rfl)
  | _ => rfl

theorem delivery_congr {id : Uuid} (h : st'.webhookDeliveries.find id = st.webhookDeliveries.find id) :
    (w.apply st').webhookDeliveries.find id = (w.apply st).webhookDeliveries.find id := by
  cases w with
  | insertDelivery row => exact Table.find_insert_congr h
  | _ => exact h

theorem key_frame {endpoint key : String} (h : w.locked ≠ some (.idempotencyKey endpoint key)) :
    (w.apply st).idempotencyKeys.find (endpoint, key) = st.idempotencyKeys.find (endpoint, key) := by
  cases w with
  | insertKey row =>
    apply Table.find_insert_of_ne
    intro hid
    obtain ⟨rfl, rfl⟩ := Prod.mk.inj hid
    exact h rfl
  | completeKey endpoint' key' code body =>
    have hne : (endpoint, key) ≠ (endpoint', key') := by
      intro hid
      obtain ⟨rfl, rfl⟩ := Prod.mk.inj hid
      exact h rfl
    simp only [Write.apply, Write.onKeys]
    exact Table.find_modify_of_ne _ _ _ hne
  | _ => rfl

theorem key_congr {k : String × String} (h : st'.idempotencyKeys.find k = st.idempotencyKeys.find k) :
    (w.apply st').idempotencyKeys.find k = (w.apply st).idempotencyKeys.find k := by
  cases w with
  | insertKey row => exact Table.find_insert_congr h
  | completeKey endpoint key code body => simp only [Write.apply, Write.onKeys, Table.find_modify, h]
  | _ => exact h

theorem hasKeyId_kept {id : Uuid} (h : st.hasKeyId id = true) : (w.apply st).hasKeyId id = true := by
  have hmem (st : Store) : st.hasKeyId id = true ↔ id ∈ st.idempotencyKeys.rows.map IdempotencyKeyRow.id := by
    simp [Store.hasKeyId]
  rw [hmem] at h ⊢
  cases w with
  | insertKey row =>
    obtain ⟨r, hr, rfl⟩ := List.mem_map.mp h
    exact List.mem_map_of_mem (Table.mem_insert_of_mem hr)
  | completeKey endpoint key code body =>
    have hrows := Table.map_rows_modify st.idempotencyKeys (endpoint, key)
      (fun row => { row with status := .completed, responseStatusCode := some code, responseBody := some body })
      (fun _ => rfl) IdempotencyKeyRow.id fun _ => rfl
    rw [← hrows] at h
    exact h
  | _ => exact h

theorem hasKeyId_apply {id : Uuid} (h : (w.apply st).hasKeyId id = true) : st.hasKeyId id = true ∨
    ∃ row, w = .insertKey row ∧ row.id = id ∧ st.idempotencyKeys.find (row.endpoint, row.key) = none := by
  cases w with
  | insertKey row =>
    by_cases hn : st.idempotencyKeys.find (row.endpoint, row.key) = none
    · simp only [Store.hasKeyId, Write.apply, Write.onKeys, Table.rows_insert hn, List.any_append,
        Bool.or_eq_true] at h
      rcases h with h | h
      · exact .inl h
      · exact .inr ⟨row, rfl, by simpa using h, hn⟩
    · left
      simpa only [Store.hasKeyId, Write.apply, Write.onKeys, Table.insert, dif_neg hn] using h
  | completeKey endpoint key code body =>
    left
    simp only [Store.hasKeyId, Write.apply, Write.onKeys, Table.modify, List.any_map] at h
    simp only [Store.hasKeyId]
    convert h using 2
    funext row
    simp only [Function.comp_apply]
    split <;> rfl
  | _ => exact .inl h

end Frames

/-- What a transaction that holds the locks `L` may assume of the committed store while others
commit: only rows it has not locked change, accounts keep all but their version, and a changed
payment has a larger version. -/
structure Drift (L : List RowKey) (st st' : Store) : Prop where
  accounts : st'.accounts.rows.map Account.fixed = st.accounts.rows.map Account.fixed
  account_le : ∀ id a, st.accounts.find id = some a →
    ∃ a', st'.accounts.find id = some a' ∧ a.version ≤ a'.version
  account_held : ∀ id, .account id ∈ L → st'.accounts.find id = st.accounts.find id
  payments : ∀ id row, st.payments.find id = some row →
    ∃ row', st'.payments.find id = some row' ∧ (row' = row ∨ row.version < row'.version)
  payment_held : ∀ id, .payment id ∈ L → st'.payments.find id = st.payments.find id
  entries : ∀ id row, st.journalEntries.find id = some row → st'.journalEntries.find id = some row
  entry_held : ∀ id, .entry id ∈ L → st'.journalEntries.find id = st.journalEntries.find id
  keyIds : ∀ id, st.hasKeyId id = true → st'.hasKeyId id = true
  key_held : ∀ endpoint key, .idempotencyKey endpoint key ∈ L →
    st'.idempotencyKeys.find (endpoint, key) = st.idempotencyKeys.find (endpoint, key)
  delivery_held : ∀ id, .delivery id ∈ L → st'.webhookDeliveries.find id = st.webhookDeliveries.find id

namespace Drift

variable {L : List RowKey} {st st' st'' : Store}

theorem refl (L : List RowKey) (st : Store) : Drift L st st where
  accounts := rfl
  account_le := fun _ a h => ⟨a, h, le_rfl⟩
  account_held := fun _ _ => rfl
  payments := fun _ row h => ⟨row, h, .inl rfl⟩
  payment_held := fun _ _ => rfl
  entries := fun _ _ h => h
  entry_held := fun _ _ => rfl
  keyIds := fun _ h => h
  key_held := fun _ _ _ => rfl
  delivery_held := fun _ _ => rfl

theorem trans (h : Drift L st st') (h' : Drift L st' st'') : Drift L st st'' where
  accounts := h'.accounts.trans h.accounts
  account_le := by
    intro id a ha
    obtain ⟨a₁, h₁, hle₁⟩ := h.account_le id a ha
    obtain ⟨a₂, h₂, hle₂⟩ := h'.account_le id a₁ h₁
    exact ⟨a₂, h₂, hle₁.trans hle₂⟩
  account_held := fun id hid => (h'.account_held id hid).trans (h.account_held id hid)
  payments := by
    intro id row hrow
    obtain ⟨row', hrow', hv⟩ := h.payments id row hrow
    obtain ⟨row'', hrow'', hv'⟩ := h'.payments id row' hrow'
    refine ⟨row'', hrow'', ?_⟩
    rcases hv with rfl | hv
    · exact hv'
    · rcases hv' with rfl | hv'
      · exact .inr hv
      · exact .inr (hv.trans hv')
  payment_held := fun id hid => (h'.payment_held id hid).trans (h.payment_held id hid)
  entries := fun id row hrow => h'.entries id row (h.entries id row hrow)
  entry_held := fun id hid => (h'.entry_held id hid).trans (h.entry_held id hid)
  keyIds := fun id hid => h'.keyIds id (h.keyIds id hid)
  key_held := fun e k hk => (h'.key_held e k hk).trans (h.key_held e k hk)
  delivery_held := fun id hid => (h'.delivery_held id hid).trans (h.delivery_held id hid)

/-- The feed is not part of what a transaction assumes. -/
theorem feed (L : List RowKey) (st : Store) (f : Feed) : Drift L st { st with feed := f } where
  accounts := rfl
  account_le := fun _ a h => ⟨a, h, le_rfl⟩
  account_held := fun _ _ => rfl
  payments := fun _ row h => ⟨row, h, .inl rfl⟩
  payment_held := fun _ _ => rfl
  entries := fun _ _ h => h
  entry_held := fun _ _ => rfl
  keyIds := fun _ h => h
  key_held := fun _ _ _ => rfl
  delivery_held := fun _ _ => rfl

/-- A transaction's own writes keep what it assumes of the rows it has locked. -/
theorem apply (h : Drift L st st') {w : Write} (hw : ∀ k, w.locked = some k → k ∈ L) :
    Drift L (w.apply st) (w.apply st') where
  accounts := by rw [accounts_fixed, accounts_fixed, h.accounts]
  account_le := by
    intro id a ha
    by_cases hid : .account id ∈ L
    · exact ⟨a, by rw [account_congr (h.account_held id hid), ha], le_rfl⟩
    · have hframe : w.locked ≠ some (.account id) := fun hl => hid (hw _ hl)
      rw [account_frame hframe] at ha ⊢
      exact h.account_le id a ha
  account_held := fun id hid => account_congr (h.account_held id hid)
  payments := by
    intro id row hrow
    by_cases hid : .payment id ∈ L
    · exact ⟨row, by rw [payment_congr (h.payment_held id hid), hrow], .inl rfl⟩
    · have hframe : w.locked ≠ some (.payment id) := fun hl => hid (hw _ hl)
      rw [payment_frame hframe] at hrow ⊢
      exact h.payments id row hrow
  payment_held := fun id hid => payment_congr (h.payment_held id hid)
  entries := by
    intro id row hrow
    by_cases hid : .entry id ∈ L
    · rw [entry_congr (h.entry_held id hid), hrow]
    · have hframe : w.locked ≠ some (.entry id) := fun hl => hid (hw _ hl)
      rw [entry_frame hframe] at hrow ⊢
      exact h.entries id row hrow
  entry_held := fun id hid => entry_congr (h.entry_held id hid)
  keyIds := by
    intro id hid
    rcases hasKeyId_apply hid with hid | ⟨row, rfl, rfl, hn⟩
    · exact hasKeyId_kept (h.keyIds id hid)
    · have hn' := (h.key_held _ _ (hw _ rfl)).trans hn
      simp [Store.hasKeyId, Write.apply, Write.onKeys, Table.rows_insert hn']
  key_held := fun e k hk => key_congr (h.key_held e k hk)
  delivery_held := fun id hid => delivery_congr (h.delivery_held id hid)

theorem after (h : Drift L st st') {ws : List Write} (hw : ∀ w ∈ ws, ∀ k, w.locked = some k → k ∈ L) :
    Drift L (st.after ws) (st'.after ws) := by
  induction ws generalizing st st' with
  | nil => exact h
  | cons w ws ih =>
    apply ih (h.apply (hw w List.mem_cons_self))
    intro w' hw'
    exact hw w' (List.mem_cons_of_mem w hw')

/-- A paired transaction that shares no lock with `L`. -/
theorem of_writes (st : Store) {ws : List Write} (hp : Paired ws)
    (hL : ∀ w ∈ ws, ∀ k, w.locked = some k → k ∉ L) : Drift L st (st.after ws) where
  accounts := by
    apply st.after_eq fun st => st.accounts.rows.map Account.fixed
    intro w _ st
    exact accounts_fixed
  account_le := by
    intro id a ha
    exact account_after ws ha
  account_held := by
    intro id hid
    apply st.after_eq fun st => st.accounts.find id
    intro w hw st
    exact account_frame fun hl => hL w hw _ hl hid
  payments := by
    intro id row hrow
    refine ⟨_, payment_after ws hrow, ?_⟩
    exact onRow_paired hp row
  payment_held := by
    intro id hid
    apply st.after_eq fun st => st.payments.find id
    intro w hw st
    exact payment_frame fun hl => hL w hw _ hl hid
  entries := by
    intro id row hrow
    apply st.after_induction (P := fun st => st.journalEntries.find id = some row) hrow
    intro w _ st h
    exact entry_kept h
  entry_held := by
    intro id hid
    apply st.after_eq fun st => st.journalEntries.find id
    intro w hw st
    exact entry_frame fun hl => hL w hw _ hl hid
  keyIds := by
    intro id hid
    apply st.after_induction (P := fun st => st.hasKeyId id = true) hid
    intro w _ st h
    exact hasKeyId_kept h
  key_held := by
    intro e k hk
    apply st.after_eq fun st => st.idempotencyKeys.find (e, k)
    intro w hw st
    exact key_frame fun hl => hL w hw _ hl hk
  delivery_held := by
    intro id hid
    apply st.after_eq fun st => st.webhookDeliveries.find id
    intro w hw st
    exact delivery_frame fun hl => hL w hw _ hl hid

end Drift

/-- Outside changes touch the feed only. -/
def feedEnv (step : Feed → Feed → Prop) (st st' : Store) : Prop :=
  ∃ f, step st.feed f ∧ st' = { st with feed := f }

/-- The writes of a log, in commit order. -/
def logWrites {ι : Type} (log : List (Commit postgres ι)) : List Write := log.flatMap fun c => writesOf c.tx

theorem after_withFeed (st : Store) (f : Feed) (ws : List Write) :
    ({ st with feed := f } : Store).after ws = { st.after ws with feed := f } := by
  induction ws generalizing st with
  | nil => rfl
  | cons w ws ih => exact ih (w.apply st)

/-- But for the feed, the log determines the store. -/
theorem History.eq_after {ι : Type} {step : Feed → Feed → Prop} {st st' : Store}
    {log : List (Commit postgres ι)} (h : History (feedEnv step) st log st') :
    st' = { st.after (logWrites log) with feed := st'.feed } := by
  induction h with
  | nil => rfl
  | env _ he ih =>
    obtain ⟨f, _, rfl⟩ := he
    rw [ih]
  | @commit log c _ ih =>
    have hc : c.after = c.before.after (writesOf c.tx) := rfl
    have hl : logWrites (log ++ [c]) = logWrites log ++ writesOf c.tx := by simp [logWrites]
    rw [hc, hl, Store.after_append, ih, after_withFeed]

/-- Between two commits, a transaction sees the committed store drift. -/
theorem History.drift {ι : Type} {step : Feed → Feed → Prop} {L : List RowKey} {st st' : Store}
    {log : List (Commit postgres ι)} (h : History (feedEnv step) st log st')
    (hp : ∀ c ∈ log, Paired (writesOf c.tx)) (hL : ∀ c ∈ log, ∀ row ∈ L, row ∉ locksOf c.tx) :
    Drift L st st' := by
  induction h with
  | nil => exact Drift.refl L st
  | env _ he ih =>
    obtain ⟨f, _, rfl⟩ := he
    exact (ih hp hL).trans (Drift.feed L _ f)
  | @commit log c _ ih =>
    have hlog : ∀ c' ∈ log, c' ∈ log ++ [c] := fun c' hc' => List.mem_append_left _ hc'
    have hc : c ∈ log ++ [c] := by simp
    have hd := ih (fun c' hc' => hp c' (hlog c' hc')) (fun c' hc' => hL c' (hlog c' hc'))
    apply hd.trans
    apply Drift.of_writes c.before (hp c hc)
    intro w hw k hk hkL
    exact hL c hc k hkL (List.mem_filterMap.mpr ⟨w, hw, hk⟩)

end PaymentLedger
