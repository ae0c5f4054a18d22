import PaymentLedger.Services.Deeds
import PaymentLedger.Transaction.Wp

namespace PaymentLedger

/-- What a payment keeps for ever. -/
def PaymentRow.fixed (row : PaymentRow) : PaymentRow :=
  { row with status := .initiated, version := 0, fxRateId := none, creditorAmount := none }

/-- What lasts while others commit. -/
structure Later (st st' : Store) : Prop where
  accounts : st'.accounts.rows.map Account.fixed = st.accounts.rows.map Account.fixed
  payments : ∀ id row, st.payments.find id = some row → ∃ row', st'.payments.find id = some row' ∧
    row'.fixed = row.fixed
  subscriptions : ∀ id, st.hasSubscription id = true → st'.hasSubscription id = true
  rates : ∀ id, st.hasRate id = true → st'.hasRate id = true

namespace Later

variable {st st' st'' : Store}

theorem refl (st : Store) : Later st st where
  accounts := rfl
  payments := fun _ row h => ⟨row, h, rfl⟩
  subscriptions := fun _ h => h
  rates := fun _ h => h

theorem trans (h : Later st st') (h' : Later st' st'') : Later st st'' where
  accounts := h'.accounts.trans h.accounts
  payments := by
    intro id row hrow
    obtain ⟨row', hrow', hfixed⟩ := h.payments id row hrow
    obtain ⟨row'', hrow'', hfixed'⟩ := h'.payments id row' hrow'
    exact ⟨row'', hrow'', hfixed'.trans hfixed⟩
  subscriptions := fun id hid => h'.subscriptions id (h.subscriptions id hid)
  rates := fun id hid => h'.rates id (h.rates id hid)

theorem after (st : Store) (ws : List Write) : Later st (st.after ws) where
  accounts := st.fixed_after ws
  payments := by
    intro id row hrow
    refine ⟨_, payment_after ws hrow, ?_⟩
    induction ws generalizing st row with
    | nil => rfl
    | cons w ws ih =>
      have hw : (w.onRow id row).fixed = row.fixed := by
        cases w with
        | setStatus id' status => by_cases hid : id = id' <;> simp [Write.onRow, PaymentRow.fixed, hid]
        | setFxDetails id' rate amount => by_cases hid : id = id' <;> simp [Write.onRow, PaymentRow.fixed, hid]
        | _ => rfl
      rw [List.foldl_cons]
      exact (ih (w.apply st) (w.onRow id row) (payment_apply hrow)).trans hw
  subscriptions := by
    intro id hid
    rw [Store.hasSubscription, st.after_feed]
    exact hid
  rates := by
    intro id hid
    rw [Store.hasRate, st.after_feed]
    exact hid

theorem currencyOf (h : Later st st') (id : Uuid) : st'.currencyOf id = st.currencyOf id := by
  rw [Store.currencyOf_fixed, Store.currencyOf_fixed, h.accounts]

theorem suspense (h : Later st st') : st'.suspense = st.suspense := by
  rw [Store.suspense_fixed, Store.suspense_fixed, h.accounts]

theorem hasAccount (h : Later st st') (id : Uuid) : st'.hasAccount id = st.hasAccount id := by
  have hf := congrArg Option.isSome (Store.find_fixed h.accounts id)
  rwa [Option.isSome_map, Option.isSome_map] at hf

theorem hasPayment (h : Later st st') {id : Uuid} (hp : st.hasPayment id = true) : st'.hasPayment id = true := by
  obtain ⟨row, hrow⟩ := Option.isSome_iff_exists.mp hp
  obtain ⟨row', hrow', -⟩ := h.payments id row hrow
  exact Option.isSome_iff_exists.mpr ⟨row', hrow'⟩

end Later

namespace Store

/-- A rate for the pair that no other is later than. -/
def Latest (st : Store) (base quote : String) (r : FxRateRow) : Prop :=
  r ∈ st.rates base quote ∧ ∀ r' ∈ st.rates base quote, r'.bookedAt ≤ r.bookedAt

theorem exists_latest {st : Store} {base quote : String} (h : st.rates base quote ≠ []) :
    ∃ r, st.Latest base quote r := by
  obtain ⟨r, hr, hmax⟩ := (st.rates base quote).toFinset.exists_max_image FxRateRow.bookedAt
    (List.toFinset_nonempty_iff _ |>.mpr h)
  exact ⟨r, List.mem_toFinset.mp hr, fun r' hr' => hmax r' (List.mem_toFinset.mpr hr')⟩

end Store

/-- The writes of a posting before its accounts are bumped. -/
def Write.posts : Write → Bool
  | insertEntry _ => true
  | insertLine _ => true
  | _ => false

theorem hasEntry_kept {st : Store} {id : Uuid} (ws : List Write) (h : st.hasEntry id = true) :
    (st.after ws).hasEntry id = true := by
  refine @Store.after_induction st ws (fun st => st.hasEntry id = true) h ?_
  intro w _ st hst
  obtain ⟨row, hrow⟩ := Option.isSome_iff_exists.mp hst
  exact Option.isSome_iff_exists.mpr ⟨row, entry_kept hrow⟩

theorem hasEntry_inserted (st : Store) (row : JournalEntryRow) :
    (st.after [.insertEntry row]).hasEntry row.id = true := by
  show (st.journalEntries.insert row).find row.id |>.isSome
  cases hf : st.journalEntries.find row.id with
  | none => simp [Table.find_insert hf]
  | some r => simp [Table.find_insert_of_some hf]

theorem rows_insert_le {κ ρ : Type} [DecidableEq κ] {key : ρ → κ} (t : Table key) (r : ρ) :
    (t.insert r).rows.length ≤ t.rows.length + 1 := by
  unfold Table.insert
  split
  · simp
  · exact Nat.le_succ _

/-- There are more ids than rows. -/
theorem exists_fresh_id (ids : List Uuid) (h : ids.length < 2 ^ 128) : ∃ id, id ∉ ids := by
  by_contra hall
  simp only [not_exists, not_not] at hall
  have hsub : (Finset.univ : Finset (Fin (2 ^ 128))).image BitVec.ofFin ⊆ ids.toFinset := by
    intro id _
    rw [List.mem_toFinset]
    exact hall id
  have hcard := Finset.card_le_card hsub
  have hinj : Function.Injective (BitVec.ofFin : Fin (2 ^ 128) → Uuid) := fun a b hab => congrArg BitVec.toFin hab
  rw [Finset.card_image_of_injective _ hinj, Finset.card_univ, Fintype.card_fin] at hcard
  have hle := List.toFinset_card_le ids
  omega

theorem Table.exists_fresh {ρ : Type} {key : ρ → Uuid} (t : Table key) (h : t.rows.length < 2 ^ 128) :
    ∃ id, t.find id = none := by
  obtain ⟨id, hid⟩ := exists_fresh_id (t.rows.map key) (by rwa [List.length_map])
  exact ⟨id, (t.find_none_iff id).mpr hid⟩

/-- The setting of a call: what it relies on lasts and keeps `good` true, and nothing at all changes if it is
alone. -/
structure Setting (live alone : Prop) (good : Store → Prop) (rely : Rely postgres) : Prop where
  later : ∀ {st st'}, rely.rel st st' → Later st st'
  good : ∀ {st st'}, rely.rel st st' → good st → good st'
  still : alone → ∀ {st st'}, rely.rel st st' → st' = st
  alone : live → alone

theorem Setting.still_alone (live : Prop) (st : Store) : Setting live True (· = st) (.alone postgres) := by
  refine ⟨?_, ?_, fun _ _ _ h => h, fun _ => trivial⟩
  · rintro st st' rfl
    exact Later.refl _
  · rintro st st' rfl h
    exact h

section Rules

variable {live alone : Prop} {good : Store → Prop} {rely : Rely postgres} {c : Store} {ws : List Write}

theorem wp_query {s : Stmt} {Q : Except AppError s.Res → Store → List Write → Prop}
    (hlive : live → ∀ c', rely.rel c c' → ∀ now, ∃ ch, (s.eval (c'.after ws) now ch).isSome = true)
    (hok : ∀ c', rely.rel c c' → ∀ now ch r new, s.eval (c'.after ws) now ch = some (.ok (r, new)) →
      ∀ c'', rely.rel c' c'' → Q (.ok r) c'' (ws ++ new))
    (herr : ∀ c', rely.rel c c' → ∀ now ch e, s.eval (c'.after ws) now ch = some (.error e) →
      ∀ c'', rely.rel c' c'' → Q (.error (.db e)) c'' []) :
    (query s).wp live rely Q c ws := by
  intro c' hc
  refine ⟨?_, ?_, ?_⟩
  · intro hl now
    obtain ⟨ch, hch⟩ := hlive hl c' hc now
    refine ⟨ch, ?_⟩
    show ((s.eval (c'.after ws) now ch).map _).isSome = true
    rw [Option.isSome_map]
    exact hch
  · intro now ch r new he
    obtain ⟨x, hx, hmap⟩ := Option.map_eq_some_iff.mp he
    cases x with
    | error e => cases hmap
    | ok y =>
      cases hmap
      exact hok c' hc now ch r new hx
  · intro now ch e he
    obtain ⟨x, hx, hmap⟩ := Option.map_eq_some_iff.mp he
    cases x with
    | error e' =>
      cases hmap
      exact herr c' hc now ch e' hx
    | ok y => cases hmap

/-- A statement that only reads. -/
theorem wp_read {s : Stmt} {f : Store → s.Res} {Q : Except AppError s.Res → Store → List Write → Prop}
    (heval : ∀ st now ch, s.eval st now ch = some (.ok (f st, [])))
    (h : ∀ c', rely.rel c c' → ∀ c'', rely.rel c' c'' → Q (.ok (f (c'.after ws))) c'' ws) :
    (query s).wp live rely Q c ws := by
  apply wp_query
  · intro _ c' _ now
    exact ⟨{}, by simp [heval]⟩
  · intro c' hc now ch r new he
    rw [heval] at he
    cases he
    rw [List.append_nil]
    exact h c' hc
  · intro c' _ now ch e he
    rw [heval] at he
    cases he

variable (hS : Setting live alone good rely)

include hS

theorem wp_getAccount {id : Uuid} {currency : String} {Q : Except AppError Account → Store → List Write → Prop}
    (ha : c.currencyOf id = some currency)
    (h : ∀ c', rely.rel c c' → ∀ a, a.id = id → a.currency = currency → Q (.ok a) c' ws) :
    (getAccount id).wp live rely Q c ws := by
  apply Prog.wp_bind
  apply wp_read (f := fun st => st.accounts.find id) fun _ _ _ => rfl
  intro c' hc c'' hc'
  have hcur : (c'.after ws).currencyOf id = some currency := by
    rw [Store.currencyOf_after, (hS.later hc).currencyOf, ha]
  obtain ⟨a, hfind, hacur⟩ := Option.map_eq_some_iff.mp hcur
  rw [hfind]
  intro c₃ hc₃
  exact h c₃ (rely.trans hc (rely.trans hc' hc₃)) a (Table.find_key hfind) hacur

theorem wp_getSuspense {id : Uuid} {Q : Except AppError Account → Store → List Write → Prop}
    (ha : c.suspense = some id) (h : ∀ c', rely.rel c c' → ∀ a, a.id = id → Q (.ok a) c' ws) :
    (getAccountByNumber fxSuspenseAccountNumber).wp live rely Q c ws := by
  apply Prog.wp_bind
  apply wp_read (f := fun st => st.accounts.rows.find? fun a => decide (a.accountNumber = fxSuspenseAccountNumber))
    fun _ _ _ => rfl
  intro c' hc c'' hc'
  have hsuspense : (c'.after ws).suspense = some id := by
    rw [Store.suspense_after, (hS.later hc).suspense, ha]
  obtain ⟨a, hfind, hid⟩ := Option.map_eq_some_iff.mp hsuspense
  rw [hfind]
  intro c₃ hc₃
  exact h c₃ (rely.trans hc (rely.trans hc' hc₃)) a hid

omit hS in
theorem wp_getPayment {id : Uuid} {Q : Except AppError Payment → Store → List Write → Prop}
    (hnone : ∀ c', rely.rel c c' → c'.payments.find id = none →
      ∀ c'', rely.rel c' c'' → Q (.error (.paymentNotFound id)) c'' [])
    (hsome : ∀ c', rely.rel c c' → ∀ row, c'.payments.find id = some row →
      ∀ c'', rely.rel c' c'' → Q (.ok row.toDomain) c'' []) :
    (getPayment id).wp live rely Q c [] := by
  apply Prog.wp_bind
  apply wp_read (f := fun st => st.payments.find id) fun _ _ _ => rfl
  intro c' hc c'' hc'
  rw [Store.after_nil]
  cases hrow : c'.payments.find id with
  | none => exact fun c₃ hc₃ => hnone c' hc hrow c₃ (rely.trans hc' hc₃)
  | some row => exact fun c₃ hc₃ => hsome c' hc row hrow c₃ (rely.trans hc' hc₃)

omit hS in
theorem wp_getLatestRate {base quote : String} {Q : Except AppError FxRate → Store → List Write → Prop}
    (hnone : ∀ c', rely.rel c c' → c'.rates base quote = [] →
      ∀ c'', rely.rel c' c'' → Q (.error (.fxRateNotFound base quote)) c'' ws)
    (hsome : ∀ c', rely.rel c c' → ∀ r, c'.Latest base quote r →
      ∀ c'', rely.rel c' c'' → Q (.ok r.toDomain) c'' ws) :
    (getLatestRate base quote).wp live rely Q c ws := by
  have hrates (c' : Store) : (c'.after ws).rates base quote = c'.rates base quote := by
    rw [Store.rates, c'.after_feed]
    rfl
  apply Prog.wp_bind
  apply wp_query
  · intro _ c' _ now
    by_cases hempty : c'.rates base quote = []
    · have he : Stmt.eval (c'.after ws) now {} (.selectLatestRate base quote) = some (.ok (none, [])) :=
        eval_selectLatestRate.mpr ⟨rfl, rfl, .inr ⟨rfl, (hrates c').trans hempty⟩⟩
      exact ⟨_, by rw [he]; rfl⟩
    · obtain ⟨r, hmem, hlatest⟩ := Store.exists_latest hempty
      rw [← hrates] at hmem hlatest
      have he : Stmt.eval (c'.after ws) now { rate := some r } (.selectLatestRate base quote) =
          some (.ok (some r, [])) :=
        eval_selectLatestRate.mpr ⟨rfl, rfl, .inl ⟨r, rfl, hmem, hlatest⟩⟩
      exact ⟨_, by rw [he]; rfl⟩
  · intro c' hc now ch r new he c'' hc'
    obtain ⟨-, rfl, hr⟩ := eval_selectLatestRate.mp he
    rw [List.append_nil]
    rcases hr with ⟨row, rfl, hmem, hlatest⟩ | ⟨rfl, hempty⟩
    · rw [hrates] at hmem hlatest
      exact fun c₃ hc₃ => hsome c' hc row ⟨hmem, hlatest⟩ c₃ (rely.trans hc' hc₃)
    · rw [hrates] at hempty
      exact fun c₃ hc₃ => hnone c' hc hempty c₃ (rely.trans hc' hc₃)
  · intro c' _ now ch e he
    simp only [Stmt.eval] at he
    split at he
    · split at he <;> cases he
    · split at he <;> cases he

theorem wp_setFxDetails {id rateId : Uuid} {d : Decimal} {n : Numeric 2}
    {Q : Except AppError Unit → Store → List Write → Prop} (hn : Numeric.ofDecimal 2 d = .ok n)
    (hp : c.hasPayment id = true) (hr : c.hasRate rateId = true)
    (h : ∀ c', rely.rel c c' → Q (.ok ()) c' (ws ++ [.setFxDetails id rateId n])) :
    (setFxDetails id rateId d).wp live rely Q c ws := by
  have heval (c' : Store) (hc : rely.rel c c') (now : ℕ) (ch : Choice) :
      Stmt.eval (c'.after ws) now ch (.updateFxDetails id rateId d) =
        some (.ok ((), [.setFxDetails id rateId n])) := by
    have hpayment := (Later.after c' ws).hasPayment ((hS.later hc).hasPayment hp)
    have hrate := (Later.after c' ws).rates rateId ((hS.later hc).rates rateId hr)
    exact eval_updateFxDetails.mpr ⟨n, hn, .inl ⟨hpayment, hrate, rfl⟩⟩
  apply wp_query
  · intro _ c' hc now
    exact ⟨{}, by rw [heval c' hc]; rfl⟩
  · intro c' hc now ch r new he c'' hc'
    rw [heval c' hc] at he
    cases he
    exact h c'' (rely.trans hc hc')
  · intro c' hc now ch e he
    rw [heval c' hc] at he
    cases he

theorem wp_getAccountVersions {rt : Runtime} {ids : List Uuid}
    {Q : Except AppError (List (Uuid × ℕ)) → Store → List Write → Prop} (hids : ∀ id ∈ ids, c.hasAccount id = true)
    (h : ∀ c', rely.rel c c' → ∀ versions, (∀ id ∈ ids, (versions.lookup id).isSome = true) →
      (alone → ∀ id ∈ ids, versions.lookup id = ((c'.after ws).accounts.find id).map Account.version) →
      Q (.ok versions) c' ws) :
    (getAccountVersions rt ids).wp live rely Q c ws := by
  apply Prog.wp_bind
  apply wp_read (f := fun st => st.accountVersions ids) fun _ _ _ => rfl
  intro c' hc c'' hc'
  have hlookup (id : Uuid) (hid : id ∈ ids) : ((c'.after ws).accountVersions ids).lookup id =
      ((c'.after ws).accounts.find id).map Account.version := by
    rw [lookup_accountVersions, if_pos hid]
  have hsome (id : Uuid) (hid : id ∈ ids) : (((c'.after ws).accountVersions ids).lookup id).isSome = true := by
    rw [hlookup id hid, Option.isSome_map]
    have hthere := hids id hid
    rw [← (hS.later hc).hasAccount, ← hasAccount_after c' ws] at hthere
    exact hthere
  have hmissing : ids.filter (fun a => (((c'.after ws).accountVersions ids).lookup a).isNone) = [] := by
    rw [List.filter_eq_nil_iff]
    intro id hid hnone
    rw [Option.isNone_iff_eq_none] at hnone
    have hfound := hsome id hid
    rw [hnone] at hfound
    cases hfound
  have hnil : rt.order.iter [] = [] := by
    rw [List.eq_nil_iff_forall_not_mem]
    intro id hid
    exact absurd ((rt.order.mem_iter [] id).mp hid) (List.not_mem_nil)
  simp only [hmissing, hnil]
  intro c₃ hc₃
  refine h c₃ (rely.trans hc (rely.trans hc' hc₃)) _ hsome ?_
  intro halone id hid
  rw [hS.still halone hc₃, hS.still halone hc']
  exact hlookup id hid

theorem wp_insertLines {entryId : Uuid} {lines : List JournalLine}
    {Q : Except AppError Unit → Store → List Write → Prop}
    (hnew : ∀ line ∈ lines, ∃ row, JournalLineRow.new entryId line = .ok row)
    (haccounts : ∀ line ∈ lines, c.hasAccount line.accountId = true)
    (hentry : ∀ c' : Store, (c'.after ws).hasEntry entryId = true)
    (h : ∀ c', rely.rel c c' → ∀ new, (∀ w ∈ new, w.posts = true) → Q (.ok ()) c' (ws ++ new)) :
    (insertLines entryId lines).wp live rely Q c ws := by
  induction lines generalizing c ws with
  | nil =>
    intro c' hc
    have hend := h c' hc [] (by simp)
    rwa [List.append_nil] at hend
  | cons line lines ih =>
    obtain ⟨row, hrow⟩ := hnew line List.mem_cons_self
    have heval (c' : Store) (hc : rely.rel c c') (now : ℕ) (ch : Choice) :
        Stmt.eval (c'.after ws) now ch (.insertLine entryId line) = some (.ok ((), [.insertLine row])) := by
      have haccount := haccounts line List.mem_cons_self
      rw [← (hS.later hc).hasAccount, ← hasAccount_after c' ws] at haccount
      exact eval_insertLine.mpr ⟨hentry c', haccount, row, hrow, rfl⟩
    apply Prog.wp_bind
    apply wp_query
    · intro _ c' hc now
      exact ⟨{}, by rw [heval c' hc]; rfl⟩
    · intro c' hc now ch r new he c'' hc'
      rw [heval c' hc] at he
      cases he
      have hlater := rely.trans hc hc'
      apply ih
      · exact fun l hl => hnew l (List.mem_cons_of_mem _ hl)
      · intro l hl
        rw [(hS.later hlater).hasAccount]
        exact haccounts l (List.mem_cons_of_mem _ hl)
      · intro c₃
        rw [c₃.after_append]
        exact hasEntry_kept _ (hentry c₃)
      · intro c₃ hc₃ new hposts
        have hend := h c₃ (rely.trans hlater hc₃) (.insertLine row :: new)
          (List.forall_mem_cons.mpr ⟨rfl, hposts⟩)
        rwa [List.append_assoc]
    · intro c' hc now ch e he
      rw [heval c' hc] at he
      cases he

theorem wp_insertJournalEntry {entry : JournalEntry} {Q : Except AppError Uuid → Store → List Write → Prop}
    (hroom : live → (c.after ws).journalEntries.rows.length < 2 ^ 128)
    (htype : varchar 30 entry.entryType = .ok entry.entryType) (hkey : entry.idempotencyKeyId = none)
    (hpayment : ∀ id ∈ entry.paymentId, c.hasPayment id = true)
    (hnew : ∀ entryId, ∀ line ∈ entry.lines, ∃ row, JournalLineRow.new entryId line = .ok row)
    (haccounts : ∀ line ∈ entry.lines, c.hasAccount line.accountId = true)
    (h : ∀ c', rely.rel c c' → ∀ id new, (∀ w ∈ new, w.posts = true) → Q (.ok id) c' (ws ++ new)) :
    (insertJournalEntry entry).wp live rely Q c ws := by
  have hrow (id : Uuid) : JournalEntryRow.new id entry.entryType entry.paymentId none =
      .ok ⟨id, entry.paymentId, entry.entryType, none⟩ :=
    JournalEntryRow.new_ok.mpr ⟨_, htype, rfl⟩
  have heval (c' : Store) (hc : rely.rel c c') (now : ℕ) (ch : Choice) :
      Stmt.eval (c'.after ws) now ch (.insertEntry entry.entryType entry.paymentId entry.idempotencyKeyId) =
        if (c'.after ws).hasEntry ch.id then none
        else some (.ok (ch.id, [.insertEntry ⟨ch.id, entry.paymentId, entry.entryType, none⟩])) := by
    have hall : entry.paymentId.all (c'.after ws).hasPayment = true := by
      rw [Option.all_eq_true]
      intro id hid
      exact (Later.after c' ws).hasPayment ((hS.later hc).hasPayment (hpayment id hid))
    simp [Stmt.eval, hkey, hrow, hall, references, bind, Except.bind, pure, Except.pure]
  apply Prog.wp_bind
  apply wp_query
  · intro hl c' hc now
    obtain rfl := hS.still (hS.alone hl) hc
    obtain ⟨id, hid⟩ := Table.exists_fresh _ (hroom hl)
    refine ⟨{ id }, ?_⟩
    rw [heval _ hc, Store.hasEntry, hid]
    rfl
  · intro c' hc now ch r new he c'' hc'
    rw [heval c' hc] at he
    split at he
    · cases he
    · cases he
      have hlater := rely.trans hc hc'
      apply Prog.wp_bind
      apply wp_insertLines hS (hnew ch.id)
      · intro line hline
        rw [(hS.later hlater).hasAccount]
        exact haccounts line hline
      · intro c₃
        rw [c₃.after_append]
        exact hasEntry_inserted _ _
      · intro c₃ hc₃ new hposts c₄ hc₄
        have hend := h c₄ (rely.trans hlater (rely.trans hc₃ hc₄)) ch.id
          (.insertEntry ⟨ch.id, entry.paymentId, entry.entryType, none⟩ :: new)
          (List.forall_mem_cons.mpr ⟨rfl, hposts⟩)
        rwa [List.append_assoc]
  · intro c' hc now ch e he
    rw [heval c' hc] at he
    split at he <;> cases he

theorem wp_bumpAccounts {versions : List (Uuid × ℕ)} {ids : List Uuid}
    {Q : Except AppError Bool → Store → List Write → Prop}
    (hnodup : ids.Nodup) (hids : ∀ id ∈ ids, (versions.lookup id).isSome = true)
    (hread : alone → ∀ id ∈ ids, versions.lookup id = ((c.after ws).accounts.find id).map Account.version)
    (h : ∀ c', rely.rel c c' → ∀ b new, (alone → b = true) → (∀ w ∈ new, ∃ id, w = .bumpAccount id) →
      Q (.ok b) c' (ws ++ new)) :
    (bumpAccounts versions ids).wp live rely Q c ws := by
  induction ids generalizing c ws with
  | nil =>
    intro c' hc
    have hend := h c' hc true [] (fun _ => rfl) (by simp)
    rwa [List.append_nil] at hend
  | cons id ids ih =>
    obtain ⟨v, hv⟩ := Option.isSome_iff_exists.mp (hids id List.mem_cons_self)
    rw [bumpAccounts, hv]
    apply Prog.wp_bind
    apply wp_query
    · intro _ c' _ now
      refine ⟨{}, ?_⟩
      simp only [Stmt.eval]
      split
      · split <;> rfl
      · rfl
    · intro c' hc now ch r new he c'' hc'
      have hlater := rely.trans hc hc'
      rcases eval_updateAccountVersion.mp he with ⟨rfl, rfl, -⟩ | ⟨rfl, rfl, hmoved⟩
      · apply ih (List.nodup_cons.mp hnodup).2 (fun a ha => hids a (List.mem_cons_of_mem _ ha))
        · intro halone a ha
          obtain rfl := hS.still halone hlater
          have hne : a ≠ id := by
            rintro rfl
            exact (List.nodup_cons.mp hnodup).1 ha
          have hframe :
              ((c''.after ws).after [.bumpAccount id]).accounts.find a = (c''.after ws).accounts.find a := by
            apply account_frame
            intro hlock
            exact hne (RowKey.account.inj (Option.some.inj hlock)).symm
          rw [c''.after_append, hframe]
          exact hread halone a (List.mem_cons_of_mem _ ha)
        · intro c₃ hc₃ b new hb hnew
          have hend := h c₃ (rely.trans hlater hc₃) b (.bumpAccount id :: new) hb
            (List.forall_mem_cons.mpr ⟨⟨id, rfl⟩, hnew⟩)
          rwa [List.append_assoc]
      · intro c₃ hc₃
        refine h c₃ (rely.trans hlater hc₃) false [] ?_ (by simp)
        intro halone
        obtain rfl := hS.still halone hc
        have hthere := hread halone id List.mem_cons_self
        rw [hv] at hthere
        obtain ⟨a, ha, hversion⟩ := Option.map_eq_some_iff.mp hthere.symm
        exact absurd hversion (hmoved a ha)
    · intro c' _ now ch e he
      simp only [Stmt.eval] at he
      split at he
      · split at he <;> cases he
      · cases he

theorem wp_updatePaymentStatus {id : Uuid} {v : ℕ} {status : PaymentStatus}
    {Q : Except AppError Bool → Store → List Write → Prop}
    (hread : alone → ∃ row, (c.after ws).payments.find id = some row ∧ row.version = v)
    (h : ∀ c', rely.rel c c' → ∀ b, (alone → b = true) →
      Q (.ok b) c' (ws ++ if b then [.setStatus id status] else [])) :
    (updatePaymentStatus id v status).wp live rely Q c ws := by
  apply wp_query
  · intro _ c' _ now
    refine ⟨{}, ?_⟩
    simp only [Stmt.eval]
    split
    · split <;> rfl
    · rfl
  · intro c' hc now ch r new he c'' hc'
    rcases eval_updatePaymentStatus.mp he with ⟨rfl, rfl, -⟩ | ⟨rfl, rfl, hmoved⟩
    · exact h c'' (rely.trans hc hc') true fun _ => rfl
    · refine h c'' (rely.trans hc hc') false ?_
      intro halone
      obtain rfl := hS.still halone hc
      obtain ⟨row, hrow, hversion⟩ := hread halone
      exact absurd hversion (hmoved row hrow)
  · intro c' _ now ch e he
    simp only [Stmt.eval] at he
    split at he
    · split at he <;> cases he
    · cases he

omit hS in
theorem wp_recordStatusTransition {id : Uuid} {fromStatus : Option PaymentStatus} {toStatus : PaymentStatus}
    {reason : Option PyStr} {Q : Except AppError Unit → Store → List Write → Prop}
    (hp : ∀ c', rely.rel c c' → (c'.after ws).hasPayment id = true) (hreason : ∃ r, nullable pyText reason = .ok r)
    (h : ∀ c', rely.rel c c' → ∀ row, Q (.ok ()) c' (ws ++ [.insertHistory row])) :
    (recordStatusTransition id fromStatus toStatus reason).wp live rely Q c ws := by
  obtain ⟨r, hr⟩ := hreason
  have heval (c' : Store) (hc : rely.rel c c') (now : ℕ) (ch : Choice) :
      Stmt.eval (c'.after ws) now ch (.insertHistory id fromStatus toStatus reason) =
        some (.ok ((), [.insertHistory ⟨id, fromStatus, toStatus, now, r⟩])) :=
    eval_insertHistory.mpr ⟨hp c' hc, _, StatusHistoryRow.new_ok.mpr ⟨r, hr, rfl⟩, rfl⟩
  apply wp_query
  · intro _ c' hc now
    exact ⟨{}, by rw [heval c' hc]; rfl⟩
  · intro c' hc now ch r' new he c'' hc'
    rw [heval c' hc] at he
    cases he
    exact h c'' (rely.trans hc hc') _
  · intro c' hc now ch e he
    rw [heval c' hc] at he
    cases he

theorem wp_enqueueDeliveries {id : Uuid} {eventType : String} {payload : PyDict} {subs : List WebhookSubscription}
    {Q : Except AppError Unit → Store → List Write → Prop} (htype : varchar 50 eventType = .ok eventType)
    (hroom : live → (c.after ws).webhookDeliveries.rows.length + subs.length ≤ 2 ^ 128)
    (hp : ∀ c', rely.rel c c' → (c'.after ws).hasPayment id = true)
    (hsubs : ∀ s ∈ subs, c.hasSubscription s.id = true)
    (h : ∀ c', rely.rel c c' → ∀ new, (∀ w ∈ new, ∃ d, w = .insertDelivery d) → Q (.ok ()) c' (ws ++ new)) :
    (enqueueDeliveries id eventType payload subs).wp live rely Q c ws := by
  induction subs generalizing c ws with
  | nil =>
    intro c' hc
    have hend := h c' hc [] (by simp)
    rwa [List.append_nil] at hend
  | cons s subs ih =>
    by_cases hwants : s.wants eventType = true
    · have heval (c' : Store) (hc : rely.rel c c') (now : ℕ) (ch : Choice) :
          Stmt.eval (c'.after ws) now ch (.insertDelivery s.id (some id) eventType payload) =
            if (c'.after ws).hasDelivery ch.id then none
            else some (.ok (ch.id,
              [.insertDelivery ⟨ch.id, s.id, some id, eventType, payload.json, .pending, 0, now, none⟩])) := by
        have hsub :=
          (Later.after c' ws).subscriptions s.id ((hS.later hc).subscriptions s.id (hsubs s List.mem_cons_self))
        have hrow : WebhookDeliveryRow.new ch.id s.id (some id) eventType payload now =
            .ok ⟨ch.id, s.id, some id, eventType, payload.json, .pending, 0, now, none⟩ :=
          WebhookDeliveryRow.new_ok.mpr ⟨_, htype, rfl⟩
        have hpayment := hp c' hc
        simp [Stmt.eval, hrow, hsub, hpayment, references, bind, Except.bind, pure, Except.pure]
      simp only [enqueueDeliveries, hwants, if_true]
      apply Prog.wp_bind
      apply wp_query
      · intro hl c' hc now
        obtain rfl := hS.still (hS.alone hl) hc
        have hlt : (c'.after ws).webhookDeliveries.rows.length < 2 ^ 128 := by
          have hle := hroom hl
          rw [List.length_cons] at hle
          omega
        obtain ⟨fresh, hfresh⟩ := Table.exists_fresh _ hlt
        refine ⟨{ id := fresh }, ?_⟩
        rw [heval _ hc, Store.hasDelivery, hfresh]
        rfl
      · intro c' hc now ch r new he c'' hc'
        rw [heval c' hc] at he
        split at he
        · cases he
        · cases he
          have hlater := rely.trans hc hc'
          apply ih
          · intro hl
            obtain rfl := hS.still (hS.alone hl) hlater
            have hle := hroom hl
            rw [List.length_cons] at hle
            have hgrown := rows_insert_le (c''.after ws).webhookDeliveries
              ⟨ch.id, s.id, some id, eventType, payload.json, .pending, 0, now, none⟩
            rw [c''.after_append]
            show ((c''.after ws).webhookDeliveries.insert _).rows.length + subs.length ≤ 2 ^ 128
            omega
          · intro c₃ hc₃
            rw [c₃.after_append]
            exact (Later.after _ _).hasPayment (hp c₃ (rely.trans hlater hc₃))
          · intro s' hs'
            exact (hS.later hlater).subscriptions s'.id (hsubs s' (List.mem_cons_of_mem _ hs'))
          · intro c₃ hc₃ new hnew
            have hend := h c₃ (rely.trans hlater hc₃) (.insertDelivery
              ⟨ch.id, s.id, some id, eventType, payload.json, .pending, 0, now, none⟩ :: new)
              (List.forall_mem_cons.mpr ⟨⟨_, rfl⟩, hnew⟩)
            rwa [List.append_assoc]
      · intro c' hc now ch e he
        rw [heval c' hc] at he
        split at he <;> cases he
    · simp only [enqueueDeliveries, hwants, Bool.false_eq_true, if_false]
      apply ih
      · intro hl
        have hle := hroom hl
        rw [List.length_cons] at hle
        omega
      · exact hp
      · exact fun s' hs' => hsubs s' (List.mem_cons_of_mem _ hs')
      · exact h

theorem wp_enqueuePaymentWebhookEvent {id : Uuid} {eventType : String} {payload : PyDict}
    {Q : Except AppError Unit → Store → List Write → Prop} (htype : varchar 50 eventType = .ok eventType)
    (hroom : live → (c.after ws).webhookDeliveries.rows.length + c.activeSubscriptions.length ≤ 2 ^ 128)
    (hp : ∀ c', rely.rel c c' → (c'.after ws).hasPayment id = true)
    (h : ∀ c', rely.rel c c' → ∀ new, (∀ w ∈ new, ∃ d, w = .insertDelivery d) → Q (.ok ()) c' (ws ++ new)) :
    (enqueuePaymentWebhookEvent id eventType payload).wp live rely Q c ws := by
  have hactive (c' : Store) : (c'.after ws).activeSubscriptions = c'.activeSubscriptions := by
    rw [Store.activeSubscriptions, c'.after_feed]
    rfl
  apply Prog.wp_bind
  apply wp_query
  · intro _ c' _ now
    have he : Stmt.eval (c'.after ws) now { subscriptions := c'.activeSubscriptions } .selectActiveSubscriptions =
        some (.ok (c'.activeSubscriptions, [])) := by
      apply eval_selectActiveSubscriptions.mpr
      rw [hactive]
      exact ⟨rfl, .refl _, rfl⟩
    exact ⟨_, by rw [he]; rfl⟩
  · intro c' hc now ch r new he c'' hc'
    obtain ⟨-, hperm, rfl⟩ := eval_selectActiveSubscriptions.mp he
    rw [hactive] at hperm
    rw [List.append_nil]
    have hlater := rely.trans hc hc'
    apply wp_enqueueDeliveries hS htype
    · intro hl
      obtain rfl := hS.still (hS.alone hl) hlater
      obtain rfl := hS.still (hS.alone hl) hc
      rw [hperm.length_eq]
      exact hroom hl
    · exact fun c₃ hc₃ => hp c₃ (rely.trans hlater hc₃)
    · intro s hs
      apply (hS.later hc').subscriptions
      have hmem := hperm.mem_iff.mp hs
      rw [Store.activeSubscriptions, List.mem_filter] at hmem
      rw [Store.hasSubscription, Table.find_of_mem hmem.1]
      rfl
    · exact fun c₃ hc₃ => h c₃ (rely.trans hlater hc₃)
  · intro c' _ now ch e he
    simp only [Stmt.eval] at he
    split at he <;> cases he

omit hS in
/-- A block that is tried again while it meets conflicts, which it only does where others commit. -/
theorem wp_retry {α : Type} {attempt : App (Option α)} {exhausted : AppError} {n : ℕ}
    {Q : Except AppError α → Store → List Write → Prop}
    (hattempt : ∀ c', rely.rel c c' → attempt.wp live rely (fun r c'' _ => match r with
      | .ok (some a) => ∀ c₃, rely.rel c'' c₃ → Q (.ok a) c₃ []
      | .ok none => ¬alone ∧ rely.rel c' c''
      | .error e => Q (.error e) c'' []) c' [])
    (hexhausted : (alone → n = 0) → ∀ c', rely.rel c c' → Q (.error exhausted) c' []) :
    (retry attempt exhausted n).wp live rely Q c [] := by
  induction n generalizing c with
  | zero => exact fun c' hc => hexhausted (fun _ => rfl) c' hc
  | succ n ih =>
    rw [retry]
    apply Prog.wp_bind
    apply Prog.wp_uow
    apply Prog.wp_mono _ (hattempt c (rely.refl c))
    intro r c'' ws hr
    cases r with
    | error e => exact hr
    | ok o =>
      cases o with
      | some a => exact hr
      | none =>
        obtain ⟨halone, hc⟩ := hr
        apply ih
        · exact fun c' hc' => hattempt c' (rely.trans hc hc')
        · intro _ c' hc'
          exact hexhausted (fun h => absurd h halone) c' (rely.trans hc hc')

end Rules
section Alone

/-- The call, with no other beside it, ends so on this store. -/
def Outcome (rt : Runtime) (st : Store) (call : Call) (r : Except AppError Value) (st' : Store) : Prop :=
  ∃ σ, Reachable rt (fun _ _ => False) st (fun _ : Unit => call) σ ∧ (σ.session ()).result = some r ∧
  σ.world.store = st'

/-- The call, with no other beside it, can run to its end from wherever it has got without a crash. -/
def Completes (rt : Runtime) (st : Store) (call : Call) : Prop :=
  ∀ σ, Reachable rt (fun _ _ => False) st (fun _ : Unit => call) σ → (σ.session ()).prog.isSome = true →
    ∃ σ', Reaches (feedEnv fun _ _ => False) σ σ' ∧ (σ'.session ()).result.isSome = true

variable {live : Prop} {rt : Runtime} {st : Store} {call : Call}
    {Q : Except AppError Value → Store → List Write → Prop}

theorem satisfies_alone (h : (call.prog rt).wp live (.alone postgres) Q st []) {σ : Config postgres Unit Value}
    (hr : Reachable rt (fun _ _ => False) st (fun _ : Unit => call) σ) :
    σ.Satisfies live (.alone postgres) (fun _ => Q) () := by
  obtain ⟨clock, hr⟩ := hr
  induction hr with
  | refl =>
    intro p hp
    obtain rfl := Option.some.inj hp
    exact h
  | tail _ hs ih =>
    refine hs.satisfies_alone ?_ (fun i => rfl) ih
    rintro st st' ⟨f, hf, -⟩
    exact hf

theorem outcome_of_wp (h : (call.prog rt).wp live (.alone postgres) Q st [])
    {r : Except AppError Value} {st' : Store}
    (ho : Outcome rt st call r st') : ∃ ws, Q r st' ws := by
  obtain ⟨σ, hr, hresult, rfl⟩ := ho
  exact ⟨_, (satisfies_alone h hr).result hresult⟩

theorem completes_of_wp (h : (call.prog rt).wp live (.alone postgres) Q st []) (hlive : live) :
    Completes rt st call := by
  intro σ hr hp
  obtain ⟨p, hp⟩ := Option.isSome_iff_exists.mp hp
  exact (satisfies_alone h hr).ends hlive hp fun j hj => absurd rfl hj

end Alone
end PaymentLedger
