import PaymentLedger.Ledger.Tables

namespace PaymentLedger

def Call.idempotencyKey : Call → Option String
  | .initiatePaymentIdempotent key _ _ => some key
  | _ => none

theorem idempotencyKey_eq {call : Call} {key : String} :
    call.idempotencyKey = some key ↔ ∃ body req, call = .initiatePaymentIdempotent key body req := by
  cases call <;> simp [Call.idempotencyKey]

/-- The payments that a transaction creates. -/
def paymentsCreated (tx : List (Event postgres)) : List PaymentRow :=
  (writesOf (D := postgres) tx).filterMap Write.paymentRow

/-- The payments that the calls with this key have committed. -/
def paymentsBy {ι : Type} (calls : ι → Call) (key : String) (log : List (Commit postgres ι)) : List PaymentRow :=
  log.flatMap fun c => if (calls c.caller).idempotencyKey = some key then paymentsCreated c.tx else []

def IdempotencyKeyRow.complete (row : IdempotencyKeyRow) (code : ℕ) (body : PyDict) : IdempotencyKeyRow :=
  { row with status := .completed, responseStatusCode := some code, responseBody := some body }

namespace Deed

/-- What becomes of the row of a key. -/
def keyRow (d : Deed) (k : String × String) (old : Option IdempotencyKeyRow) : Option IdempotencyKeyRow :=
  match d with
  | initiate _ _ _ (some x) =>
    old.map fun row => if k = (idempotencyEndpointInitiatePayment, x.1) then row.complete 201 x.2 else row
  | claim (some row) => if (row.endpoint, row.key) = k then some row else old
  | _ => old

section Effects

variable {rt : Runtime} {st : Store} {now : ℕ} {d : Deed}

theorem keyRow_effect (h : d.Legal rt st now) (k : String × String) :
    (st.after (d.writes now)).idempotencyKeys.find k = d.keyRow k (st.idempotencyKeys.find k) := by
  cases d with
  | initiate row subs ds completion =>
    rw [writes, Store.after_cons, Store.after_cons, Store.after_append]
    have hframe (st : Store) : (st.after (ds.map Write.insertDelivery)).idempotencyKeys.find k =
        st.idempotencyKeys.find k := by
      apply key_after
      intro w hw
      obtain ⟨x, -, rfl⟩ := List.mem_map.mp hw
      simp [Write.locked]
    cases completion with
    | none => exact hframe _
    | some x =>
      show (Write.apply _ _).idempotencyKeys.find k = _
      simp only [Write.apply, Write.onKeys, Table.find_modify, hframe, keyRow]
      rfl
  | claim key =>
    cases key with
    | none => rfl
    | some row => exact Table.find_insert (h row rfl) k
  | transition row toStatus reason fx posting subs ds =>
    apply key_after
    intro w hw
    simp only [writes, List.mem_append, List.mem_flatMap, List.mem_cons, List.mem_map] at hw
    rcases hw with hw | ⟨x, -, hw⟩ | rfl | rfl | ⟨x, -, rfl⟩
    · obtain ⟨x, -, rfl⟩ := List.mem_map.mp hw
      simp [Write.locked]
    · simp only [Posting.writes, List.mem_cons, List.mem_append, List.mem_map] at hw
      rcases hw with rfl | ⟨l, -, rfl⟩ | ⟨a, -, rfl⟩ <;> simp [Write.locked]
    · simp [Write.locked]
    · simp [Write.locked]
    · simp [Write.locked]
  | post entry posting =>
    apply key_after
    intro w hw
    simp only [writes, Posting.writes, List.mem_cons, List.mem_append, List.mem_map] at hw
    rcases hw with rfl | ⟨l, -, rfl⟩ | ⟨a, -, rfl⟩ <;> simp [Write.locked]
  | reconcile ws =>
    apply key_after
    intro w hw
    have hrec := h w hw
    cases w <;> simp [Write.locked, Write.ofReconciliation] at hrec ⊢

theorem keyRow_isSome {k : String × String} {old : Option IdempotencyKeyRow} (h : old.isSome = true) :
    (d.keyRow k old).isSome = true := by
  unfold keyRow
  split
  · simpa using h
  · split
    · rfl
    · exact h
  · exact h

/-- Only a claim inserts a key. -/
theorem claimed_of_mem (h : d.Legal rt st now) {row : IdempotencyKeyRow} (hw : .insertKey row ∈ d.writes now) :
    d = claim (some row) := by
  cases d with
  | claim key =>
    cases key with
    | none => simp [writes] at hw
    | some row' =>
      have hrow : row = row' := by simpa [writes] using hw
      rw [hrow]
  | initiate row' subs ds completion => simp [writes] at hw
  | transition row' toStatus reason fx posting subs ds => simp [writes, fxWrites, Posting.writes] at hw
  | post entry posting => simp [writes, Posting.writes] at hw
  | reconcile ws => exact absurd (h _ hw) (by simp [Write.ofReconciliation])

/-- Only the transaction that creates the payment completes a key. -/
theorem completed_of_mem (h : d.Legal rt st now) {endpoint key : String} {code : ℕ} {body : PyDict}
    (hw : .completeKey endpoint key code body ∈ d.writes now) :
    ∃ row subs ds, d = initiate row subs ds (some (key, body)) ∧
      endpoint = idempotencyEndpointInitiatePayment ∧ code = 201 := by
  cases d with
  | initiate row subs ds completion =>
    cases completion with
    | none => simp [writes] at hw
    | some x =>
      obtain ⟨x₁, x₂⟩ := x
      have hx : endpoint = idempotencyEndpointInitiatePayment ∧ key = x₁ ∧ code = 201 ∧ body = x₂ := by
        simpa [writes] using hw
      obtain ⟨rfl, rfl, rfl, rfl⟩ := hx
      exact ⟨row, subs, ds, rfl, rfl, rfl⟩
  | claim key => simp [writes] at hw
  | transition row' toStatus reason fx posting subs ds => simp [writes, fxWrites, Posting.writes] at hw
  | post entry posting => simp [writes, Posting.writes] at hw
  | reconcile ws => exact absurd (h _ hw) (by simp [Write.ofReconciliation])

/-- A claim is made by an idempotent call, under its key and with the hash of its request. -/
theorem Of.claimed {call : Call} {v : Option Value} {row : IdempotencyKeyRow}
    (h : (claim (some row)).Of rt st now call v) : ∃ key body req id,
      call = .initiatePaymentIdempotent key body req ∧
        IdempotencyKeyRow.new id key idempotencyEndpointInitiatePayment (rt.hashRequestBody body) = .ok row := by
  cases call with
  | initiatePaymentIdempotent key body req =>
    rcases h with ⟨claimed, hd, -, hnew⟩ | ⟨p, subs, ds, completion, hd, -⟩
    · obtain rfl : some row = claimed := Deed.claim.inj hd
      obtain ⟨⟨id, hid⟩, -⟩ := hnew row rfl
      exact ⟨key, body, req, id, rfl, hid⟩
    · cases hd
  | initiatePayment req =>
    obtain ⟨p, subs, ds, hd, -⟩ := h
    cases hd
  | authorisePayment id n =>
    obtain ⟨p, reason, subs, ds, hd, -⟩ := h
    cases hd
  | failPayment id reason n =>
    obtain ⟨p, reason, subs, ds, hd, -⟩ := h
    cases hd
  | settlePayment id n =>
    obtain ⟨p, reason, fx, entry, posting, subs, ds, hd, -⟩ := h
    cases hd
  | reversePayment id n =>
    obtain ⟨p, reason, fx, entry, posting, subs, ds, hd, -⟩ := h
    cases hd
  | postJournalEntry entry n =>
    obtain ⟨posting, hd, -⟩ := h
    cases hd
  | runReconciliation batchId records windowStart windowEnd =>
    obtain ⟨ws, runId, result, hd, -⟩ := h
    cases hd

/-- A key is completed by the idempotent call that carries it, with the response it returns. -/
theorem Of.completed {call : Call} {v : Option Value} {row : PaymentRow} {subs : List WebhookSubscription}
    {ds : List WebhookDeliveryRow} {key : String} {response : PyDict}
    (h : (initiate row subs ds (some (key, response))).Of rt st now call v) :
    (∃ body req, call = .initiatePaymentIdempotent key body req) ∧
      response = (paymentResponseDict row.toDomain).json := by
  cases call with
  | initiatePaymentIdempotent key' body req =>
    rcases h with ⟨claimed, hd, -⟩ | ⟨p, subs', ds', completion, hd, -, -, hx⟩
    · cases hd
    · obtain ⟨rfl, -, -, rfl⟩ := Deed.initiate.inj hd
      obtain ⟨hpair, -⟩ := hx _ rfl
      obtain ⟨rfl, rfl⟩ := Prod.mk.inj hpair
      exact ⟨⟨body, req, rfl⟩, rfl⟩
  | initiatePayment req =>
    obtain ⟨p, subs, ds, hd, -⟩ := h
    cases hd
  | authorisePayment id n =>
    obtain ⟨p, reason, subs, ds, hd, -⟩ := h
    cases hd
  | failPayment id reason n =>
    obtain ⟨p, reason, subs, ds, hd, -⟩ := h
    cases hd
  | settlePayment id n =>
    obtain ⟨p, reason, fx, entry, posting, subs, ds, hd, -⟩ := h
    cases hd
  | reversePayment id n =>
    obtain ⟨p, reason, fx, entry, posting, subs, ds, hd, -⟩ := h
    cases hd
  | postJournalEntry entry n =>
    obtain ⟨posting, hd, -⟩ := h
    cases hd
  | runReconciliation batchId records windowStart windowEnd =>
    obtain ⟨ws, runId, result, hd, -⟩ := h
    cases hd

theorem paymentRows_initiate (row : PaymentRow) (subs : List WebhookSubscription) (ds : List WebhookDeliveryRow)
    (completion : Option (String × PyDict)) :
    ((initiate row subs ds completion).writes now).filterMap Write.paymentRow = [row] := by
  have hds : (ds.map Write.insertDelivery).filterMap Write.paymentRow = [] :=
    filterMap_map_none Write.paymentRow (fun _ => rfl) ds
  have hcompletion : (completion.toList.map fun x => Write.completeKey idempotencyEndpointInitiatePayment x.1 201
      x.2).filterMap Write.paymentRow = [] := filterMap_map_none Write.paymentRow (fun _ => rfl) _
  rw [writes, List.filterMap_cons, List.filterMap_cons, List.filterMap_append, hds, hcompletion]
  rfl

end Effects
end Deed

theorem json_json (d : PyDict) : d.json.json = d.json := by
  have hvalue (v : PyValue) : v.json.json = v.json := by cases v <;> rfl
  simp [PyDict.json, hvalue]

section Log

variable {ι : Type} {rt : Runtime} {step : Feed → Feed → Prop} {st₀ : Store} {calls : ι → Call}
  {σ : Config postgres ι Value}

/-- What the log says about the keys of a store: each was claimed once, with the hash it has, and a
completed one holds the response that a commit has written. -/
structure KeysLogged (log : List (Commit postgres ι)) (st : Store) : Prop where
  claimed : ∀ c ∈ log, ∀ row, .insertKey row ∈ writesOf c.tx →
    (st.idempotencyKeys.find (row.endpoint, row.key)).isSome = true
  distinct : log.Pairwise fun c c' => ∀ row row', .insertKey row ∈ writesOf c.tx →
    .insertKey row' ∈ writesOf c'.tx → (row.endpoint, row.key) ≠ (row'.endpoint, row'.key)
  hashed : ∀ k row, st.idempotencyKeys.find k = some row → ∃ c ∈ log, ∃ row₀,
    .insertKey row₀ ∈ writesOf c.tx ∧ (row₀.endpoint, row₀.key) = k ∧ row₀.requestHash = row.requestHash
  completed : ∀ k row, st.idempotencyKeys.find k = some row → row.status = .completed → ∃ c ∈ log,
    ∃ code body, .completeKey k.1 k.2 code body ∈ writesOf c.tx ∧ row.responseStatusCode = some code ∧
      row.responseBody = some body

theorem KeysLogged.commit {l : List (Commit postgres ι)} {c : Commit postgres ι} {v : Option Value} {d : Deed}
    (h : KeysLogged l c.before) (hd : c.Does rt calls v d) :
    KeysLogged (l ++ [c]) (c.before.after (d.writes c.began)) := by
  have hlegal := hd.deed.legal
  have hwrites := hd.writes
  have hlast : c ∈ l ++ [c] := by simp
  have hold {c' : Commit postgres ι} (hc' : c' ∈ l) : c' ∈ l ++ [c] := List.mem_append_left _ hc'
  refine ⟨?_, ?_, ?_, ?_⟩
  · intro c' hc' row hrow
    rw [Deed.keyRow_effect hlegal]
    rcases List.mem_append.mp hc' with hc' | hc'
    · exact Deed.keyRow_isSome (h.claimed c' hc' row hrow)
    · obtain rfl := List.mem_singleton.mp hc'
      rw [hwrites] at hrow
      rw [Deed.claimed_of_mem hlegal hrow, Deed.keyRow, if_pos rfl]
      rfl
  · rw [List.pairwise_append]
    refine ⟨h.distinct, List.pairwise_singleton _ _, ?_⟩
    intro c' hc' c'' hc'' row row' hrow hrow' hkey
    obtain rfl := List.mem_singleton.mp hc''
    rw [hwrites] at hrow'
    have hclaim := Deed.claimed_of_mem hlegal hrow'
    have hsome := h.claimed c' hc' row hrow
    rw [hclaim] at hlegal
    rw [hkey, hlegal row' rfl] at hsome
    cases hsome
  · intro k row hrow
    rw [Deed.keyRow_effect hlegal] at hrow
    have hbefore : (∃ row', c.before.idempotencyKeys.find k = some row' ∧ row'.requestHash = row.requestHash) ∨
        (d = .claim (some row) ∧ (row.endpoint, row.key) = k) := by
      unfold Deed.keyRow at hrow
      split at hrow
      · obtain ⟨row', hrow', rfl⟩ := Option.map_eq_some_iff.mp hrow
        refine .inl ⟨row', hrow', ?_⟩
        split <;> rfl
      · split at hrow
        · rename_i hk
          obtain rfl := Option.some.inj hrow
          exact .inr ⟨rfl, hk⟩
        · exact .inl ⟨row, hrow, rfl⟩
      · exact .inl ⟨row, hrow, rfl⟩
    rcases hbefore with ⟨row', hrow', hhash⟩ | ⟨rfl, hk⟩
    · obtain ⟨c', hc', row₀, h₀, hk, hhash'⟩ := h.hashed k row' hrow'
      exact ⟨c', hold hc', row₀, h₀, hk, hhash'.trans hhash⟩
    · refine ⟨c, hlast, row, ?_, hk, rfl⟩
      rw [hwrites]
      simp [Deed.writes]
  · intro k row hrow hstatus
    rw [Deed.keyRow_effect hlegal] at hrow
    have hbefore : c.before.idempotencyKeys.find k = some row ∨ ∃ p subs ds x,
        d = .initiate p subs ds (some x) ∧ k = (idempotencyEndpointInitiatePayment, x.1) ∧
          row.responseStatusCode = some 201 ∧ row.responseBody = some x.2 := by
      unfold Deed.keyRow at hrow
      split at hrow
      · obtain ⟨row', hrow', hcomplete⟩ := Option.map_eq_some_iff.mp hrow
        split at hcomplete
        · rename_i hk
          rw [← hcomplete]
          exact .inr ⟨_, _, _, _, rfl, hk, rfl, rfl⟩
        · rw [← hcomplete]
          exact .inl hrow'
      · split at hrow
        · obtain rfl := Option.some.inj hrow
          obtain ⟨key, body, req, id, -, hnew⟩ := hd.deed.claimed
          obtain ⟨_, -, _, -, _, -, hrow'⟩ := IdempotencyKeyRow.new_ok.mp hnew
          rw [hrow'] at hstatus
          cases hstatus
        · exact .inl hrow
      · exact .inl hrow
    rcases hbefore with hrow' | ⟨p, subs, ds, x, rfl, rfl, hcode, hbody⟩
    · obtain ⟨c', hc', code, body, hw, hcode, hbody⟩ := h.completed k row hrow' hstatus
      exact ⟨c', hold hc', code, body, hw, hcode, hbody⟩
    · refine ⟨c, hlast, 201, x.2, ?_, hcode, hbody⟩
      rw [hwrites]
      simp [Deed.writes]

end Log

section Run

variable {ι : Type} [DecidableEq ι] {rt : Runtime} {step : Feed → Feed → Prop} {st₀ : Store}
  {calls : ι → Call} {σ : Config postgres ι Value}

theorem WellFormed.keysLogged (h : WellFormed (feedEnv step) st₀ (fun i => (calls i).prog rt) σ)
    (h₀ : st₀.idempotencyKeys.rows = []) {log : List (Commit postgres ι)} {st : Store}
    (hlog : log <+: σ.world.log) (hst : History (feedEnv step) st₀ log st) : KeysLogged log st := by
  have hnone (k : String × String) : st₀.idempotencyKeys.find k = none := by simp [Table.find, h₀]
  apply h.invariant_past KeysLogged _ _ _ hlog hst
  · refine ⟨by simp, .nil, ?_, ?_⟩
    · intro k row hrow
      rw [hnone] at hrow
      cases hrow
    · intro k row hrow
      rw [hnone] at hrow
      cases hrow
  · intro l st f hk
    exact ⟨hk.claimed, hk.distinct, hk.hashed, hk.completed⟩
  · intro l c v d hd hk
    exact hk.commit hd

/-- What an idempotent call has committed: nothing, a claim, or a claim that started and the payment. -/
theorem WellFormed.idempotent_own (h : WellFormed (feedEnv step) st₀ (fun i => (calls i).prog rt) σ) {i : ι}
    {key : String} {body : PyDict} {req : NewPayment} (hc : calls i = .initiatePaymentIdempotent key body req) :
    ownOf i σ.world.log = [] ∨
      (∃ t outcome, ownOf i σ.world.log = [t] ∧ Path (claimBlock rt key body req) t (.commit (.ret outcome))) ∨
      ∃ t t' r, ownOf i σ.world.log = [t, t'] ∧ Path (claimBlock rt key body req) t (.commit (.ret .started)) ∧
        Path (completeBlock key req) t' (.commit (.ret r)) := by
  obtain ⟨done, tx, p, ht, hd, -⟩ := h.trace i
  simp only [hc] at ht
  have hcommit (xs : List (List (Event postgres))) {ys : List (List (Event postgres))} {t : List (Event postgres)}
      (hs : ownOf i σ.world.log = xs ++ t :: ys) :
      (xs = [] ∧ ∃ outcome, Path (claimBlock rt key body req) t (.commit (.ret outcome))) ∨
        ∃ t₁ r, xs = [t₁] ∧ Path (claimBlock rt key body req) t₁ (.commit (.ret .started)) ∧
          Path (completeBlock key req) t (.commit (.ret r)) := by
    obtain ⟨l, l', hl, hxs⟩ := committedOf_split (hd.trans hs)
    have hk := Contract.commit_of_trace (call_idempotent rt key body req) ht hl
    rw [← hxs]
    exact hk
  cases hown : ownOf i σ.world.log with
  | nil => exact .inl rfl
  | cons t rest =>
    right
    cases rest with
    | nil =>
      rcases hcommit [] hown with ⟨-, outcome, hp⟩ | ⟨t₁, r, hx, -⟩
      · exact .inl ⟨t, outcome, rfl, hp⟩
      · cases hx
    | cons t' rest =>
      rcases hcommit [t] hown with ⟨hx, -⟩ | ⟨t₁, r, hx, hclaim, hp⟩
      · cases hx
      · obtain rfl := List.singleton_inj.mp hx
        cases rest with
        | nil => exact .inr ⟨t, t', r, rfl, hclaim, hp⟩
        | cons t'' rest =>
          rcases hcommit [t, t'] hown with ⟨hx, -⟩ | ⟨t₁, r, hx, -⟩
          · cases hx
          · cases hx

/-- The claim that an idempotent call has committed, if it has started. -/
theorem WellFormed.claim_stored (h : WellFormed (feedEnv step) st₀ (fun i => (calls i).prog rt) σ)
    {c : Commit postgres ι} (hmem : c ∈ σ.world.log) {key : String} {body : PyDict} {req : NewPayment}
    {outcome : IdempotencyOutcome} (hp : Path (claimBlock rt key body req) c.tx (.commit (.ret outcome))) :
    paymentsCreated c.tx = [] ∧ (outcome = .started → ∃ row id, .insertKey row ∈ writesOf c.tx ∧
      IdempotencyKeyRow.new id key idempotencyEndpointInitiatePayment (rt.hashRequestBody body) = .ok row) := by
  obtain ⟨l, l', hl⟩ := List.append_of_mem hmem
  obtain ⟨claimed, hw, hstarted, hclaimed⟩ := (path_claimBlock hp).stored (h.witnessed hl)
  constructor
  · rw [paymentsCreated, hw, List.filterMap_eq_nil_iff]
    intro w hmem
    obtain ⟨row, -, rfl⟩ := List.mem_map.mp hmem
    rfl
  · intro hs
    obtain ⟨row, rfl⟩ := Option.isSome_iff_exists.mp (hstarted hs)
    obtain ⟨⟨id, hid⟩, -⟩ := hclaimed row rfl
    exact ⟨row, id, by simp [hw, Deed.writes], hid⟩

theorem hash_varchar (rt : Runtime) (body : PyDict) :
    varchar 64 (rt.hashRequestBody body) = .ok (rt.hashRequestBody body) := by
  obtain ⟨hlen, hhex⟩ := rt.hash_hex body
  have hnul : ¬(rt.hashRequestBody body).toList.contains (Char.ofNat 0) = true := by
    intro hmem
    have halnum := List.all_eq_true.mp hhex _ (List.contains_iff_mem.mp hmem)
    exact absurd halnum (by decide)
  rw [varchar, if_neg hnul, if_pos hlen.le]

theorem hash_stored (rt : Runtime) {id : Uuid} {key endpoint : String} {body : PyDict} {row : IdempotencyKeyRow}
    (h : IdempotencyKeyRow.new id key endpoint (rt.hashRequestBody body) = .ok row) :
    row.requestHash = rt.hashRequestBody body := by
  obtain ⟨_, -, _, -, hash, hhash, rfl⟩ := IdempotencyKeyRow.new_ok.mp h
  rw [hash_varchar] at hhash
  exact (Except.ok.inj hhash).symm

/-- A call that has created a payment had claimed its key before, in a transaction of its own. -/
theorem WellFormed.creator (h : WellFormed (feedEnv step) st₀ (fun i => (calls i).prog rt) σ) {key : String}
    {c : Commit postgres ι} (hmem : c ∈ σ.world.log) {body : PyDict} {req : NewPayment}
    (hc : calls c.caller = .initiatePaymentIdempotent key body req) (hcreated : paymentsCreated c.tx ≠ []) :
    ∃ t, ownOf c.caller σ.world.log = [t, c.tx] ∧ paymentsCreated t = [] ∧
      ∃ c₀ ∈ σ.world.log, c₀.caller = c.caller ∧ ∃ row id, .insertKey row ∈ writesOf c₀.tx ∧
        IdempotencyKeyRow.new id key idempotencyEndpointInitiatePayment (rt.hashRequestBody body) = .ok row := by
  have hown := mem_ownOf hmem
  have hclaim {outcome : IdempotencyOutcome} (t : List (Event postgres)) (ht : c.tx = t)
      (hp : Path (claimBlock rt key body req) t (.commit (.ret outcome))) : False := by
    apply hcreated
    rw [← ht] at hp
    exact (h.claim_stored hmem hp).1
  rcases h.idempotent_own hc with hnil | ⟨t, outcome, hs, hp⟩ | ⟨t, t', r, hs, hp, -⟩
  · rw [hnil] at hown
    cases hown
  · rw [hs, List.mem_singleton] at hown
    exact (hclaim t hown hp).elim
  · rw [hs, List.mem_cons, List.mem_singleton] at hown
    rcases hown with hown | hown
    · exact (hclaim t hown hp).elim
    · obtain ⟨c₀, hc₀, hcaller, rfl⟩ := mem_of_ownOf (by rw [hs]; simp : t ∈ ownOf c.caller σ.world.log)
      obtain ⟨hnone, hrow⟩ := h.claim_stored hc₀ hp
      exact ⟨c₀.tx, by rw [hs, hown], hnone, c₀, hc₀, hcaller, hrow rfl⟩

/-- A key is claimed by one call only. -/
theorem WellFormed.claim_unique (h : WellFormed (feedEnv step) st₀ (fun i => (calls i).prog rt) σ)
    (h₀ : st₀.idempotencyKeys.rows = []) {c c' : Commit postgres ι} (hc : c ∈ σ.world.log)
    (hc' : c' ∈ σ.world.log) {row row' : IdempotencyKeyRow} (hrow : .insertKey row ∈ writesOf c.tx)
    (hrow' : .insertKey row' ∈ writesOf c'.tx) (hkey : (row.endpoint, row.key) = (row'.endpoint, row'.key)) :
    c = c' := by
  by_contra hne
  have hlogged := h.keysLogged h₀ (List.prefix_refl _) h.history
  have hsymm : Std.Symm fun c c' : Commit postgres ι => ∀ row row', .insertKey row ∈ writesOf c.tx →
      .insertKey row' ∈ writesOf c'.tx → (row.endpoint, row.key) ≠ (row'.endpoint, row'.key) := by
    constructor
    intro c c' hd row row' hw hw'
    exact (hd row' row hw' hw).symm
  exact hlogged.distinct.forall hc hc' hne row row' hrow hrow' hkey

theorem new_key {id : Uuid} {key hash : String} {row : IdempotencyKeyRow}
    (h : IdempotencyKeyRow.new id key idempotencyEndpointInitiatePayment hash = .ok row) :
    varchar 255 key = .ok row.key ∧ row.endpoint = idempotencyEndpointInitiatePayment := by
  obtain ⟨k, hk, e, he, _, -, rfl⟩ := IdempotencyKeyRow.new_ok.mp h
  have hendpoint : varchar 100 idempotencyEndpointInitiatePayment = .ok idempotencyEndpointInitiatePayment := by
    decide
  rw [hendpoint] at he
  exact ⟨hk, (Except.ok.inj he).symm⟩

theorem WellFormed.creator_unique (h : WellFormed (feedEnv step) st₀ (fun i => (calls i).prog rt) σ)
    (h₀ : st₀.idempotencyKeys.rows = []) {key : String} {c c' : Commit postgres ι} (hc : c ∈ σ.world.log)
    (hc' : c' ∈ σ.world.log) (hk : (calls c.caller).idempotencyKey = some key)
    (hk' : (calls c'.caller).idempotencyKey = some key) (hcreated : paymentsCreated c.tx ≠ [])
    (hcreated' : paymentsCreated c'.tx ≠ []) : c.caller = c'.caller := by
  obtain ⟨body, req, hcall⟩ := idempotencyKey_eq.mp hk
  obtain ⟨body', req', hcall'⟩ := idempotencyKey_eq.mp hk'
  obtain ⟨-, -, -, c₀, h₀mem, hcaller, row, id, hrow, hnew⟩ := h.creator hc hcall hcreated
  obtain ⟨-, -, -, c₀', h₀mem', hcaller', row', id', hrow', hnew'⟩ := h.creator hc' hcall' hcreated'
  obtain ⟨hkey, hendpoint⟩ := new_key hnew
  obtain ⟨hkey', hendpoint'⟩ := new_key hnew'
  have hsame : row.key = row'.key := Except.ok.inj (hkey.symm.trans hkey')
  have heq := h.claim_unique h₀ h₀mem h₀mem' hrow hrow' (by rw [hendpoint, hendpoint', hsame])
  rw [← hcaller, heq, hcaller']

theorem flatMap_ownOf {D : Dbms} {X : Type} (g : List (Event D) → List X) (i : ι) (log : List (Commit D ι)) :
    (log.flatMap fun c => if c.caller = i then g c.tx else []) = (ownOf i log).flatMap g := by
  induction log with
  | nil => rfl
  | cons c log ih =>
    rw [List.flatMap_cons, ih]
    by_cases hc : c.caller = i
    · simp [ownOf, hc]
    · simp [ownOf, hc]

/-- The calls with one key have committed no payment, or exactly the one of their creator. -/
theorem WellFormed.paymentsBy_eq (h : WellFormed (feedEnv step) st₀ (fun i => (calls i).prog rt) σ)
    (h₀ : st₀.idempotencyKeys.rows = []) {key : String} {c : Commit postgres ι} (hc : c ∈ σ.world.log)
    (hk : (calls c.caller).idempotencyKey = some key) (hcreated : paymentsCreated c.tx ≠ []) :
    paymentsBy calls key σ.world.log = paymentsCreated c.tx := by
  have hown : paymentsBy calls key σ.world.log =
      σ.world.log.flatMap fun c' => if c'.caller = c.caller then paymentsCreated c'.tx else [] := by
    apply List.flatMap_congr
    intro c' hc'
    by_cases hcaller : c'.caller = c.caller
    · rw [if_pos hcaller, hcaller, if_pos hk]
    · rw [if_neg hcaller]
      by_cases hk' : (calls c'.caller).idempotencyKey = some key
      · rw [if_pos hk']
        by_contra hcreated'
        exact hcaller (h.creator_unique h₀ hc' hc hk' hk hcreated' hcreated)
      · rw [if_neg hk']
  obtain ⟨body, req, hcall⟩ := idempotencyKey_eq.mp hk
  obtain ⟨t, hs, hnone, -⟩ := h.creator hc hcall hcreated
  rw [hown, flatMap_ownOf, hs]
  simp [hnone]

/-- The row that a replay has read, from a store of the past. -/
theorem WellFormed.replay_read (h : WellFormed (feedEnv step) st₀ (fun i => (calls i).prog rt) σ)
    (h₀ : st₀.idempotencyKeys.rows = []) {c : Commit postgres ι} (hmem : c ∈ σ.world.log) {key hash : String}
    {req : NewPayment} {code : ℕ} {response : PyDict}
    (hp : Claimed key hash req (.replay (some code) (some response)) c.tx) :
    ∃ log st existing, log <+: σ.world.log ∧ KeysLogged log st ∧
      st.idempotencyKeys.find (idempotencyEndpointInitiatePayment, key) = some existing ∧
      existing.status = .completed ∧ existing.requestHash = hash ∧
      existing.responseStatusCode = some code ∧ existing.responseBody = some response := by
  obtain ⟨l, l', hl⟩ := List.append_of_mem hmem
  obtain ⟨-, hrec, -⟩ := h.committed l c l' hl
  have hevaluated := hrec.evaluated
  obtain ⟨a, e₁, e₂, tr, htx, h₁, ⟨hout, -⟩ | ⟨e₃, existing, rfl, h₂, h₃, hout⟩⟩ := hp
  · cases hout
  · rw [htx] at hevaluated
    obtain ⟨⟨st₁, hev₁⟩, ⟨st₂, hev₂⟩, ⟨st₃, hev₃⟩, -⟩ := hevaluated
    obtain ⟨c₁, hc₁⟩ := hev₁.eval
    obtain ⟨-, hws₁⟩ := eval_selectAccount.mp (h₁.eval (postgres_eval_ok.mp hc₁))
    obtain ⟨c₂, hc₂⟩ := hev₂.eval
    obtain ⟨-, row, -, hcase⟩ := eval_insertIdempotencyKey.mp (h₂.eval (postgres_eval_ok.mp hc₂))
    have hws₂ : e₂.writes = [] := by
      rcases hcase with ⟨hf, -⟩ | ⟨-, -, hws⟩
      · cases hf
      · exact hws
    obtain ⟨c₃, hc₃⟩ := hev₃.eval
    obtain ⟨hread, -⟩ := eval_selectIdempotencyKey.mp (h₃.eval (postgres_eval_ok.mp hc₃))
    have hview : view ([] ++ [e₁] ++ [e₂]) st₃ = st₃ := by
      simp [view, applyAll, hws₁, hws₂]
    rw [hview] at hread
    have hprefix : l.take e₃.seen <+: σ.world.log := by
      rw [hl]
      exact (List.take_prefix _ _).trans (List.prefix_append _ _)
    refine ⟨_, st₃, existing, hprefix, h.keysLogged h₀ hprefix hev₃.past, hread.symm, ?_⟩
    split at hout
    · cases hout
    · rename_i hstatus
      split at hout
      · cases hout
      · rename_i hhash
        obtain ⟨hcode, hbody⟩ := IdempotencyOutcome.replay.inj hout
        refine ⟨?_, not_not.mp hhash, hcode.symm, hbody.symm⟩
        cases hs : existing.status with
        | inProgress => exact absurd hs hstatus
        | completed => rfl

/-- A call that returns answers for the creator of the one payment: with its response, and after the
same request. -/
theorem WellFormed.answered (h : WellFormed (feedEnv step) st₀ (fun i => (calls i).prog rt) σ)
    (h₀ : st₀.idempotencyKeys.rows = []) {i : ι} {key : String} {body : PyDict} {req : NewPayment} {v : Value}
    (hc : calls i = .initiatePaymentIdempotent key body req) (hp : (σ.session i).prog = some (.ret v)) :
    ∃ c ∈ σ.world.log, ∃ body' req' row response, calls c.caller = .initiatePaymentIdempotent key body' req' ∧
      paymentsCreated c.tx = [row] ∧ rt.hashRequestBody body' = rt.hashRequestBody body ∧
      v = .response 201 response ∧ response.json = (paymentResponseDict row.toDomain).json := by
  obtain ⟨done, ht, hd⟩ := h.live hp
  simp only [hc] at ht
  rcases Contract.meets_trace (call_idempotent rt key body req) ht with
    ⟨t, code, response, hs, rfl, hclaim⟩ | ⟨t, t', r, hs, rfl, -, hcomplete⟩
  · obtain ⟨c₁, hc₁, -, rfl⟩ := mem_of_ownOf (by rw [← hd, hs]; simp : t ∈ ownOf i σ.world.log)
    obtain ⟨log, st, existing, hprefix, hlogged, hfind, hstatus, hhash, hcode, hbody⟩ :=
      h.replay_read h₀ hc₁ (path_claimBlock hclaim)
    obtain ⟨c, hmem, code', body', hw, hcode', hbody'⟩ := hlogged.completed _ existing hfind hstatus
    obtain ⟨c₀, hmem₀, row₀, hw₀, hkey₀, hhash₀⟩ := hlogged.hashed _ existing hfind
    have hcσ := hprefix.subset hmem
    have hc₀σ := hprefix.subset hmem₀
    obtain ⟨v', d, hdoes⟩ := h.does hcσ
    rw [hdoes.writes] at hw
    obtain ⟨row, subs, ds, rfl, -, rfl⟩ := Deed.completed_of_mem hdoes.deed.legal hw
    obtain ⟨⟨body₁, req₁, hcall⟩, rfl⟩ := hdoes.deed.completed
    have hcreated : paymentsCreated c.tx = [row] := by
      rw [paymentsCreated, hdoes.writes, Deed.paymentRows_initiate]
    obtain ⟨v₀, d₀, hdoes₀⟩ := h.does hc₀σ
    have hclaimed₀ := Deed.claimed_of_mem hdoes₀.deed.legal (by rw [← hdoes₀.writes]; exact hw₀)
    subst hclaimed₀
    obtain ⟨key₀, body₀, req₀, id₀, -, hnew₀⟩ := hdoes₀.deed.claimed
    obtain ⟨-, -, -, c₂, hmem₂, -, row₂, id₂, hw₂, hnew₂⟩ := h.creator hcσ hcall (by simp [hcreated])
    obtain ⟨hk₀, he₀⟩ := new_key hnew₀
    obtain ⟨hk₂, he₂⟩ := new_key hnew₂
    have hkey : row₀.key = key := congrArg Prod.snd hkey₀
    rw [hkey] at hk₀
    have hkey₂ : row₂.key = key := Except.ok.inj (hk₂.symm.trans (varchar_stored hk₀))
    obtain rfl := h.claim_unique h₀ hc₀σ hmem₂ hw₀ hw₂ (by rw [he₀, he₂, hkey, hkey₂])
    rw [hdoes₀.writes] at hw₂
    obtain rfl : row₀ = row₂ := Option.some.inj (Deed.claim.inj (Deed.claimed_of_mem hdoes₀.deed.legal hw₂))
    refine ⟨c, hcσ, body₁, req₁, row, response, hcall, hcreated, ?_, ?_, ?_⟩
    · rw [← hash_stored rt hnew₂, hhash₀, hhash]
    · rw [Option.some.inj (hcode.symm.trans hcode')]
    · rw [Option.some.inj (hbody.symm.trans hbody'), json_json]
  · obtain ⟨c, hmem, hcaller, rfl⟩ := mem_of_ownOf (by rw [← hd, hs]; simp : t' ∈ ownOf i σ.world.log)
    obtain ⟨l, l', hl⟩ := List.append_of_mem hmem
    obtain ⟨p, rfl, hcompleted⟩ := path_completeBlock hcomplete
    obtain ⟨row, subs, ds, completion, rfl, hw, -⟩ := hcompleted.stored (h.witnessed hl)
    refine ⟨c, hmem, body, req, row, _, by rw [hcaller]; exact hc, ?_, rfl, rfl, rfl⟩
    rw [paymentsCreated, hw, Deed.paymentRows_initiate]

def retriedSchedule : List (Fin 2 × Choice) :=
  let subscriptions := sampleStore.feed.webhookSubscriptions.rows
  List.replicate 8 (0, { id := 10 }) ++ List.replicate 5 (0, { id := 80, subscriptions }) ++
    List.replicate 5 (1, { id := 11 })

end Run
end PaymentLedger
