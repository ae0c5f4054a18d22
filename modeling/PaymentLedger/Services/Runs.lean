import PaymentLedger.Services.Shapes
import PaymentLedger.Db.Drift

namespace PaymentLedger

/-- The system of these calls, each by its own caller, on a store and a clock. -/
def System {ι : Type} [DecidableEq ι] (rt : Runtime) (st₀ : Store) (clock : ℕ) (calls : ι → Call) :
    Config postgres ι Value :=
  Config.init (D := postgres) st₀ clock fun i => (calls i).prog rt

/-- A run of the system has reached `σ`, while the feed has changed by `step`. -/
def Reachable {ι : Type} [DecidableEq ι] (rt : Runtime) (step : Feed → Feed → Prop) (st₀ : Store)
    (calls : ι → Call) (σ : Config postgres ι Value) : Prop :=
  ∃ clock, Reaches (feedEnv step) (System rt st₀ clock calls) σ

/-- A database at its start: there are accounts and a feed, but no payment, posting, key or delivery. -/
structure Fresh (st : Store) : Prop where
  currencies : ∀ a ∈ st.accounts.rows, varchar 3 a.currency = .ok a.currency
  entries : st.journalEntries.rows = []
  lines : st.journalLines = []
  payments : st.payments.rows = []
  history : st.statusHistory = []
  keys : st.idempotencyKeys.rows = []
  deliveries : st.webhookDeliveries.rows = []

def Call.idempotent : Call → Bool
  | .initiatePaymentIdempotent _ _ _ => true
  | _ => false

section Runs

variable {ι : Type} [DecidableEq ι] {rt : Runtime} {env : Store → Store → Prop} {st₀ : Store}
  {calls : ι → Call} {σ : Config postgres ι Value}

theorem Call.once {call : Call} (h : call.idempotent = false) :
    (Contract.once (call.Next rt) (call.Commits rt)).Meets (call.prog rt) [] [] := by
  apply call_once
  intro key body req hc
  rw [hc] at h
  cases h

theorem mem_ownOf {D : Dbms} {log : List (Commit D ι)} {c : Commit D ι} (h : c ∈ log) :
    c.tx ∈ ownOf c.caller log := by
  apply List.mem_map_of_mem
  simpa using h

theorem mem_of_ownOf {D : Dbms} {log : List (Commit D ι)} {i : ι} {tx : List (Event D)}
    (h : tx ∈ ownOf i log) : ∃ c ∈ log, c.caller = i ∧ c.tx = tx := by
  obtain ⟨c, hc, rfl⟩ := List.mem_map.mp h
  obtain ⟨hmem, hi⟩ := List.mem_filter.mp hc
  exact ⟨c, hmem, of_decide_eq_true hi, rfl⟩

theorem mem_committedOf {D : Dbms} {done : List (Attempt D)} {tx : List (Event D)}
    (h : tx ∈ committedOf done) : ∃ l l', done = l ++ ⟨tx, true⟩ :: l' := by
  obtain ⟨xs, ys, hxs⟩ := List.append_of_mem h
  obtain ⟨l, l', hl, -⟩ := committedOf_split hxs
  exact ⟨l, l', hl⟩

/-- Every committed transaction is one that its caller's program can commit. -/
theorem WellFormed.shape (h : WellFormed env st₀ (fun i => (calls i).prog rt) σ)
    {c : Commit postgres ι} (hc : c ∈ σ.world.log) : ∃ v, (calls c.caller).Shape rt c.tx v := by
  obtain ⟨done, tx, p, ht, hd, -⟩ := h.trace c.caller
  have hmem := mem_ownOf hc
  rw [← hd] at hmem
  obtain ⟨l, l', hl⟩ := mem_committedOf hmem
  cases hi : (calls c.caller).idempotent with
  | false =>
    obtain ⟨-, v, hv⟩ := Contract.commit_of_trace (Call.once hi) ht hl
    exact ⟨some v, hv.shape⟩
  | true =>
    cases hcall : calls c.caller with
    | initiatePaymentIdempotent key body req =>
      rw [hcall] at ht
      rcases Contract.commit_of_trace (call_idempotent rt key body req) ht hl with
        ⟨-, outcome, hp⟩ | ⟨t, r, -, -, hp⟩
      · exact ⟨none, .inl ⟨outcome, rfl, path_claimBlock hp⟩⟩
      · obtain ⟨p, -, hp'⟩ := path_completeBlock hp
        exact ⟨_, .inr ⟨p, rfl, hp'⟩⟩
    | _ => rw [hcall] at hi; cases hi

/-- The next statement of a session, from the path of its open transaction. -/
theorem WellFormed.next (h : WellFormed env st₀ (fun i => (calls i).prog rt) σ) {i : ι} {s : Stmt}
    {k : s.Res → App Value} (hp : (σ.session i).prog = some (.exec s k)) :
    (calls i).Next rt (σ.session i).tx s := by
  obtain ⟨done, ht, -⟩ := h.live hp
  cases hi : (calls i).idempotent with
  | false => exact (Contract.meets_trace (Call.once hi) ht).1
  | true =>
    cases hcall : calls i with
    | initiatePaymentIdempotent key body req =>
      rw [hcall] at ht
      exact (Contract.meets_trace (call_idempotent rt key body req) ht).1
    | _ => rw [hcall] at hi; cases hi

theorem WellFormed.returned_commits (h : WellFormed env st₀ (fun i => (calls i).prog rt) σ) {i : ι} {v : Value}
    (hi : (calls i).idempotent = false) (hp : (σ.session i).prog = some (.ret v)) :
    ∃ tx, ownOf i σ.world.log = [tx] ∧ (calls i).Commits rt tx v := by
  obtain ⟨done, ht, hd⟩ := h.live hp
  obtain ⟨tx, htx, hv⟩ := Contract.meets_trace (Call.once hi) ht
  exact ⟨tx, hd.symm.trans htx, hv⟩

theorem WellFormed.returned (h : WellFormed env st₀ (fun i => (calls i).prog rt) σ) {i : ι} {v : Value}
    (hi : (calls i).idempotent = false) (hp : (σ.session i).prog = some (.ret v)) :
    ∃ tx, ownOf i σ.world.log = [tx] ∧ (calls i).Shape rt tx (some v) := by
  obtain ⟨tx, htx, hv⟩ := h.returned_commits hi hp
  exact ⟨tx, htx, hv.shape⟩

theorem WellFormed.raised (h : WellFormed env st₀ (fun i => (calls i).prog rt) σ) {i : ι} {e : AppError}
    (hi : (calls i).idempotent = false) (hp : (σ.session i).prog = some (.raise e)) :
    ownOf i σ.world.log = [] := by
  obtain ⟨done, ht, hd⟩ := h.live hp
  exact hd.symm.trans (Contract.meets_trace (Call.once hi) ht)

end Runs

section Sample

/-- A runtime that iterates sets in order and does not tell requests apart. -/
def sampleRuntime : Runtime where
  order := ⟨List.dedup, List.nodup_dedup, fun _ _ => List.mem_dedup⟩
  hashRequestBody := fun _ => String.ofList (List.replicate 64 '0')
  hash_hex := fun _ => by decide
  repr := fun s => "'" ++ s ++ "'"

def sampleAccount (id : Uuid) (accountNumber currency : String) : Account :=
  ⟨id, accountNumber, "owner", "customer", currency, "active", 0⟩

/-- Two accounts in euros, one in dollars, the suspense account and one subscription. -/
def sampleStore : Store where
  accounts := ⟨[sampleAccount 1 "DE01" "EUR", sampleAccount 2 "DE02" "EUR", sampleAccount 3 "US01" "USD",
    sampleAccount 4 fxSuspenseAccountNumber "EUR"], by decide⟩
  journalEntries := .empty
  journalLines := []
  payments := .empty
  statusHistory := []
  idempotencyKeys := .empty
  webhookDeliveries := .empty
  settlementFileRecords := []
  reconciliationRuns := .empty
  reconciliationBreaks := []
  feed := ⟨.empty, ⟨[⟨90, "https://merchant", "secret", [], true⟩], by simp⟩⟩

theorem sampleStore_fresh : Fresh sampleStore := by
  refine ⟨by decide, rfl, rfl, rfl, rfl, rfl, rfl⟩

def cents (n : ℕ) : Decimal := .finite false n (-2)

theorem reachable_of_run {ι : Type} [DecidableEq ι] [Fintype ι] {rt : Runtime} {step : Feed → Feed → Prop}
    {st₀ : Store} {calls : ι → Call} {σ : Config postgres ι Value} {sched : List (ι × Choice)}
    (h : (System rt st₀ 0 calls).run sched = some σ) : Reachable rt step st₀ calls σ :=
  ⟨0, run_reaches _ sched h⟩

-- The calls of a small run are numbered.
instance (priority := 2000) numbered_one : NeZero (1 : ℕ) := ⟨one_ne_zero⟩
instance (priority := 2000) numbered_two : NeZero (2 : ℕ) := ⟨two_ne_zero⟩
instance (priority := 2000) numbered_three : NeZero (3 : ℕ) := ⟨three_ne_zero⟩
instance (priority := 2000) numbered_five : NeZero (5 : ℕ) := ⟨by decide⟩

/-- A payment of ten euros from its initiation to its settlement. -/
def sampleCalls : Fin 3 → Call
  | 0 => .initiatePayment ⟨1, 2, cents 1000, "EUR", none⟩
  | 1 => .authorisePayment 10 3
  | 2 => .settlePayment 10 3

def sampleSchedule : List (Fin 3 × Choice) :=
  let subscriptions := sampleStore.feed.webhookSubscriptions.rows
  List.replicate 4 (0, { id := 10 }) ++ List.replicate 4 (0, { id := 80, subscriptions }) ++
    List.replicate 7 (1, { id := 81, subscriptions }) ++ List.replicate 15 (2, { id := 82, subscriptions })

/-- The end of the sample run. -/
def sampleEnd : Config postgres (Fin 3) Value :=
  ((System sampleRuntime sampleStore 0 sampleCalls).run sampleSchedule).get (by decide +kernel)

theorem sampleEnd_reachable (step : Feed → Feed → Prop) :
    Reachable sampleRuntime step sampleStore sampleCalls sampleEnd :=
  reachable_of_run (Option.some_get _).symm

/-- The sample store with a rate from euros to dollars. -/
def ratedStore (rate : Numeric 8) : Store :=
  { sampleStore with feed := { sampleStore.feed with fxRates := ⟨[⟨70, "EUR", "USD", rate, 0, "test"⟩], by simp⟩ } }

def oneTenth : Numeric 8 := .num 110000000 (by decide)

end Sample
end PaymentLedger
