import PaymentLedger.Payments.Deadlocks
import PaymentLedger.Payments.Transitions

namespace PaymentLedger

/-- The error map of `_run_transition`. -/
def transitionErrorStatus : AppError → Option ℕ
  | .paymentNotFound _ => some 404
  | .invalidTransition _ => some 409
  | .fxRateNotFound _ _ => some 409
  | .concurrentPaymentModification _ _ => some 409
  | _ => none

theorem Declined.mapped {st : Store} {id : Uuid} {toStatus : PaymentStatus} {e : AppError}
    (h : Declined st id toStatus e) : (transitionErrorStatus e).isSome = true := by
  cases h <;> rfl

theorem Numeric.isAmount {n : Numeric 2} (h : n.toDecimal.nonPositive = .ok false) : n.toDecimal.IsAmount := by
  cases n with
  | nan => cases h
  | num z lt =>
    by_cases hz : z = 0
    · simp [hz, Numeric.toDecimal, Decimal.ofInt, Decimal.nonPositive] at h
    · by_cases hneg : z < 0
      · simp [hz, hneg, Numeric.toDecimal, Decimal.ofInt, Decimal.nonPositive] at h
      · refine ⟨z.natAbs, by omega, lt, ?_⟩
        simp [hz, hneg, Numeric.toDecimal, Decimal.ofInt]

/-- A converted amount is one that a line has, and went through the suspense account. -/
def ConvertedAmounts (st : Store) : Prop := ∀ id row, st.payments.find id = some row →
  ∀ n, row.creditorAmount = some n → n.toDecimal.IsAmount ∧ st.suspense.isSome = true

theorem ConvertedAmounts.step {rt : Runtime} {st : Store} {now : ℕ} {d : Deed} (hc : ConvertedAmounts st)
    (h : d.Legal rt st now) : ConvertedAmounts (st.after (d.writes now)) := by
  intro id row hrow n hn
  rw [Store.suspense_after]
  rw [Deed.payment_effect h] at hrow
  cases d with
  | initiate new subs ds completion =>
    by_cases hid : new.id = id
    · rw [Deed.payment, if_pos hid] at hrow
      obtain rfl := Option.some.inj hrow
      obtain ⟨⟨req, hi⟩, -⟩ := h
      obtain ⟨a, -, cur, -, ref, -, hnew⟩ := PaymentRow.new_ok.mp hi.stored
      rw [hnew] at hn
      cases hn
    · rw [Deed.payment, if_neg hid] at hrow
      exact hc id row hrow n hn
  | transition old toStatus reason fx posting subs ds =>
    by_cases hid : old.id = id
    · rw [Deed.payment, if_pos hid] at hrow
      obtain rfl := Option.some.inj hrow
      have ht : Transition rt st now old toStatus fx posting subs ds := h
      cases fx with
      | none => exact hc old.id old ht.found n hn
      | some x =>
        obtain ⟨rateId, m⟩ := x
        obtain rfl : m = n := Option.some.inj hn
        have hbooking := ht.booking
        have hposted := ht.posted
        cases posting with
        | none => cases hbooking
        | some x =>
          obtain ⟨entry, p⟩ := x
          obtain ⟨hvalid, -⟩ := hposted (entry, p) rfl
          rw [Option.map_some] at hbooking
          cases hbooking with
          | conversion _ _ hd hcr hne hs =>
            refine ⟨Numeric.isAmount ?_, by rw [hs]; rfl⟩
            exact (validateJournalEntry_ok.mp hvalid).2.1 _
              (List.mem_cons_of_mem _ (List.mem_cons_of_mem _ List.mem_cons_self))
    · rw [Deed.payment, if_neg hid] at hrow
      exact hc id row hrow n hn
  | _ => exact hc id row hrow n hn

/-- Outside changes keep every rate. -/
def KeepsRates (step : Feed → Feed → Prop) : Prop :=
  ∀ f f', step f f' → ∀ id, (f.fxRates.find id).isSome = true → (f'.fxRates.find id).isSome = true

section Runs

variable {ι : Type} [DecidableEq ι] {rt : Runtime} {step : Feed → Feed → Prop} {st₀ : Store}
  {calls : ι → Call} {σ σ' : Config postgres ι Value}

theorem WellFormed.payable (h : WellFormed (feedEnv step) st₀ (fun i => (calls i).prog rt) σ) (h₀ : Fresh st₀) :
    AllPayable σ.world.store := by
  have hcurrencies : ∀ id cur, σ.world.store.currencyOf id = some cur → varchar 3 cur = .ok cur := by
    apply h.invariant fun _ st => ∀ id cur, st.currencyOf id = some cur → varchar 3 cur = .ok cur
    · exact h₀.booked.currencies
    · intro l st f hP
      exact hP
    · intro l c v d _ hP id cur hcur
      rw [Store.currencyOf_after] at hcur
      exact hP id cur hcur
  have hconverted : ConvertedAmounts σ.world.store := by
    apply h.invariant fun _ st => ConvertedAmounts st
    · intro id row hrow
      have hmem := Table.mem_of_find hrow
      rw [h₀.payments] at hmem
      cases hmem
    · intro l st f hP
      exact hP
    · intro l c v d hd hP
      exact hP.step hd.deed.legal
  refine ⟨hcurrencies, ?_⟩
  intro id row hrow
  obtain ⟨c, hc, req, hreq, hr⟩ := (h.requests h₀).origin id row hrow
  have hcur : row.currency = req.currency := by
    have hstored := hr.currency
    rw [hcurrencies _ _ hr.debtorCurrency] at hstored
    exact (Except.ok.inj hstored).symm
  refine ⟨?_, ?_, hr.cents (h.valid_request hc hreq), hconverted id row hrow⟩
  · rw [hr.debtor, hcur]
    exact hr.debtorCurrency
  · rw [hr.creditor, Store.currencyOf, Option.isSome_map]
    exact hr.creditorExists

theorem Step.later (hk : KeepsSubscriptions step) (hr : KeepsRates step) (hs : Step (feedEnv step) σ σ') :
    Later σ.world.store σ'.world.store := by
  cases hs with
  | commit hp => exact Later.after _ _
  | env he =>
    obtain ⟨f, hf, hst⟩ := he
    simp only [hst]
    exact ⟨rfl, fun _ row h => ⟨row, h, rfl⟩, fun id h => hk _ _ hf id h, fun id h => hr _ _ hf id h⟩
  | _ => exact Later.refl _

/-- A step in which the database may give up what waits in a cycle. -/
def GivingStep (step : Feed → Feed → Prop) : Config postgres ι Value → Config postgres ι Value → Prop :=
  AbortStep (feedEnv step) RowKey.contended (AppError.db .deadlock)

/-- A run in which the database may give up what waits in a cycle, and whose steps and stores have these
properties. -/
def ReachableWithin (rt : Runtime) (step : Feed → Feed → Prop) (st₀ : Store) (calls : ι → Call)
    (R : Config postgres ι Value → Config postgres ι Value → Prop) (P : Store → Prop)
    (σ : Config postgres ι Value) : Prop :=
  P st₀ ∧ ∃ clock, Relation.ReflTransGen
    (fun σ σ' => GivingStep step σ σ' ∧ R σ σ' ∧ P σ'.world.store) (System rt st₀ clock calls) σ

theorem reaches_of_within {P : Store → Prop} {clock : ℕ}
    (h : Relation.ReflTransGen (fun σ σ' => Step (feedEnv step) σ σ' ∧ P σ'.world.store)
      (System rt st₀ clock calls) σ) : Reaches (feedEnv step) (System rt st₀ clock calls) σ := by
  induction h with
  | refl => exact .refl
  | tail _ hs ih => exact .tail ih hs.1

/-- In an orderly run nothing is given up. -/
theorem ReachableWithin.steps {P : Store → Prop} {rank : Uuid → ℕ} (h₀ : Fresh st₀)
    (h : ReachableWithin rt step st₀ calls (Orderly rank) P σ) : P st₀ ∧ ∃ clock, Relation.ReflTransGen
      (fun σ σ' => Step (feedEnv step) σ σ' ∧ P σ'.world.store) (System rt st₀ clock calls) σ := by
  obtain ⟨hP, clock, hrun⟩ := h
  refine ⟨hP, clock, ?_⟩
  have hsteps := steps_of_acyclic (R := fun σ σ' => Orderly rank σ σ' ∧ P σ'.world.store) ?_ hrun
  · exact Relation.ReflTransGen.mono (fun _ _ hs => ⟨hs.1, hs.2.2⟩) _ _ hsteps
  · intro σ' hrun'
    have horderly : OrderlyRun step rank (System rt st₀ clock calls) σ' :=
      Relation.ReflTransGen.mono (fun _ _ hs => ⟨hs.1, hs.2.1⟩) _ _ hrun'
    exact horderly.undeadlocked h₀

/-- Nor is anything in a run that never comes to a cycle. -/
theorem ReachableWithin.unaborted {P : Store → Prop}
    (h : ReachableWithin rt step st₀ calls (fun σ _ => ¬σ.Deadlocked RowKey.contended) P σ) :
    P st₀ ∧ ∃ clock, Relation.ReflTransGen
      (fun σ σ' => Step (feedEnv step) σ σ' ∧ P σ'.world.store) (System rt st₀ clock calls) σ := by
  obtain ⟨hP, clock, hrun⟩ := h
  refine ⟨hP, clock, ?_⟩
  induction hrun with
  | refl => exact .refl
  | tail _ hs ih =>
    obtain ⟨hs, hfree, hP'⟩ := hs
    cases hs with
    | step hs => exact ih.tail ⟨hs, hP'⟩
    | @abort i hi => exact absurd ⟨i, hi⟩ hfree

/-- A session on a cycle may be the one that is given up, and then ends in the error of the database. -/
theorem abort_ends (step : Feed → Feed → Prop) {i : ι} (hi : Relation.TransGen (σ.Waits RowKey.contended) i i) :
    ∃ σ', Relation.ReflTransGen (GivingStep step) σ σ' ∧
      (σ'.session i).result = some (.error (.db .deadlock)) := by
  have habort : GivingStep step σ _ := .abort hi
  have hrolled : GivingStep step (σ.set i ⟨some (.rollback (.raise (.db .deadlock))), (σ.session i).tx,
      some (σ.start i)⟩) _ := .step (.rollback (by rw [set_self]))
  refine ⟨_, .tail (.single habort) hrolled, ?_⟩
  rw [set_self]
  rfl

/-- While its conditions hold, a transition that ends in an error ends in one that its endpoint maps. -/
theorem mapped_of_met (h₀ : Fresh st₀) (hk : KeepsSubscriptions step) (hr : KeepsRates step) {clock : ℕ}
    (hmet₀ : ∀ i, (calls i).Met st₀) (hrun : Relation.ReflTransGen
      (fun σ σ' => Step (feedEnv step) σ σ' ∧ ∀ i, (calls i).Met σ'.world.store) (System rt st₀ clock calls) σ)
    {i : ι} {id : Uuid} {toStatus : PaymentStatus} (ht : (calls i).transition = some (id, toStatus)) {e : AppError}
    (he : (σ.session i).result = some (.error e)) : (transitionErrorStatus e).isSome = true := by
  let good (st : Store) : Prop := AllPayable st ∧ ∀ i, (calls i).Met st
  let rely : Rely postgres :=
    { rel := fun st st' => Later st st' ∧ (good st → good st')
      refl := fun st => ⟨Later.refl st, fun h => h⟩
      trans := fun h h' => ⟨h.1.trans h'.1, fun hg => h'.2 (h.2 hg)⟩ }
  have hS : Setting False False good rely := ⟨fun h => h.1, fun h => h.2, False.elim, fun h => h⟩
  have hsat {σ : Config postgres ι Value} (hrun : Relation.ReflTransGen
      (fun σ σ' => Step (feedEnv step) σ σ' ∧ ∀ i, (calls i).Met σ'.world.store) (System rt st₀ clock calls) σ) :
      σ.Satisfies False rely (fun _ r _ _ => ∀ e, r = .error e → (transitionErrorStatus e).isSome = true) i := by
    induction hrun with
    | refl =>
      have hwf : WellFormed (feedEnv step) st₀ (fun i => (calls i).prog rt) (System rt st₀ clock calls) :=
        reaches_wellFormed (Relation.ReflTransGen.refl : Reaches _ (System rt st₀ clock calls) _)
      intro p hp
      obtain rfl := Option.some.inj hp
      apply Prog.wp_mono _ (wp_transition hS ht (fun st hst => ⟨hst.1, hst.2 i⟩) ⟨hwf.payable h₀, hmet₀⟩ False.elim)
      intro r c ws hends e' he'
      rcases hends e' he' with ⟨c₁, -, hd⟩ | ⟨rfl, -⟩
      · exact hd.mapped
      · rfl
    | tail hprev hs ih =>
      have hreach := Relation.ReflTransGen.tail (reaches_of_within
        (P := fun st => ∀ i, (calls i).Met st) hprev) hs.1
      refine hs.1.satisfies ?_ ih
      exact fun _ => ⟨hs.1.later hk hr, fun _ => ⟨(reaches_wellFormed hreach).payable h₀, hs.2⟩⟩
  exact (hsat hrun).result he e rfl

omit [DecidableEq ι] in
theorem wp_transition_alone {st : Store} {call : Call} {id : Uuid} {toStatus : PaymentStatus} (hpay : AllPayable st)
    (ht : call.transition = some (id, toStatus)) (hmet : call.Met st) :
    (call.prog rt).wp st.Room (.alone postgres)
      (TransitionEnds True (.alone postgres) st id toStatus call.maxAttempts) st [] := by
  apply wp_transition (Setting.still_alone st.Room st) ht _ rfl fun h => h
  rintro st rfl
  exact ⟨hpay, hmet⟩

omit [DecidableEq ι] in
/-- Nothing stands against the settlement of an authorised payment whose currencies have rates. -/
theorem not_declined {st : Store} {id : Uuid} {row : PaymentRow} {e : AppError}
    (hrow : st.payments.find id = some row) (hauthorised : row.status = .authorised)
    (hrates : ∀ dc cc, st.currencyOf row.debtorAccountId = some dc → st.currencyOf row.creditorAccountId = some cc →
      dc = cc ∨ st.rates dc cc ≠ []) : ¬Declined st id .settled e := by
  intro hd
  cases hd with
  | missing hnone =>
    rw [hrow] at hnone
    cases hnone
  | forbidden hrow' hs =>
    obtain rfl := Option.some.inj (hrow.symm.trans hrow')
    rw [hauthorised] at hs
    exact hs (by decide)
  | unrated hrow' _ hd hc hne hempty =>
    obtain rfl := Option.some.inj (hrow.symm.trans hrow')
    rcases hrates _ _ hd hc with heq | hsome
    · exact hne heq
    · exact hsome hempty

/-- A transition under its conditions ends in success or in an error that its endpoint maps: in any interleaving
without a cycle of waits, such as one in which all keep to one lock order, and to its end where it is alone. A
settlement of an authorised payment that is alone succeeds, where the accounts share a currency or there are rates
for them. -/
theorem authorised_settles (h₀ : Fresh st₀) (hk : KeepsSubscriptions step) (hr : KeepsRates step)
    (h : Reachable rt step st₀ calls σ) :
    (∀ σ', ((∃ rank, ReachableWithin rt step st₀ calls (Orderly rank) (fun st => ∀ i, (calls i).Met st) σ') ∨
        ReachableWithin rt step st₀ calls (fun σ _ => ¬σ.Deadlocked RowKey.contended)
          (fun st => ∀ i, (calls i).Met st) σ') →
      ∀ i, (calls i).transition.isSome = true → ∀ e, (σ'.session i).result = some (.error e) →
        (transitionErrorStatus e).isSome = true) ∧
    (∀ call : Call, call.transition.isSome = true → call.Met σ.world.store →
      (∀ e st', Outcome rt σ.world.store call (.error e) st' → (transitionErrorStatus e).isSome = true) ∧
      (σ.world.store.Room → Completes rt σ.world.store call)) ∧
    (∀ id row n, σ.world.store.payments.find id = some row → row.status = .authorised → 0 < n →
      Convertible σ.world.store id →
      (∀ dc cc, σ.world.store.currencyOf row.debtorAccountId = some dc →
        σ.world.store.currencyOf row.creditorAccountId = some cc → dc = cc ∨ σ.world.store.rates dc cc ≠ []) →
      ∀ r st', Outcome rt σ.world.store (.settlePayment id n) r st' → ∃ v, r = .ok v) := by
  obtain ⟨clock, hrun⟩ := h
  have hpay := (reaches_wellFormed hrun).payable h₀
  refine ⟨?_, ?_, ?_⟩
  · intro σ' hwithin i ht e he
    obtain ⟨⟨id, toStatus⟩, ht⟩ := Option.isSome_iff_exists.mp ht
    obtain ⟨hmet₀, clock', hsteps⟩ : (∀ i, (calls i).Met st₀) ∧ ∃ clock', Relation.ReflTransGen
        (fun σ σ' => Step (feedEnv step) σ σ' ∧ ∀ i, (calls i).Met σ'.world.store)
          (System rt st₀ clock' calls) σ' := by
      rcases hwithin with ⟨rank, horderly⟩ | hfree
      · exact horderly.steps h₀
      · exact hfree.unaborted
    exact mapped_of_met h₀ hk hr hmet₀ hsteps ht he
  · intro call ht hmet
    obtain ⟨⟨id, toStatus⟩, ht⟩ := Option.isSome_iff_exists.mp ht
    have hwp := @wp_transition_alone rt _ _ _ _ hpay ht hmet
    refine ⟨?_, fun hroom => completes_of_wp hwp hroom⟩
    intro e st' ho
    obtain ⟨ws, hends⟩ := outcome_of_wp hwp ho
    rcases hends e rfl with ⟨c₁, -, hd⟩ | ⟨rfl, -⟩
    · exact hd.mapped
    · rfl
  · intro id row n hrow hauthorised hn hconvertible hrates r st' ho
    have hwp := @wp_transition_alone rt _ (.settlePayment id n) _ _ hpay rfl hconvertible
    obtain ⟨ws, hends⟩ := outcome_of_wp hwp ho
    cases r with
    | ok v => exact ⟨v, rfl⟩
    | error e =>
      exfalso
      rcases hends e rfl with ⟨c₁, rfl, hd⟩ | ⟨rfl, hzero⟩
      · exact not_declined hrow hauthorised hrates hd
      · have hzero' : n = 0 := hzero trivial
        omega

end Runs

section Samples

/-- A payment from the account in euros to the one in dollars, authorised. -/
def crossCalls (n : ℕ) : Fin 2 → Call
  | 0 => .initiatePayment ⟨1, 3, cents n, "EUR", none⟩
  | 1 => .authorisePayment 10 3

def crossSchedule : List (Fin 2 × Choice) :=
  let subscriptions := sampleStore.feed.webhookSubscriptions.rows
  List.replicate 4 (0, { id := 10 }) ++ List.replicate 4 (0, { id := 80, subscriptions }) ++
    List.replicate 7 (1, { id := 81, subscriptions })

def crossEnd (rate : Numeric 8) (n : ℕ) : Option (Config postgres (Fin 2) Value) :=
  (System sampleRuntime (ratedStore rate) 0 (crossCalls n)).run crossSchedule

def thousandth : Numeric 8 := .num 100000 (by decide)

/-- A payment that is settled before it is authorised. -/
def earlyCalls : Fin 2 → Call
  | 0 => .initiatePayment ⟨1, 2, cents 1000, "EUR", none⟩
  | 1 => .settlePayment 10 3

def earlySchedule : List (Fin 2 × Choice) :=
  (sampleSchedule.take 8).map (fun x => (0, x.2)) ++ List.replicate 2 (1, { id := 0 })

theorem met_of_unrated {st : Store} (h : st.feed.fxRates.rows = []) (i : Fin 2) : (earlyCalls i).Met st := by
  match i with
  | 0 => trivial
  | 1 =>
    intro row _ dc cc _ _ _ r hr
    have hmem := hr.1
    rw [Store.rates, h] at hmem
    cases hmem

theorem early_within : ∃ σ, ReachableWithin sampleRuntime (fun _ _ => False) sampleStore earlyCalls
      (Orderly BitVec.toNat) (fun st => ∀ i, (earlyCalls i).Met st) σ ∧
    (σ.session 1).result = some (.error (.invalidTransition ⟨.initiated, .settled⟩)) := by
  let ok (σ : Config postgres (Fin 2) Value) : Bool := orderly σ && σ.world.store.feed.fxRates.rows.isEmpty
  have hrun : ((System sampleRuntime sampleStore 0 earlyCalls).tested ok earlySchedule).bind
      (fun σ => (σ.session 1).result) =
        some (.error (.invalidTransition ⟨.initiated, .settled⟩)) := by decide +kernel
  obtain ⟨σ, hσ, hresult⟩ := Option.bind_eq_some_iff.mp hrun
  have hok {σ σ' : Config postgres (Fin 2) Value} (h : ok σ' = true) :
      Orderly BitVec.toNat σ σ' ∧ ∀ i, (earlyCalls i).Met σ'.world.store := by
    obtain ⟨horder, hempty⟩ := Bool.and_eq_true_iff.mp h
    exact ⟨orderly_step horder, met_of_unrated (List.isEmpty_iff.mp hempty)⟩
  refine ⟨σ, ⟨met_of_unrated rfl, 0, ?_⟩, hresult⟩
  exact Relation.ReflTransGen.mono (fun _ _ hs => ⟨.step hs.1, hs.2⟩) _ _ (tested_reaches hok earlySchedule hσ)

theorem authorised_settles_conversion : (∃ σ, crossEnd oneTenth 1000 = some σ ∧
      (∀ r st', Outcome sampleRuntime σ.world.store (.settlePayment 10 3) r st' → ∃ v, r = .ok v) ∧
      Completes sampleRuntime σ.world.store (.settlePayment 10 3)) ∧
    ∃ σ e, ReachableWithin sampleRuntime (fun _ _ => False) sampleStore earlyCalls (Orderly BitVec.toNat)
        (fun st => ∀ i, (earlyCalls i).Met st) σ ∧
      (σ.session 1).result = some (.error e) ∧ (transitionErrorStatus e).isSome = true := by
  have hkeep : KeepsSubscriptions (fun _ _ => False) := fun _ _ h => h.elim
  have hkeep' : KeepsRates (fun _ _ => False) := fun _ _ h => h.elim
  constructor
  · obtain ⟨σ, hσ⟩ := Option.isSome_iff_exists.mp (by decide +kernel : (crossEnd oneTenth 1000).isSome = true)
    have hend : (crossEnd oneTenth 1000).any fun σ => decide (
        (σ.world.store.payments.find 10).map (fun row => (row.status, row.debtorAccountId, row.creditorAccountId,
          row.amount.toDecimal)) = some (.authorised, 1, 3, cents 1000) ∧
        σ.world.store.currencyOf 1 = some "EUR" ∧ σ.world.store.currencyOf 3 = some "USD" ∧
        σ.world.store.rates "EUR" "USD" = [⟨70, "EUR", "USD", oneTenth, 0, "test"⟩] ∧
        σ.world.store.suspense.isSome = true ∧ σ.world.store.payments.rows.length = 1 ∧
        σ.world.store.journalEntries.rows.length = 0 ∧ σ.world.store.idempotencyKeys.rows.length = 0 ∧
        σ.world.store.webhookDeliveries.rows.length + σ.world.store.activeSubscriptions.length =
          3) := by decide +kernel
    rw [hσ] at hend
    obtain ⟨hpayment, heur, husd, hrates, hsuspense, hp, he, hk, hd⟩ := of_decide_eq_true hend
    obtain ⟨row, hrow, hfields⟩ := Option.map_eq_some_iff.mp hpayment
    obtain ⟨hstatus, hdebtor, hcreditor, hamount⟩ : row.status = .authorised ∧ row.debtorAccountId = 1 ∧
        row.creditorAccountId = 3 ∧ row.amount.toDecimal = cents 1000 := by simpa using hfields
    have hconvertible : Convertible σ.world.store 10 := by
      intro row' hrow' dc cc hdc hcc _ r hr
      obtain rfl := Option.some.inj (hrow.symm.trans hrow')
      rw [hdebtor, heur] at hdc
      rw [hcreditor, husd] at hcc
      obtain rfl := Option.some.inj hdc
      obtain rfl := Option.some.inj hcc
      have hmem := hr.1
      rw [hrates, List.mem_singleton] at hmem
      refine ⟨?_, hsuspense⟩
      rw [hmem, hamount]
      constructor <;> norm_num [cents, oneTenth, Numeric.toDecimal, Decimal.ofInt, Decimal.toRat]
    have hroom : σ.world.store.Room := ⟨by omega, by omega, by omega, by omega⟩
    have hfresh : Fresh (ratedStore oneTenth) := ⟨by decide, rfl, rfl, rfl, rfl, rfl, rfl⟩
    obtain ⟨-, hends, hsettles⟩ := authorised_settles hfresh hkeep hkeep' (reachable_of_run hσ)
    refine ⟨σ, hσ, ?_, ?_⟩
    · apply hsettles 10 row 3 hrow hstatus (by decide) hconvertible
      intro dc cc hdc hcc
      rw [hdebtor, heur] at hdc
      rw [hcreditor, husd] at hcc
      obtain rfl := Option.some.inj hdc
      obtain rfl := Option.some.inj hcc
      right
      rw [hrates]
      simp
    · exact (hends (.settlePayment 10 3) rfl hconvertible).2 hroom
  · obtain ⟨σ, hwithin, hresult⟩ := early_within
    have hstart : Reachable sampleRuntime (fun _ _ => False) sampleStore earlyCalls
        (System sampleRuntime sampleStore 0 earlyCalls) := ⟨0, .refl⟩
    obtain ⟨hmapped, -, -⟩ := authorised_settles sampleStore_fresh hkeep hkeep' hstart
    exact ⟨σ, _, hwithin, hresult, hmapped σ (.inl ⟨_, hwithin⟩) 1 rfl _ hresult⟩

/-- A settlement and a reversal that wait for each other: the reversal is given up. -/
theorem reversal_unmapped : ∃ σ e, Relation.ReflTransGen (GivingStep fun _ _ => False)
      (System sortedRuntime (ratedStore oneTenth) 0 settledTwice) σ ∧ settledTwice 4 = .reversePayment 10 3 ∧
    (σ.session 4).result = some (.error e) ∧ transitionErrorStatus e = none := by
  obtain ⟨σ, hrun, hcycle⟩ := settledTwice_deadlocked
  have hcontended : Relation.TransGen (σ.Waits RowKey.contended) 4 4 := by
    apply cycle_mono _ hcycle
    rintro i j - - ⟨hij, row, hrow, hwants, hheld⟩
    exact ⟨hij, row, contended_of_shared hrow, hwants, hheld⟩
  obtain ⟨σ', hgiven, hresult⟩ := abort_ends (fun _ _ => False) hcontended
  refine ⟨σ', _, .trans ?_ hgiven, rfl, hresult, rfl⟩
  exact Relation.ReflTransGen.mono (fun _ _ hs => .step hs.1) _ _ hrun

/-- One cent at a rate of 0.001 converts to nothing, which is no amount of a line; and a reversal that waits in a
cycle with a settlement may be given up. Neither error is mapped. -/
theorem tinyConversion_fails : (∃ σ row r, Fresh (ratedStore thousandth) ∧
      Reachable sampleRuntime (fun _ _ => False) (ratedStore thousandth) (crossCalls 1) σ ∧
      σ.world.store.payments.find 10 = some row ∧ row.status = .authorised ∧ σ.world.store.suspense.isSome = true ∧
      σ.world.store.rates "EUR" "USD" = [r] ∧ r.rate.Positive ∧
      ∃ e st', Outcome sampleRuntime σ.world.store (.settlePayment 10 3) (.error e) st' ∧
        transitionErrorStatus e = none) ∧
    ∃ σ e, Relation.ReflTransGen (GivingStep fun _ _ => False)
        (System sortedRuntime (ratedStore oneTenth) 0 settledTwice) σ ∧
      settledTwice 4 = .reversePayment 10 3 ∧ (σ.session 4).result = some (.error e) ∧
      transitionErrorStatus e = none := by
  refine ⟨?_, reversal_unmapped⟩
  obtain ⟨σ, hσ⟩ := Option.isSome_iff_exists.mp (by decide +kernel : (crossEnd thousandth 1).isSome = true)
  have hend : (crossEnd thousandth 1).any fun σ => decide (
      (σ.world.store.payments.find 10).map PaymentRow.status = some .authorised ∧
      σ.world.store.suspense.isSome = true ∧
      σ.world.store.rates "EUR" "USD" = [⟨70, "EUR", "USD", thousandth, 0, "test"⟩]) := by decide +kernel
  rw [hσ] at hend
  obtain ⟨hpayment, hsuspense, hrates⟩ := of_decide_eq_true hend
  obtain ⟨row, hrow, hstatus⟩ := Option.map_eq_some_iff.mp hpayment
  let failed : AppError := .ledger (.invalidLineAmount ⟨4, .debit, .finite false 0 (-2), "USD"⟩)
  have hrun : (crossEnd thousandth 1).bind (fun σ => ((System sampleRuntime σ.world.store 0
      (fun _ : Unit => Call.settlePayment 10 3)).run
        (List.replicate 7 ((), { rate := σ.world.store.feed.fxRates.rows.head? }))).bind
          fun σ => (σ.session ()).result) = some (.error failed) := by decide +kernel
  rw [hσ, Option.bind_some] at hrun
  obtain ⟨σ', hσ', hresult⟩ := Option.bind_eq_some_iff.mp hrun
  exact ⟨σ, row, _, ⟨by decide, rfl, rfl, rfl, rfl, rfl, rfl⟩, reachable_of_run hσ, hrow,
    hstatus, hsuspense, hrates, by decide, failed, _, ⟨σ', reachable_of_run hσ', hresult, rfl⟩, rfl⟩

end Samples
end PaymentLedger
