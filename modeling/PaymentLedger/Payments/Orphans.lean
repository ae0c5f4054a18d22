import PaymentLedger.Api.Transitions
import PaymentLedger.Payments.Initiations

namespace PaymentLedger

/-- The database takes the row of the request: there is a creditor, and the columns and the check on the amount are
met. -/
structure NewPayment.Acceptable (req : NewPayment) (st : Store) : Prop where
  creditor : st.hasAccount req.creditorAccountId = true
  amount : ∃ a, Amount.ofDecimal req.amount = .ok a
  currency : ∃ cur, varchar 3 req.currency = .ok cur
  endToEndId : ∃ ref, nullable (varchar 35) req.endToEndId = .ok ref

theorem acceptable_iff {st : Store} {req : NewPayment} : req.Acceptable st ↔ st.rowRefusal req = none := by
  rw [rowRefusal_none]
  constructor
  · intro h
    obtain ⟨a, ha⟩ := h.amount
    obtain ⟨cur, hcur⟩ := h.currency
    obtain ⟨ref, href⟩ := h.endToEndId
    exact ⟨h.creditor, fun id => ⟨_, PaymentRow.new_ok.mpr ⟨a, ha, cur, hcur, ref, href, rfl⟩⟩⟩
  · rintro ⟨hcreditor, hrow⟩
    obtain ⟨row, hnew⟩ := hrow 0
    obtain ⟨a, ha, cur, hcur, ref, href, -⟩ := PaymentRow.new_ok.mp hnew
    exact ⟨hcreditor, ⟨a, ha⟩, ⟨cur, hcur⟩, ref, href⟩

/-- No row holds the key in progress. -/
def Store.KeyFree (st : Store) (key : String) : Prop :=
  ∀ stored row, varchar 255 key = .ok stored →
    st.idempotencyKeys.find (idempotencyEndpointInitiatePayment, stored) = some row → row.status ≠ .inProgress

/-- The request passes the checks before its key is claimed, and its row is refused afterwards. -/
structure Orphans (st : Store) (key : String) (req : NewPayment) : Prop where
  valid : validateNewPayment req.amount req.debtorAccountId req.creditorAccountId = .ok ()
  debtor : st.currencyOf req.debtorAccountId = some req.currency
  key : ∃ stored, varchar 255 key = .ok stored
  row : ¬req.Acceptable st

section Calls

variable {live alone : Prop} {good : Store → Prop} {rely : Rely postgres} {c : Store} {rt : Runtime} {key : String}
  {body : PyDict} {req : NewPayment}

/-- How the call ends: in what stands against its request, with its key in progress if it is orphaned and unused if
it is not. -/
structure KeyEnds (c : Store) (key : String) (req : NewPayment) (r : Except AppError Value)
    (c' : Store) : Prop where
  ok : ∀ v, r = .ok v → ¬Orphans c key req
  error : ∀ e, r = .error e → c.against req (keyRefusal key) = some e
  released : ∀ e, r = .error e → ¬Orphans c key req → ∀ stored, varchar 255 key = .ok stored →
    c'.idempotencyKeys.find (idempotencyEndpointInitiatePayment, stored) = none
  orphaned : Orphans c key req → ∀ stored, varchar 255 key = .ok stored →
    ∃ row, c'.idempotencyKeys.find (idempotencyEndpointInitiatePayment, stored) = some row ∧
    row.status = .inProgress

theorem KeyEnds.refused {c' : Store} {e : AppError} (hagainst : c.against req (keyRefusal key) = some e)
    (hnot : ¬Orphans c key req) (hunused : ∀ stored, varchar 255 key = .ok stored →
      c'.idempotencyKeys.find (idempotencyEndpointInitiatePayment, stored) = none) :
    KeyEnds c key req (.error e) c' where
  ok := by
    intro v hv
    cases hv
  error := by
    intro e' he
    rw [hagainst, Except.error.inj he]
  released := fun _ _ _ => hunused
  orphaned := fun h => absurd h hnot

theorem wp_idempotentCall (hS : Setting live alone good rely) (hroom : live → c.Room)
    (hkept : ∀ {st st' : Store}, rely.rel st st' → ∀ stored, varchar 255 key = .ok stored →
      st'.idempotencyKeys.find (idempotencyEndpointInitiatePayment, stored) =
        st.idempotencyKeys.find (idempotencyEndpointInitiatePayment, stored))
    (hunused : ∀ stored, varchar 255 key = .ok stored →
      c.idempotencyKeys.find (idempotencyEndpointInitiatePayment, stored) = none) :
    ((Call.initiatePaymentIdempotent key body req).prog rt).wp live rely
      (fun r c' _ => KeyEnds c key req r c') c [] := by
  have hfree (c' : Store) (hc : rely.rel c c') (stored : String) (hs : varchar 255 key = .ok stored) :
      c'.idempotencyKeys.find (idempotencyEndpointInitiatePayment, stored) = none := by
    rw [hkept hc stored hs]
    exact hunused stored hs
  apply Prog.wp_bind
  apply wp_initiatePaymentIdempotent hS hroom hfree
  · intro e he c' hc
    refine .refused (against_invalid he) ?_ (hfree c' hc)
    intro h
    rw [h.valid] at he
    cases he
  · intro hvalid e he c' hc
    refine .refused (by rw [against_valid hvalid, he]; rfl) ?_ (hfree c' hc)
    intro h
    rw [Store.debtorRefusal_none.mpr h.debtor] at he
    cases he
  · intro hvalid hdebtor e he c' hc
    refine .refused (by rw [against_valid hvalid, hdebtor, keyRefusal, he]; rfl) ?_ (hfree c' hc)
    intro h
    obtain ⟨stored, hs⟩ := h.key
    rw [he] at hs
    cases hs
  · rintro hvalid hdebtor stored hs e he c' ⟨c₁, id, hc₁, hc'⟩
    have horphans : Orphans c key req := by
      refine ⟨hvalid, Store.debtorRefusal_none.mp hdebtor, ⟨stored, hs⟩, ?_⟩
      rw [acceptable_iff, he]
      nofun
    refine ⟨?_, ?_, fun _ _ hnot => absurd horphans hnot, ?_⟩
    · intro v hv
      cases hv
    · intro e' he'
      rw [against_valid hvalid, hdebtor, keyRefusal, hs, he, ← Except.error.inj he']
      rfl
    · intro _ stored' hs'
      obtain rfl := Except.ok.inj (hs.symm.trans hs')
      rw [hkept hc' stored hs]
      have hclaimed := Table.find_insert (r := (⟨id, stored, idempotencyEndpointInitiatePayment,
        rt.hashRequestBody body, .inProgress, none, none⟩ : IdempotencyKeyRow)) (hfree c₁ hc₁ stored hs)
          (idempotencyEndpointInitiatePayment, stored)
      rw [if_pos rfl] at hclaimed
      exact ⟨_, hclaimed, rfl⟩
  · rintro hvalid hnone stored hs c' hc' row p new - - - c'' - c₃ hc₃
    have hnot : ¬Orphans c key req := fun h => h.row (acceptable_iff.mpr (Store.refusal_none.mp hnone).2)
    refine ⟨fun _ _ => hnot, ?_, ?_, fun h => absurd h hnot⟩
    · intro e he
      cases he
    · intro e he
      cases he

end Calls

section Runs

variable {ι : Type} [DecidableEq ι] {rt : Runtime} {step : Feed → Feed → Prop} {st₀ : Store} {calls : ι → Call}
  {σ σ' : Config postgres ι Value} {i : ι} {key : String} {body : PyDict} {req : NewPayment}

/-- A deed of a call with another key leaves the row of this one. -/
theorem keyRow_other {now : ℕ} {st : Store} {call : Call} {v : Option Value} {d : Deed}
    (h : d.Of rt st now call v) {stored : String}
    (hs : varchar 255 stored = .ok stored)
    (hother : ∀ key', call.idempotencyKey = some key' → varchar 255 key' ≠ .ok stored)
    (old : Option IdempotencyKeyRow) : d.keyRow (idempotencyEndpointInitiatePayment, stored) old = old := by
  cases d with
  | initiate row subs ds completion =>
    cases completion with
    | none => rfl
    | some x =>
      obtain ⟨key', response⟩ := x
      obtain ⟨⟨body, req, rfl⟩, -⟩ := h.completed
      have hne : stored ≠ key' := by
        rintro rfl
        exact hother stored rfl hs
      simp [Deed.keyRow, hne]
  | claim claimed =>
    cases claimed with
    | none => rfl
    | some row =>
      obtain ⟨key', body, req, id, rfl, hnew⟩ := h.claimed
      obtain ⟨k, hk, _, -, _, -, hrow⟩ := IdempotencyKeyRow.new_ok.mp hnew
      have hne : row.key ≠ stored := by
        rw [hrow]
        rintro rfl
        exact hother key' rfl hk
      simp [Deed.keyRow, hne]
  | _ => rfl

theorem Step.key_kept (h : Reachable rt step st₀ calls σ) (hs : Step (feedEnv step) σ σ') {stored : String}
    (hstored : varchar 255 stored = .ok stored)
    (hothers : ∀ j, j ≠ i → ∀ key', (calls j).idempotencyKey = some key' → varchar 255 key' ≠ .ok stored)
    (hsame : σ'.session i = σ.session i) :
    σ'.world.store.idempotencyKeys.find (idempotencyEndpointInitiatePayment, stored) =
      σ.world.store.idempotencyKeys.find (idempotencyEndpointInitiatePayment, stored) := by
  obtain ⟨clock, hreach⟩ := h
  have hwf := reaches_wellFormed (hreach.tail hs)
  cases hs with
  | @commit j k hp =>
    have hne : j ≠ i := by
      rintro rfl
      rw [set_self] at hsame
      rw [← hsame] at hp
      exact k.commit_ne (Option.some.inj hp).symm
    obtain ⟨v, d, hd⟩ := hwf.does (List.mem_append_right _ (List.mem_singleton_self _))
    have hwrites := hd.writes
    have hrow := Deed.keyRow_effect hd.deed.legal (idempotencyEndpointInitiatePayment, stored)
    rw [keyRow_other hd.deed hstored (hothers j hne)] at hrow
    show (view (σ.session j).tx σ.world.store).idempotencyKeys.find _ = _
    rw [view_eq, hwrites]
    exact hrow
  | env he =>
    obtain ⟨f, -, hst⟩ := he
    simp only [hst]
  | _ => rfl

/-- No other call carries the key. -/
def Unshared (calls : ι → Call) (i : ι) (key : String) : Prop :=
  ∀ j, j ≠ i → ∀ key', (calls j).idempotencyKey = some key' → ∀ stored, varchar 255 key = .ok stored →
    varchar 255 key' ≠ .ok stored

theorem Step.key_unshared (h : Reachable rt step st₀ calls σ) (hs : Step (feedEnv step) σ σ')
    (hothers : Unshared calls i key)
    (hsame : σ'.session i = σ.session i) {stored : String} (hstored : varchar 255 key = .ok stored) :
    σ'.world.store.idempotencyKeys.find (idempotencyEndpointInitiatePayment, stored) =
      σ.world.store.idempotencyKeys.find (idempotencyEndpointInitiatePayment, stored) :=
  hs.key_kept h (varchar_stored hstored) (fun j hj key' hkey' => hothers j hj key' hkey' stored hstored) hsame

/-- In every run of the system, the call ends as it should. -/
theorem keyEnds_reached (h₀ : Fresh st₀) (hk : KeepsSubscriptions step) (hr : KeepsRates step)
    (hothers : Unshared calls i key)
    (hcall : calls i = .initiatePaymentIdempotent key body req) (h : Reachable rt step st₀ calls σ)
    {r : Except AppError Value} (hresult : (σ.session i).result = some r) :
    KeyEnds st₀ key req r σ.world.store := by
  obtain ⟨clock, hrun⟩ := h
  let rely : Rely postgres :=
    { rel := fun st st' => Later st st' ∧ ∀ stored, varchar 255 key = .ok stored →
        st'.idempotencyKeys.find (idempotencyEndpointInitiatePayment, stored) =
          st.idempotencyKeys.find (idempotencyEndpointInitiatePayment, stored)
      refl := fun st => ⟨Later.refl st, fun _ _ => rfl⟩
      trans := fun h h' => ⟨h.1.trans h'.1, fun stored hs => (h'.2 stored hs).trans (h.2 stored hs)⟩ }
  have hS : Setting False False (fun _ => True) rely := ⟨fun h => h.1, fun _ _ => trivial, False.elim, fun h => h⟩
  have hsat : σ.Satisfies False rely (fun _ r c' _ => KeyEnds st₀ key req r c') i := by
    clear hresult
    induction hrun with
    | refl =>
      intro p hp
      obtain rfl := Option.some.inj hp
      show ((calls i).prog rt).wp False rely _ st₀ []
      rw [hcall]
      apply wp_idempotentCall hS False.elim (fun {_ _} h => h.2)
      intro stored _
      rw [Table.find, h₀.keys]
      rfl
    | tail hprev hs ih =>
      refine hs.satisfies ?_ ih
      intro hsame
      exact ⟨hs.later hk hr, fun stored hstored => hs.key_unshared ⟨clock, hprev⟩ hothers hsame hstored⟩
  exact hsat.result hresult

/-- What stands against a request is none of the errors of its key. -/
theorem against_not_inProgress {st : Store} {k : Option DbError} {endpoint : String} :
    st.against req k ≠ some (.idempotencyInProgress key endpoint) := by
  intro h
  unfold Store.against validateNewPayment Store.debtorRefusal at h
  split at h
  · rename_i hv
    split at hv
    · cases hv
      cases h
    · cases hv
      cases h
    · split at hv
      · cases hv
        cases h
      · cases hv
  · rw [Option.or_eq_some_iff] at h
    rcases h with h | ⟨-, h⟩
    · split at h
      · cases h
      · split at h <;> cases h
    · obtain ⟨e, -, he⟩ := Option.map_eq_some_iff.mp h
      cases he

theorem Reachable.keeps {st : Store} (hk : KeepsSubscriptions step) (hr : KeepsRates step)
    (h : Reachable rt step st calls σ) :
    Later st σ.world.store := by
  obtain ⟨clock, hrun⟩ := h
  induction hrun with
  | refl => exact Later.refl _
  | tail _ hs ih => exact ih.trans (hs.later hk hr)

/-- After the call has ended, its key stays as it is. -/
theorem key_stays (h : Reachable rt step st₀ calls σ) (hothers : Unshared calls i key) (hover : (σ.session i).Over)
    (hlater : Reaches (feedEnv step) σ σ') {stored : String} (hstored : varchar 255 key = .ok stored) :
    σ'.world.store.idempotencyKeys.find (idempotencyEndpointInitiatePayment, stored) =
      σ.world.store.idempotencyKeys.find (idempotencyEndpointInitiatePayment, stored) := by
  obtain ⟨clock, hrun⟩ := h
  have hboth :
    (σ'.session i).Over ∧ σ'.world.store.idempotencyKeys.find (idempotencyEndpointInitiatePayment, stored) =
      σ.world.store.idempotencyKeys.find (idempotencyEndpointInitiatePayment, stored) := by
    induction hlater with
    | refl => exact ⟨hover, rfl⟩
    | tail hprev hs ih =>
      rcases hs.over ih.1 with hsame | ⟨hover', hworld⟩
      · rw [hsame]
        exact ⟨ih.1,
          (hs.key_unshared ⟨clock, Relation.ReflTransGen.trans hrun hprev⟩ hothers hsame hstored).trans ih.2⟩
      · rw [hworld]
        exact ⟨hover', ih.2⟩
  exact hboth.2

/-- Whenever the call ends in an error its key is not left in progress, and sending the request again ends in the
same error or succeeds: this holds iff the request does not pass the first checks with a row that is refused
afterwards. -/
theorem key_released_iff (h₀ : Fresh st₀) (hroom : st₀.Room) (hk : KeepsSubscriptions step) (hr : KeepsRates step)
    (hcall : calls i = .initiatePaymentIdempotent key body req) (hothers : Unshared calls i key) :
    (∀ σ, Reachable rt step st₀ calls σ → ∀ e, (σ.session i).result = some (.error e) →
      ∀ σ', Reaches (feedEnv step) σ σ' → σ'.world.store.KeyFree key ∧
        ∀ r st', Outcome rt σ'.world.store (.initiatePaymentIdempotent key body req) r st' →
          (r = .error e ∨ ∃ v, r = .ok v) ∧
          r ≠ .error (.idempotencyInProgress key idempotencyEndpointInitiatePayment)) ↔
    ¬Orphans st₀ key req := by
  have hunused (stored : String) (_ : varchar 255 key = .ok stored) :
      st₀.idempotencyKeys.find (idempotencyEndpointInitiatePayment, stored) = none := by
    rw [Table.find, h₀.keys]
    rfl
  constructor
  · intro hall horphans
    obtain ⟨stored, hs⟩ := horphans.key
    have hwp := @wp_idempotentCall True True (· = st₀) (.alone postgres) st₀ rt key body req
      (Setting.still_alone True st₀)
      (fun _ => hroom) (fun {_ _} h _ _ => by rw [h]) hunused
    have hsat : (System rt st₀ 0 calls).Satisfies True (.alone postgres)
        (fun _ r c' _ => KeyEnds st₀ key req r c') i := by
      intro p hp
      obtain rfl := Option.some.inj hp
      show ((calls i).prog rt).wp True _ _ st₀ []
      rw [hcall]
      exact hwp
    obtain ⟨σ, hreach, hend⟩ := hsat.ends trivial (p := (calls i).prog rt) rfl fun _ _ => rfl
    obtain ⟨r, hresult⟩ := Option.isSome_iff_exists.mp hend
    have hends : KeyEnds st₀ key req r σ.world.store := keyEnds_reached h₀ hk hr hothers hcall ⟨0, hreach⟩ hresult
    cases r with
    | ok v => exact hends.ok v rfl horphans
    | error e =>
      obtain ⟨row, hrow, hstatus⟩ := hends.orphaned horphans stored hs
      exact (hall σ ⟨0, hreach⟩ e hresult σ .refl).1 stored row hs hrow hstatus
  · intro hnot σ hreach e hresult σ' hlater
    have hends := keyEnds_reached h₀ hk hr hothers hcall hreach hresult
    have hover : (σ.session i).Over := .inl (by rw [hresult]; rfl)
    have hunused' (stored : String) (hs : varchar 255 key = .ok stored) :
        σ'.world.store.idempotencyKeys.find (idempotencyEndpointInitiatePayment, stored) = none := by
      rw [key_stays hreach hothers hover hlater hs]
      exact hends.released e rfl hnot stored hs
    refine ⟨?_, ?_⟩
    · intro stored row hs hrow
      rw [hunused' stored hs] at hrow
      cases hrow
    · intro r st' houtcome
      have hwp := @wp_idempotentCall False True (· = σ'.world.store) (.alone postgres)
        σ'.world.store rt key body req
        (Setting.still_alone False σ'.world.store) False.elim (fun {_ _} h _ _ => by rw [h]) hunused'
      obtain ⟨ws, hagain⟩ := outcome_of_wp hwp houtcome
      have hsame : σ'.world.store.against req (keyRefusal key) = st₀.against req (keyRefusal key) := by
        obtain ⟨clock, hrun⟩ := hreach
        exact (Reachable.keeps hk hr ⟨clock, Relation.ReflTransGen.trans hrun hlater⟩).against
      constructor
      · cases r with
        | ok v => exact .inr ⟨v, rfl⟩
        | error e' =>
          have hagainst := hagain.error e' rfl
          rw [hsame, hends.error e rfl] at hagainst
          rw [Option.some.inj hagainst]
          exact .inl rfl
      · rintro rfl
        exact against_not_inProgress (hagain.error _ rfl)

end Runs

section Samples

/-- A request and the same request again, under one key. -/
def requestTwice (req : NewPayment) (_ : Fin 2) : Call := .initiatePaymentIdempotent "key" [] req

/-- Ten dollars from an account in euros. -/
def foreignMoney (_ : Fin 1) : Call := .initiatePaymentIdempotent "key" [] ⟨1, 2, cents 1000, "USD", none⟩

theorem key_released_foreignMoney : ∃ σ e, Reachable sampleRuntime (fun _ _ => False) sampleStore foreignMoney σ ∧
    (σ.session 0).result = some (.error e) ∧ σ.world.store.KeyFree "key" ∧
      ∀ r st', Outcome sampleRuntime σ.world.store (foreignMoney 0) r st' → (r = .error e ∨ ∃ v, r = .ok v) ∧
        r ≠ .error (.idempotencyInProgress "key" idempotencyEndpointInitiatePayment) := by
  obtain ⟨σ, hσ⟩ := Option.isSome_iff_exists.mp (by decide +kernel :
    ((System sampleRuntime sampleStore 0 foreignMoney).run (List.replicate 2 (0, { id := 10 }))).isSome = true)
  have hruns : ((System sampleRuntime sampleStore 0 foreignMoney).run (List.replicate 2 (0, { id := 10 }))).map
      (fun σ => (σ.session 0).result) =
        some (some (.error (.paymentCurrencyMismatch "EUR" "USD"))) := by decide +kernel
  rw [hσ, Option.map_some, Option.some.injEq] at hruns
  have hreach : Reachable sampleRuntime (fun _ _ => False) sampleStore foreignMoney σ := reachable_of_run hσ
  have hsubs : KeepsSubscriptions fun _ _ => False := by
    intro f f' hf
    exact hf.elim
  have hrates : KeepsRates fun _ _ => False := by
    intro f f' hf
    exact hf.elim
  have hunshared : Unshared foreignMoney 0 "key" := by
    intro j hj
    exact absurd (Subsingleton.elim j 0) hj
  have hcall : foreignMoney 0 = .initiatePaymentIdempotent "key" [] ⟨1, 2, cents 1000, "USD", none⟩ := rfl
  have hnone : ¬Orphans sampleStore "key" ⟨1, 2, cents 1000, "USD", none⟩ := by
    intro horphans
    exact absurd horphans.debtor (by decide)
  have hfree :=
    (key_released_iff sampleStore_fresh sampleStore_room hsubs hrates hcall hunshared).mpr hnone σ hreach _ hruns
    σ .refl
  exact ⟨σ, _, hreach, hruns, hfree.1, hfree.2⟩

/-- Ten euros to a creditor that does not exist. -/
def unknownCreditor : Fin 2 → Call := requestTwice ⟨1, 99, cents 1000, "EUR", none⟩

def unknownCreditorSchedule : List (Fin 2 × Choice) :=
  List.replicate 7 (0, { id := 10 }) ++ List.replicate 5 (1, { id := 11 })

theorem unknownCreditor_orphans : ∃ σ, Reachable sampleRuntime (fun _ _ => False) sampleStore unknownCreditor σ ∧
    (σ.session 0).result = some (.error (.db .foreignKeyViolation)) ∧ ¬σ.world.store.KeyFree "key" ∧
    (σ.session 1).result = some (.error (.idempotencyInProgress "key" idempotencyEndpointInitiatePayment)) := by
  obtain ⟨σ, hσ⟩ := Option.isSome_iff_exists.mp (by decide +kernel :
    ((System sampleRuntime sampleStore 0 unknownCreditor).run unknownCreditorSchedule).isSome = true)
  have hruns : ((System sampleRuntime sampleStore 0 unknownCreditor).run unknownCreditorSchedule).map (fun σ =>
      ((σ.session 0).result, (σ.session 1).result,
        (σ.world.store.idempotencyKeys.find (idempotencyEndpointInitiatePayment, "key")).map (·.status))) =
      some (some (.error (.db .foreignKeyViolation)),
        some (.error (.idempotencyInProgress "key" idempotencyEndpointInitiatePayment)), some .inProgress) := by
    decide +kernel
  rw [hσ, Option.map_some, Option.some.injEq, Prod.mk.injEq, Prod.mk.injEq] at hruns
  obtain ⟨hfirst, hagain, hstatus⟩ := hruns
  obtain ⟨row, hrow, hprogress⟩ := Option.map_eq_some_iff.mp hstatus
  refine ⟨σ, reachable_of_run hσ, hfirst, ?_, hagain⟩
  intro hfree
  exact hfree "key" row (by decide) hrow hprogress

end Samples
end PaymentLedger
