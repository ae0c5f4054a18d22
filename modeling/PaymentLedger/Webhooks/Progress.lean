import PaymentLedger.Webhooks.Delivery

namespace PaymentLedger

namespace Store

variable (st : Store)

/-- The delivery's subscription is active. -/
def subscribed (d : WebhookDelivery) : Bool := (subscriptionById st.activeSubscriptions d.subscriptionId).isSome

/-- Due deliveries without an active subscription that the query may list before `d`. -/
def blockers (now : ℕ) (d : WebhookDelivery) : List WebhookDelivery :=
  (st.dueDeliveries now).filter fun d' => st.subscribed d' = false ∧ d'.nextAttemptAt ≤ d.nextAttemptAt

/-- Some delivery that can be sent is listed in whatever order the query puts equal times. -/
def Unblocked (now limit : ℕ) : Prop :=
  ∃ d ∈ st.dueDeliveries now, st.subscribed d = true ∧ (st.blockers now d).length < limit

end Store

section Listing

variable {st : Store} {now limit : ℕ} {order due : List WebhookDelivery}

theorem listDue_some : st.listDueDeliveries now limit order = some due ↔
    order.Perm (st.dueDeliveries now) ∧ order.Pairwise (fun d d' => d.nextAttemptAt ≤ d'.nextAttemptAt) ∧
      due = order.take limit := by
  unfold Store.listDueDeliveries
  split
  · next h => simp only [Option.some.injEq, h.1, h.2, true_and, eq_comm]
  · next h =>
    simp only [reduceCtorEq, false_iff]
    rintro ⟨hperm, hsorted, -⟩
    exact h ⟨hperm, hsorted⟩

theorem Store.Unblocked.listed (h : st.Unblocked now limit)
    (hlist : st.listDueDeliveries now limit order = some due) : ∃ d ∈ due, st.subscribed d = true := by
  obtain ⟨hperm, hsorted, rfl⟩ := listDue_some.mp hlist
  obtain ⟨d, hd, hsub, hfew⟩ := h
  by_contra hnone
  push Not at hnone
  have hdrop : d ∈ order.drop limit := by
    have hmem : d ∈ order := hperm.mem_iff.mpr hd
    rw [← List.take_append_drop limit order] at hmem
    rcases List.mem_append.mp hmem with htake | hdrop
    · exact absurd hsub (hnone d htake)
    · exact hdrop
  have hbefore : ∀ d' ∈ order.take limit, d'.nextAttemptAt ≤ d.nextAttemptAt := by
    intro d' hd'
    rw [← List.take_append_drop limit order, List.pairwise_append] at hsorted
    exact hsorted.2.2 d' hd' d hdrop
  have hsubset : (order.take limit).length ≤ (st.blockers now d).length := by
    rw [Store.blockers, ← (hperm.filter _).length_eq]
    have hall : (order.take limit).filter (fun d' =>
        decide (st.subscribed d' = false ∧ d'.nextAttemptAt ≤ d.nextAttemptAt)) = order.take limit := by
      rw [List.filter_eq_self]
      intro d' hd'
      simpa using ⟨Bool.eq_false_of_not_eq_true (hnone d' hd'), hbefore d' hd'⟩
    calc (order.take limit).length
        = ((order.take limit).filter _).length := by rw [hall]
      _ ≤ (order.filter _).length := ((List.take_sublist _ _).filter _).length_le
  have hlong : limit < order.length := by
    by_contra hshort
    rw [List.drop_eq_nil_of_le (by omega)] at hdrop
    cases hdrop
  rw [List.length_take] at hsubset
  omega

/-- By attempt time, and among equal times the deliveries that cannot be sent first. -/
def rank (st : Store) (d : WebhookDelivery) : ℕ := 2 * d.nextAttemptAt + (st.subscribed d).toNat

def worstOrder (st : Store) (now : ℕ) : List WebhookDelivery :=
  (st.dueDeliveries now).mergeSort fun d d' => decide (rank st d ≤ rank st d')

theorem worstOrder_sorted (st : Store) (now : ℕ) :
    (worstOrder st now).Pairwise fun d d' => rank st d ≤ rank st d' := by
  have hp : (worstOrder st now).Pairwise fun d d' => decide (rank st d ≤ rank st d') = true := by
    apply List.pairwise_mergeSort
    · intro a b c hab hbc
      simp only [decide_eq_true_eq] at hab hbc ⊢
      exact hab.trans hbc
    · intro a b
      simp only [Bool.or_eq_true, decide_eq_true_eq]
      exact le_total _ _
  simpa using hp

theorem worstOrder_listed :
    st.listDueDeliveries now limit (worstOrder st now) = some ((worstOrder st now).take limit) := by
  have hle : ∀ d d', rank st d ≤ rank st d' → d.nextAttemptAt ≤ d'.nextAttemptAt := by
    intro d d' hr
    have := Bool.toNat_le (st.subscribed d')
    unfold rank at hr
    omega
  exact listDue_some.mpr ⟨List.mergeSort_perm _ _, (worstOrder_sorted st now).imp (hle _ _), rfl⟩

theorem worstOrder_blocked (h : ¬st.Unblocked now limit) :
    ∀ d ∈ (worstOrder st now).take limit, st.subscribed d = false := by
  have hperm : (worstOrder st now).Perm (st.dueDeliveries now) := List.mergeSort_perm _ _
  have hsorted := worstOrder_sorted st now
  intro d hd
  by_contra hsub
  rw [Bool.not_eq_false] at hsub
  apply h
  refine ⟨d, hperm.mem_iff.mp (List.mem_of_mem_take hd), hsub, ?_⟩
  obtain ⟨before, rest, htake⟩ := List.append_of_mem hd
  have horder : worstOrder st now = before ++ d :: (rest ++ (worstOrder st now).drop limit) := by
    conv_lhs => rw [← List.take_append_drop limit (worstOrder st now), htake]
    simp
  have hbefore : before.length < limit := by
    have hlen := congrArg List.length htake
    simp only [List.length_take, List.length_append, List.length_cons] at hlen
    omega
  have hlater : (d :: (rest ++ (worstOrder st now).drop limit)).filter (fun d' =>
      decide (st.subscribed d' = false ∧ d'.nextAttemptAt ≤ d.nextAttemptAt)) = [] := by
    rw [List.filter_eq_nil_iff]
    intro d' hd' hblocks
    obtain ⟨hsub', hearly⟩ : st.subscribed d' = false ∧ d'.nextAttemptAt ≤ d.nextAttemptAt := by simpa using hblocks
    have hrank : rank st d ≤ rank st d' := by
      rcases List.mem_cons.mp hd' with rfl | hd'
      · exact le_refl _
      · rw [horder, List.pairwise_append, List.pairwise_cons] at hsorted
        exact hsorted.2.1.1 d' hd'
    simp only [rank, hsub, hsub', Bool.toNat_true, Bool.toNat_false] at hrank
    omega
  rw [Store.blockers, ← (hperm.filter _).length_eq, horder, List.filter_append, hlater, List.append_nil]
  exact (List.length_filter_le _ _).trans_lt hbefore

end Listing

namespace Dispatcher

variable {limit maxAttempts : ℕ}

/-- A step of a cycle that has started. -/
def Continues (limit maxAttempts : ℕ) (σ τ : Dispatcher) : Prop := σ.phase ≠ .idle ∧ Own limit maxAttempts σ τ

/-- One call of `dispatch_due_deliveries` with nothing beside it. -/
def Cycle (limit maxAttempts : ℕ) (σ τ : Dispatcher) : Prop :=
  ∃ ρ, σ.phase = .idle ∧ Own limit maxAttempts σ ρ ∧
    Relation.ReflTransGen (Continues limit maxAttempts) ρ τ ∧ τ.phase = .idle

/-- The cycle has still to send something. -/
def WillSend (limit : ℕ) (st : Store) : Phase → Prop
  | .idle => False
  | .polling now => ∀ order due, st.listDueDeliveries now limit order = some due → ∃ d ∈ due, st.subscribed d = true
  | .listed due => ∃ d ∈ due, st.subscribed d = true
  | .dispatching due subs => ∃ d ∈ due, (subscriptionById subs d.subscriptionId).isSome = true
  | .sending _ _ _ _ _ => True
  | .recording _ _ _ _ _ => True
  | .storing _ _ _ _ _ _ => True

theorem Own.willSend {σ τ : Dispatcher} (h : Own limit maxAttempts σ τ) (hne : σ.phase ≠ .idle)
    (hw : WillSend limit σ.store σ.phase ∨ σ.sends ≠ []) : WillSend limit τ.store τ.phase ∨ τ.sends ≠ [] := by
  rcases hw with hw | hsent
  case inr =>
    right
    cases h with
    | record hp hr => exact List.append_ne_nil_of_left_ne_nil hsent _
    | abort hp hr => exact List.append_ne_nil_of_left_ne_nil hsent _
    | _ => exact hsent
  case inl =>
    cases h with
    | start hp => exact absurd hp hne
    | list order hp hd =>
      rw [hp] at hw
      exact .inl (hw order _ hd)
    | subscribe hp =>
      rw [hp] at hw
      exact .inl hw
    | skip hp hs =>
      rw [hp] at hw
      obtain ⟨d, hd, hsub⟩ := hw
      rcases List.mem_cons.mp hd with rfl | hd
      · rw [hs] at hsub
        cases hsub
      · exact .inl ⟨d, hd, hsub⟩
    | send hp hs => exact .inl trivial
    | answer o hp => exact .inl trivial
    | stamp hp => exact .inl trivial
    | record hp hr => exact .inr (by simp)
    | abort hp hr => exact .inr (by simp)
    | stop hp =>
      rw [hp] at hw
      obtain ⟨d, hd, -⟩ := hw
      cases hd

/-- How many steps are left at most to a cycle that has listed its deliveries. -/
def left : Phase → ℕ
  | .idle => 0
  | .polling _ => 0
  | .listed due => 4 * due.length + 2
  | .dispatching due _ => 4 * due.length + 1
  | .sending _ _ _ due _ => 4 * due.length + 4
  | .recording _ _ _ due _ => 4 * due.length + 3
  | .storing _ _ _ _ due _ => 4 * due.length + 2

/-- Every cycle comes to its end. -/
theorem exists_end (n : ℕ) : ∀ σ : Dispatcher, (∀ now, σ.phase ≠ .polling now) → left σ.phase ≤ n →
    ∃ τ, Relation.ReflTransGen (Continues limit maxAttempts) σ τ ∧ τ.phase = .idle := by
  induction n with
  | zero =>
    intro σ hpoll hn
    cases hp : σ.phase with
    | idle => exact ⟨σ, .refl, hp⟩
    | polling now => exact absurd hp (hpoll now)
    | _ => rw [hp] at hn; simp [left] at hn
  | succ n ih =>
    intro σ hpoll hn
    have next {τ : Dispatcher} (hne : σ.phase ≠ .idle) (hs : Own limit maxAttempts σ τ)
        (hp : ∀ now, τ.phase ≠ .polling now) (hl : left τ.phase ≤ n) :
        ∃ ρ, Relation.ReflTransGen (Continues limit maxAttempts) σ ρ ∧ ρ.phase = .idle := by
      obtain ⟨ρ, hrun, hidle⟩ := ih τ hp hl
      exact ⟨ρ, .head ⟨hne, hs⟩ hrun, hidle⟩
    cases hp : σ.phase with
    | idle => exact ⟨σ, .refl, hp⟩
    | polling now => exact absurd hp (hpoll now)
    | listed due =>
      rw [hp] at hn next
      refine next nofun (.subscribe hp) nofun ?_
      simp only [left] at hn ⊢
      omega
    | dispatching due subs =>
      rw [hp] at hn next
      cases due with
      | nil => exact next nofun (.stop hp) nofun (Nat.zero_le _)
      | cons d due =>
        simp only [left, List.length_cons] at hn
        cases hs : subscriptionById subs d.subscriptionId with
        | none =>
          refine next nofun (.skip hp hs) nofun ?_
          simp only [left]
          omega
        | some sub =>
          refine next nofun (.send hp hs) nofun ?_
          simp only [left]
          omega
    | sending d sub sentAt due subs =>
      rw [hp] at hn next
      refine next nofun (.answer (.status 200) hp) nofun ?_
      simp only [left] at hn ⊢
      omega
    | recording d sentAt o due subs =>
      rw [hp] at hn next
      refine next nofun (.stamp hp) nofun ?_
      simp only [left] at hn ⊢
      omega
    | storing d sentAt o now due subs =>
      rw [hp] at hn next
      simp only [left] at hn
      cases hr : σ.store.recordOutcome maxAttempts now d o with
      | error e => exact next nofun (.abort hp hr) nofun (Nat.zero_le _)
      | ok st =>
        refine next nofun (.record hp hr) nofun ?_
        simp only [left]
        omega

theorem exists_cycle (limit maxAttempts now : ℕ) (st : Store) :
    ∃ τ, Cycle limit maxAttempts ⟨st, now, .idle, []⟩ τ := by
  have hlist : Own limit maxAttempts ⟨st, now, .polling now, []⟩
      ⟨st, now, .listed ((worstOrder st now).take limit), []⟩ := .list _ rfl worstOrder_listed
  obtain ⟨τ, hrun, hidle⟩ : ∃ τ, Relation.ReflTransGen (Continues limit maxAttempts)
      ⟨st, now, .listed ((worstOrder st now).take limit), []⟩ τ ∧ τ.phase = .idle := exists_end _ _ nofun le_rfl
  exact ⟨τ, _, rfl, .start rfl, .head ⟨nofun, hlist⟩ hrun, hidle⟩

theorem skip_all {st : Store} {now : ℕ} {subs : List WebhookSubscription} {due : List WebhookDelivery}
    (h : ∀ d ∈ due, subscriptionById subs d.subscriptionId = none) :
    Relation.ReflTransGen (Continues limit maxAttempts)
      ⟨st, now, .dispatching due subs, []⟩ ⟨st, now, .idle, []⟩ := by
  induction due with
  | nil => exact .single ⟨nofun, .stop rfl⟩
  | cons d due ih =>
    have hskip : Own limit maxAttempts ⟨st, now, .dispatching (d :: due) subs, []⟩
        ⟨st, now, .dispatching due subs, []⟩ := .skip rfl (h d List.mem_cons_self)
    exact .head ⟨nofun, hskip⟩ (ih fun d' hd' => h d' (List.mem_cons_of_mem _ hd'))

/-- In the worst order the whole cycle goes to deliveries that cannot be sent. -/
theorem blocked_cycle {now : ℕ} {st : Store} (h : ¬st.Unblocked now limit) :
    Cycle limit maxAttempts ⟨st, now, .idle, []⟩ ⟨st, now, .idle, []⟩ := by
  have hlist : Own limit maxAttempts ⟨st, now, .polling now, []⟩
      ⟨st, now, .listed ((worstOrder st now).take limit), []⟩ := .list _ rfl worstOrder_listed
  have hsubs : Own limit maxAttempts ⟨st, now, .listed ((worstOrder st now).take limit), []⟩
      ⟨st, now, .dispatching ((worstOrder st now).take limit) st.activeSubscriptions, []⟩ := .subscribe rfl
  have hskip : Relation.ReflTransGen (Continues limit maxAttempts)
      ⟨st, now, .dispatching ((worstOrder st now).take limit) st.activeSubscriptions, []⟩ ⟨st, now, .idle, []⟩ := by
    apply skip_all
    intro d hd
    simpa [Store.subscribed] using worstOrder_blocked h d hd
  exact ⟨_, rfl, .start rfl, .head ⟨nofun, hlist⟩ (.head ⟨nofun, hsubs⟩ hskip), rfl⟩

theorem Cycle.sends {now : ℕ} {st : Store} (h : st.Unblocked now limit) {τ : Dispatcher}
    (hc : Cycle limit maxAttempts ⟨st, now, .idle, []⟩ τ) : τ.sends ≠ [] := by
  obtain ⟨ρ, -, hstart, hrun, hidle⟩ := hc
  have hfirst : WillSend limit ρ.store ρ.phase ∨ ρ.sends ≠ [] := by
    cases hstart with
    | start _ => exact .inl fun order due hlist => h.listed hlist
    | _ => simp_all
  have hlast : WillSend limit τ.store τ.phase ∨ τ.sends ≠ [] := by
    clear hidle
    induction hrun with
    | refl => exact hfirst
    | tail _ hstep ih => exact hstep.2.willSend hstep.1 ih
  rw [hidle] at hlast
  exact hlast.resolve_left id

/-- When a delivery can be sent, every cycle sends one: exactly in the stores where some delivery that can
be sent has fewer than `limit` deliveries in front of it that cannot. -/
theorem dispatch_progress (limit maxAttempts now : ℕ) (st : Store) :
    ((∃ d ∈ st.dueDeliveries now, st.subscribed d = true) →
      (∃ τ, Cycle limit maxAttempts ⟨st, now, .idle, []⟩ τ) ∧
        ∀ τ, Cycle limit maxAttempts ⟨st, now, .idle, []⟩ τ → τ.sends ≠ []) ↔
    ((∃ d ∈ st.dueDeliveries now, st.subscribed d = true) → st.Unblocked now limit) := by
  constructor
  · intro h hd
    by_contra hblocked
    exact (h hd).2 _ (blocked_cycle hblocked) rfl
  · intro h hd
    exact ⟨exists_cycle limit maxAttempts now st, fun τ hc => hc.sends (h hd)⟩

/-- An older delivery for a subscription that was deactivated, and a due one that can be sent. -/
def stalledStore : Store := { sampleStore with
  webhookDeliveries := ⟨[⟨79, 91, some 10, "payment.settled", [], .pending, 0, 0, none⟩,
    ⟨80, 90, some 10, "payment.settled", [], .pending, 0, 1, none⟩], by decide⟩
  feed := ⟨.empty, ⟨[⟨90, "https://merchant", "secret", [], true⟩, ⟨91, "https://former", "secret", [], false⟩],
    by decide⟩⟩ }

theorem stalledStore_stalls : (∃ d ∈ stalledStore.dueDeliveries 5, stalledStore.subscribed d = true) ∧
    ∃ τ, Cycle 1 8 ⟨stalledStore, 5, .idle, []⟩ τ ∧ τ.sends = [] := by
  have hblocked : ¬stalledStore.Unblocked 5 1 := by
    unfold Store.Unblocked
    decide
  exact ⟨by decide, _, blocked_cycle hblocked, rfl⟩

end Dispatcher
end PaymentLedger
