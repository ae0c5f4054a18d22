import PaymentLedger.Transaction.History

namespace PaymentLedger

variable {D : Dbms} {ι α : Type}

/-- The caller has executed this statement, in its open transaction or in one that it has committed. -/
def Config.Performed (σ : Config D ι α) (i : ι) (e : Event D) : Prop :=
  e ∈ (σ.session i).tx ∨ ∃ c ∈ σ.world.log, c.caller = i ∧ e ∈ c.tx

section Windows

variable (window : D.Stmt → Option (ℕ × ℕ)) (writer : ι → Bool)

/-- The step executes a statement that asks about the times from `a` up to `b`. -/
def Asks (σ σ' : Config D ι α) (a b : ℕ) : Prop :=
  ∃ i e, (σ'.session i).tx = (σ.session i).tx ++ [e] ∧ window e.stmt = some (a, b)

/-- A window is asked about once it has ended. -/
def Elapsed (σ σ' : Config D ι α) : Prop := ∀ a b, Asks window σ σ' a b → b ≤ σ.world.clock

/-- When a window is asked about, no transaction of a writer that began inside it is open. -/
def Drained (σ σ' : Config D ι α) : Prop :=
  ∀ a b, Asks window σ σ' a b → ∀ j t, writer j = true → (σ.session j).began = some t → a ≤ t → b ≤ t

/-- Of the transactions of the writers that began inside the window, all have ended and the statement has
seen what they committed. -/
structure CaughtUp (σ : Config D ι α) (e : Event D) (a b : ℕ) : Prop where
  seen : e.seen ≤ σ.world.log.length
  elapsed : b ≤ σ.world.clock
  ended : ∀ j t, writer j = true → (σ.session j).began = some t → a ≤ t → b ≤ t
  late : ∀ c ∈ σ.world.log.drop e.seen, writer c.caller = true → a ≤ c.began → b ≤ c.began

variable {window writer} {env : D.Store → D.Store → Prop} {σ σ' : Config D ι α} {i : ι} {e : Event D} {a b : ℕ}

theorem start_late {t : ℕ} (hclock : b ≤ σ.world.clock) (hbegan : ∀ t, (σ.session i).began = some t → a ≤ t → b ≤ t)
    (ht : σ.start i = t) (ha : a ≤ t) : b ≤ t := by
  rw [Config.start] at ht
  cases hb : (σ.session i).began with
  | none =>
    rw [hb, Option.getD_none] at ht
    omega
  | some t' =>
    rw [hb, Option.getD_some] at ht
    rw [← ht] at ha ⊢
    exact hbegan t' hb ha

theorem not_asks_tick {t : ℕ} : ¬Asks window σ ⟨{ σ.world with clock := t }, σ.session⟩ a b := by
  rintro ⟨j, e, hj, -⟩
  simp at hj

variable [DecidableEq ι]

theorem asks_set {s : Session D α} {e : Event D} (htx : s.tx = (σ.session i).tx ++ [e]) :
    Asks window σ (σ.set i s) a b ↔ window e.stmt = some (a, b) := by
  constructor
  · rintro ⟨j, e', hj, hw⟩
    by_cases hji : j = i
    · subst hji
      rw [set_self, htx] at hj
      obtain rfl := List.singleton_inj.mp (List.append_cancel_left hj)
      exact hw
    · rw [set_of_ne σ s hji] at hj
      simp at hj
  · intro hw
    exact ⟨i, e, by rw [set_self, htx], hw⟩

/-- What has been seen stays seen when a session goes on or stops. -/
theorem CaughtUp.set (h : CaughtUp writer σ e a b) {s : Session D α}
    (hs : s.began = none ∨ s.began = some (σ.start i)) : CaughtUp writer (σ.set i s) e a b := by
  refine ⟨h.seen, h.elapsed, ?_, h.late⟩
  intro j t hj hb ha
  by_cases hji : j = i
  · subst hji
    rw [set_self] at hb
    rcases hs with hs | hs
    · rw [hs] at hb
      cases hb
    · rw [hs] at hb
      exact start_late h.elapsed (fun t => h.ended j t hj) (Option.some.inj hb) ha
  · rw [set_of_ne σ s hji] at hb
    exact h.ended j t hj hb ha

theorem CaughtUp.step (h : CaughtUp writer σ e a b) (hs : Step env σ σ') : CaughtUp writer σ' e a b := by
  cases hs with
  | exec c hp he hf => exact h.set (.inr rfl)
  | fail c hp he => exact h.set (.inr rfl)
  | rollback hp => exact h.set (.inl rfl)
  | crash i => exact h.set (.inl rfl)
  | tick ht => exact ⟨h.seen, h.elapsed.trans ht, h.ended, h.late⟩
  | env he => exact ⟨h.seen, h.elapsed, h.ended, h.late⟩
  | @commit i k hp =>
    have hstart (hi : writer i = true) (ha : a ≤ σ.start i) : b ≤ σ.start i :=
      start_late h.elapsed (fun t => h.ended i t hi) rfl ha
    refine ⟨?_, h.elapsed, ?_, ?_⟩
    · have hseen := h.seen
      simp only [set_world, World.commit, List.length_append]
      omega
    · intro j t hj hb ha
      by_cases hji : j = i
      · subst hji
        rw [set_self] at hb
        cases hb
      · rw [set_of_ne _ _ hji] at hb
        exact h.ended j t hj hb ha
    · intro c hc hw ha
      simp only [set_world, World.commit] at hc
      rw [List.drop_append_of_le_length h.seen] at hc
      rcases List.mem_append.mp hc with hc | hc
      · exact h.late c hc hw ha
      · obtain rfl := List.mem_singleton.mp hc
        exact hstart hw ha

/-- What a step makes performed is what it executes. -/
theorem Step.performed (hs : Step env σ σ') (h : σ'.Performed i e) :
    σ.Performed i e ∨ (e.seen = σ.world.log.length ∧ ∃ j, (σ'.session j).tx = (σ.session j).tx ++ [e]) := by
  have kept {j : ι} {s : Session D α} (hs : s.tx = []) (h : (σ.set j s).Performed i e) : σ.Performed i e := by
    rcases h with h | h
    · by_cases hij : i = j
      · subst hij
        rw [set_self, hs] at h
        cases h
      · rw [set_of_ne σ s hij] at h
        exact .inl h
    · exact .inr h
  cases hs with
  | @exec j s k r ws c hp he hf =>
    rcases h with h | h
    · by_cases hij : i = j
      · subst hij
        rw [set_self] at h
        rcases List.mem_append.mp h with h | h
        · exact .inl (.inl h)
        · obtain rfl := List.mem_singleton.mp h
          exact .inr ⟨rfl, i, by rw [set_self]⟩
      · rw [set_of_ne _ _ hij] at h
        exact .inl (.inl h)
    · exact .inl (.inr h)
  | @fail j s k err c hp he =>
    rcases h with h | h
    · by_cases hij : i = j
      · subst hij
        rw [set_self] at h
        exact .inl (.inl h)
      · rw [set_of_ne _ _ hij] at h
        exact .inl (.inl h)
    · exact .inl (.inr h)
  | @commit j k hp =>
    left
    rcases h with h | ⟨c, hc, hci, he⟩
    · by_cases hij : i = j
      · subst hij
        rw [set_self] at h
        cases h
      · rw [set_of_ne _ _ hij] at h
        exact .inl h
    · rcases List.mem_append.mp hc with hc | hc
      · exact .inr ⟨c, hc, hci, he⟩
      · obtain rfl := List.mem_singleton.mp hc
        rw [← hci]
        exact .inl he
  | rollback hp => exact .inl (kept rfl h)
  | crash j => exact .inl (kept rfl h)
  | tick ht => exact .inl h
  | env he => exact .inl h

/-- In a run of such steps, every statement about a window has seen all that the writers commit inside it. -/
theorem caughtUp_reached {st₀ : D.Store} {clock : ℕ} {prog : ι → Prog D α}
    (h : Relation.ReflTransGen (fun σ σ' => Step env σ σ' ∧ Elapsed window σ σ' ∧ Drained window writer σ σ')
      (Config.init st₀ clock prog) σ) (he : σ.Performed i e) (hw : window e.stmt = some (a, b)) :
    CaughtUp writer σ e a b := by
  induction h with
  | refl =>
    rcases he with he | ⟨c, hc, -⟩
    · cases he
    · cases hc
  | @tail σ σ' _ hs ih =>
    obtain ⟨hstep, helapsed, hdrained⟩ := hs
    rcases hstep.performed he with he | ⟨hseen, j, hj⟩
    · exact (ih he).step hstep
    · have hasks : Asks window σ σ' a b := ⟨j, e, hj, hw⟩
      have hnow : CaughtUp writer σ e a b := by
        refine ⟨hseen.le, helapsed a b hasks, hdrained a b hasks, ?_⟩
        rw [hseen, List.drop_length]
        intro c hc
        cases hc
      exact hnow.step hstep

section Guards

/-- The window that the next statement of a session asks about. -/
def Config.asking (window : D.Stmt → Option (ℕ × ℕ)) (σ : Config D ι α) (i : ι) : Option (ℕ × ℕ) :=
  match (σ.session i).prog with
  | some (.exec s _) => window s
  | _ => none

variable [Fintype ι] [DecidableEq D.Row]

/-- A schedule of steps, each of which passes a test, and of times at which the clock is read next. -/
def Config.guarded (ok : Config D ι α → ι → Bool) : Config D ι α → List ((ι × D.Choice) ⊕ ℕ) → Option (Config D ι α)
  | σ, [] => some σ
  | σ, .inl (i, c) :: sched => if ok σ i then (σ.act i c).bind fun σ' => σ'.guarded ok sched else none
  | σ, .inr t :: sched =>
    if σ.world.clock ≤ t then Config.guarded ok ⟨{ σ.world with clock := t }, σ.session⟩ sched else none

theorem guarded_reaches {R : Config D ι α → Config D ι α → Prop} {ok : Config D ι α → ι → Bool}
    (hok : ∀ {σ σ' : Config D ι α} {i : ι} {c : D.Choice}, ok σ i = true → σ.act i c = some σ' → R σ σ')
    (htick : ∀ (σ : Config D ι α) t, R σ ⟨{ σ.world with clock := t }, σ.session⟩)
    (sched : List ((ι × D.Choice) ⊕ ℕ)) (h : σ.guarded ok sched = some σ') :
    Relation.ReflTransGen (fun σ σ' => Step env σ σ' ∧ R σ σ') σ σ' := by
  induction sched generalizing σ with
  | nil =>
    cases h
    exact .refl
  | cons x sched ih =>
    cases x with
    | inl x =>
      rw [Config.guarded] at h
      split at h
      · rename_i hx
        obtain ⟨σ₁, h₁, h₂⟩ := Option.bind_eq_some_iff.mp h
        exact .head ⟨act_step env h₁, hok hx h₁⟩ (ih h₂)
      · cases h
    | inr t =>
      rw [Config.guarded] at h
      split at h
      · rename_i ht
        exact .head ⟨.tick ht, htick σ t⟩ (ih h)
      · cases h

theorem asks_act {c : D.Choice} (h : σ.act i c = some σ') (ha : Asks window σ σ' a b) :
    σ.asking window i = some (a, b) := by
  have unasked {s : Session D α} (ha : Asks window σ (σ.set i s) a b) (hs : s.tx = [] ∨ s.tx = (σ.session i).tx) :
      False := by
    obtain ⟨j, e, hj, -⟩ := ha
    by_cases hji : j = i
    · subst hji
      rw [set_self] at hj
      rcases hs with hs | hs <;> simp [hs] at hj
    · rw [set_of_ne σ s hji] at hj
      simp at hj
  unfold Config.act at h
  unfold Config.asking
  split at h
  · rename_i s k hp
    rw [hp]
    split at h
    · split at h
      · cases h
        exact (asks_set rfl).mp ha
      · cases h
    · cases h
      exact (unasked ha (.inr rfl)).elim
    · cases h
  · cases h
    exact (unasked ha (.inl rfl)).elim
  · cases h
    exact (unasked ha (.inl rfl)).elim
  · cases h

/-- The test that the window that is asked about has ended. -/
def Config.elapsed (window : D.Stmt → Option (ℕ × ℕ)) (σ : Config D ι α) (i : ι) : Bool :=
  (σ.asking window i).all fun w => w.2 ≤ σ.world.clock

/-- The test that no writer has a transaction open that began inside it. -/
def Config.drained (window : D.Stmt → Option (ℕ × ℕ)) (writer : ι → Bool) (σ : Config D ι α) (i : ι) : Bool :=
  (σ.asking window i).all fun w =>
    decide (∀ j, writer j = true → (σ.session j).began.all fun t => decide (w.1 ≤ t → w.2 ≤ t))

theorem elapsed_act {c : D.Choice} (hok : σ.elapsed window i = true) (h : σ.act i c = some σ') :
    Elapsed window σ σ' := by
  intro a b ha
  rw [Config.elapsed, asks_act h ha, Option.all_some] at hok
  exact of_decide_eq_true hok

theorem drained_act {c : D.Choice} (hok : σ.drained window writer i = true) (h : σ.act i c = some σ') :
    Drained window writer σ σ' := by
  intro a b ha j t hj hb hle
  rw [Config.drained, asks_act h ha, Option.all_some] at hok
  have hall := of_decide_eq_true hok j hj
  rw [hb, Option.all_some] at hall
  exact of_decide_eq_true hall hle

end Guards
end Windows
end PaymentLedger
