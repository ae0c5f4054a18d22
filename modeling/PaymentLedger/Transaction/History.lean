import PaymentLedger.Transaction.Contract

namespace PaymentLedger

variable {D : Dbms} {ι α : Type}

/-- The commits, in order, and the outside changes between them that lead from one committed
store to another. -/
inductive History (env : D.Store → D.Store → Prop) (st : D.Store) : List (Commit D ι) → D.Store → Prop
  | nil : History env st [] st
  | env {log : List (Commit D ι)} {st' st'' : D.Store} (h : History env st log st') (he : env st' st'') :
      History env st log st''
  | commit {log : List (Commit D ι)} (c : Commit D ι) (h : History env st log c.before) :
      History env st (log ++ [c]) c.after

/-- An invariant of the committed store that outside changes and commits keep. -/
theorem History.invariant {env : D.Store → D.Store → Prop} {st st' : D.Store} {log : List (Commit D ι)}
    (P : List (Commit D ι) → D.Store → Prop) (h : History env st log st') (h₀ : P [] st)
    (he : ∀ l s s', P l s → env s s' → P l s')
    (hc : ∀ l c l', log = l ++ c :: l' → P l c.before → P (l ++ [c]) c.after) : P log st' := by
  induction h with
  | nil => exact h₀
  | env _ hs ih => exact he _ _ _ (ih hc) hs
  | @commit log c _ ih =>
    apply hc log c [] rfl
    apply ih
    intro l c' l' hl
    exact hc l c' (l' ++ [c]) (by simp [hl])

/-- A statement of an open transaction was evaluated in an earlier committed store, and no commit
since then held a row lock that the transaction had by then. -/
structure Evaluated (env : D.Store → D.Store → Prop) (st₀ : D.Store) (log : List (Commit D ι))
    (st : D.Store) (b : ℕ) (tx : List (Event D)) (e : Event D) (st' : D.Store) : Prop where
  seen : e.seen ≤ log.length
  past : History env st₀ (log.take e.seen) st'
  since : History env st' (log.drop e.seen) st
  eval : ∃ c, D.eval e.stmt (view tx st') b c = some (.ok (e.res, e.writes))
  held : ∀ c ∈ log.drop e.seen, ∀ row ∈ locksOf (tx ++ [e]), row ∉ locksOf c.tx

/-- `P` holds of every event of a list, together with the events before it. -/
def Each (P : List (Event D) → Event D → Prop) : List (Event D) → List (Event D) → Prop
  | _, [] => True
  | pre, e :: es => P pre e ∧ Each P (pre ++ [e]) es

section Each

variable {P Q : List (Event D) → Event D → Prop} {pre es es' : List (Event D)}

theorem each_append : Each P pre (es ++ es') ↔ Each P pre es ∧ Each P (pre ++ es) es' := by
  induction es generalizing pre with
  | nil => simp [Each]
  | cons e es ih =>
    rw [List.cons_append, Each, Each, ih, and_assoc, List.append_assoc, List.singleton_append]

theorem each_of_split (h : ∀ a e b, es = a ++ e :: b → P (pre ++ a) e) : Each P pre es := by
  induction es generalizing pre with
  | nil => trivial
  | cons e es ih =>
    refine ⟨by simpa using h [] e es rfl, ?_⟩
    apply ih
    intro a e' b hes
    have := h (e :: a) e' b (by rw [hes]; rfl)
    simpa using this

theorem Each.imp (h : Each P pre es) (hPQ : ∀ pre e, e ∈ es → P pre e → Q pre e) : Each Q pre es := by
  induction es generalizing pre with
  | nil => trivial
  | cons e es ih =>
    refine ⟨hPQ pre e List.mem_cons_self h.1, ?_⟩
    apply ih h.2
    intro pre e' he'
    exact hPQ pre e' (List.mem_cons_of_mem e he')

theorem Each.and (h : Each P pre es) (h' : Each Q pre es) : Each (fun pre e => P pre e ∧ Q pre e) pre es := by
  induction es generalizing pre with
  | nil => trivial
  | cons e es ih => exact ⟨⟨h.1, h'.1⟩, ih h.2 h'.2⟩

theorem Each.of_mem (h : Each P pre es) {e : Event D} (he : e ∈ es) : ∃ pre', P pre' e := by
  induction es generalizing pre with
  | nil => simp at he
  | cons e' es ih =>
    rcases List.mem_cons.mp he with rfl | he
    · exact ⟨pre, h.1⟩
    · exact ih h.2 he

end Each

/-- Every statement of a transaction was evaluated on the way to the store `st`, one after another. -/
structure Recorded (env : D.Store → D.Store → Prop) (st₀ : D.Store) (log : List (Commit D ι))
    (st : D.Store) (b : ℕ) (tx : List (Event D)) : Prop where
  evaluated : Each (fun pre e => ∃ st', Evaluated env st₀ log st b pre e st') [] tx
  ordered : tx.Pairwise fun e e' => e.seen ≤ e'.seen

section Recorded

variable {env : D.Store → D.Store → Prop} {st₀ st : D.Store} {log : List (Commit D ι)} {b : ℕ}
  {tx : List (Event D)}

theorem recorded_nil : Recorded env st₀ log st b ([] : List (Event D)) := ⟨trivial, .nil⟩

theorem Recorded.outside (h : Recorded env st₀ log st b tx) {st' : D.Store} (he : env st st') :
    Recorded env st₀ log st' b tx := by
  refine ⟨h.evaluated.imp ?_, h.ordered⟩
  intro pre e _ hev
  obtain ⟨s, hs⟩ := hev
  exact ⟨s, { hs with since := hs.since.env he }⟩

theorem Evaluated.commit {c : Commit D ι} {e : Event D} {s : D.Store}
    (h : Evaluated env st₀ log c.before b tx e s) (hl : ∀ row ∈ locksOf (tx ++ [e]), row ∉ locksOf c.tx) :
    Evaluated env st₀ (log ++ [c]) c.after b tx e s := by
  have hseen := h.seen
  have hdrop : (log ++ [c]).drop e.seen = log.drop e.seen ++ [c] := List.drop_append_of_le_length hseen
  refine ⟨?_, ?_, ?_, h.eval, ?_⟩
  · rw [List.length_append]
    omega
  · rw [List.take_append_of_le_length hseen]
    exact h.past
  · rw [hdrop]
    exact .commit c h.since
  · rw [hdrop]
    intro c' hc' row hrow
    rcases List.mem_append.mp hc' with hc' | hc'
    · exact h.held c' hc' row hrow
    · obtain rfl := List.mem_singleton.mp hc'
      exact hl row hrow

theorem Recorded.commit {c : Commit D ι} (h : Recorded env st₀ log c.before b tx)
    (hl : ∀ row ∈ locksOf tx, row ∉ locksOf c.tx) :
    Recorded env st₀ (log ++ [c]) c.after b tx := by
  refine ⟨each_of_split ?_, h.ordered⟩
  intro pre e post htx
  have hev := h.evaluated
  rw [htx, each_append] at hev
  obtain ⟨s, hs⟩ := hev.2.1
  refine ⟨s, Evaluated.commit hs ?_⟩
  intro row hrow
  apply hl row
  rw [htx, show pre ++ e :: post = (pre ++ [e]) ++ post by simp, locksOf_append]
  exact List.mem_append_left _ (by simpa using hrow)

/-- A statement evaluated in the current store joins the record. -/
theorem Recorded.exec (h : Recorded env st₀ log st b tx) (hst : History env st₀ log st) {s : D.Stmt}
    {r : D.Res s} {ws : List D.Write} {c : D.Choice}
    (he : D.eval s (view tx st) b c = some (.ok (r, ws))) :
    Recorded env st₀ log st b (tx ++ [⟨s, r, ws, log.length⟩]) := by
  have hnew : Evaluated env st₀ log st b tx ⟨s, r, ws, log.length⟩ st := by
    refine ⟨le_rfl, ?_, ?_, ⟨c, he⟩, ?_⟩
    · simpa using hst
    · have hnil : History env st ([] : List (Commit D ι)) st := .nil
      simpa using hnil
    · simp
  constructor
  · exact each_append.mpr ⟨h.evaluated, ⟨st, hnew⟩, trivial⟩
  · rw [List.pairwise_append]
    refine ⟨h.ordered, List.pairwise_singleton _ _, ?_⟩
    intro e he e' he'
    obtain rfl := List.mem_singleton.mp he'
    obtain ⟨_, _, hev⟩ := h.evaluated.of_mem he
    exact hev.seen

end Recorded

/-- The commits of one caller. -/
def ownOf [DecidableEq ι] (i : ι) (log : List (Commit D ι)) : List (List (Event D)) :=
  (log.filter fun c => c.caller = i).map Commit.tx

/-- What every reachable configuration is: a serial record of commits that explains the store and
every statement, and for each caller a trace of its program. -/
structure WellFormed [DecidableEq ι] (env : D.Store → D.Store → Prop) (st₀ : D.Store) (prog : ι → Prog D α)
    (σ : Config D ι α) : Prop where
  history : History env st₀ σ.world.log σ.world.store
  trace : ∀ i, ∃ done tx p, Trace (prog i) done tx p ∧ committedOf done = ownOf i σ.world.log ∧
    ∀ q, (σ.session i).prog = some q → q = p ∧ (σ.session i).tx = tx
  current : ∀ i, (σ.session i).tx = [] ∨ ∃ b, (σ.session i).began = some b ∧
    Recorded env st₀ σ.world.log σ.world.store b (σ.session i).tx
  committed : ∀ l c l', σ.world.log = l ++ c :: l' → History env st₀ l c.before ∧
    Recorded env st₀ l c.before c.began c.tx ∧ History env c.after l' σ.world.store
  locks : ∀ i j, i ≠ j → ∀ row ∈ locksOf (σ.session i).tx, row ∉ locksOf (σ.session j).tx

section Soundness

variable [DecidableEq ι] {env : D.Store → D.Store → Prop} {st₀ : D.Store} {prog : ι → Prog D α}

@[simp] theorem set_world (σ : Config D ι α) (i : ι) (s : Session D α) : (σ.set i s).world = σ.world := rfl

@[simp] theorem set_self (σ : Config D ι α) (i : ι) (s : Session D α) : (σ.set i s).session i = s := by
  simp [Config.set]

theorem set_of_ne (σ : Config D ι α) {i j : ι} (s : Session D α) (h : j ≠ i) :
    (σ.set i s).session j = σ.session j := by
  simp [Config.set, h]

/-- A session changes while the committed store stays. -/
theorem WellFormed.set {σ : Config D ι α} (h : WellFormed env st₀ prog σ) (i : ι) (s : Session D α)
    (ht : ∃ done tx p, Trace (prog i) done tx p ∧ committedOf done = ownOf i σ.world.log ∧
      ∀ q, s.prog = some q → q = p ∧ s.tx = tx)
    (hr : s.tx = [] ∨ ∃ b, s.began = some b ∧ Recorded env st₀ σ.world.log σ.world.store b s.tx)
    (hl : ∀ j, j ≠ i → ∀ row ∈ locksOf s.tx, row ∉ locksOf (σ.session j).tx) :
    WellFormed env st₀ prog (σ.set i s) where
  history := h.history
  trace := by
    intro j
    by_cases hj : j = i
    · subst hj
      rw [set_self]
      exact ht
    · rw [set_of_ne σ s hj]
      exact h.trace j
  current := by
    intro j
    by_cases hj : j = i
    · subst hj
      rw [set_self]
      exact hr
    · rw [set_of_ne σ s hj]
      exact h.current j
  committed := h.committed
  locks := by
    intro j k hjk row hrow
    by_cases hj : j = i
    · subst hj
      rw [set_self] at hrow
      rw [set_of_ne σ s hjk.symm]
      exact hl k hjk.symm row hrow
    · rw [set_of_ne σ s hj] at hrow
      by_cases hk : k = i
      · subst hk
        rw [set_self]
        intro hs
        exact hl j hj row hs hrow
      · rw [set_of_ne σ s hk]
        exact h.locks j k hjk row hrow

/-- The trace of a live session. -/
theorem WellFormed.live {σ : Config D ι α} (h : WellFormed env st₀ prog σ) {i : ι} {p : Prog D α}
    (hp : (σ.session i).prog = some p) : ∃ done, Trace (prog i) done (σ.session i).tx p ∧
      committedOf done = ownOf i σ.world.log := by
  obtain ⟨done, tx, q, ht, hd, hq⟩ := h.trace i
  obtain ⟨rfl, rfl⟩ := hq p hp
  exact ⟨done, ht, hd⟩

/-- The open transaction of a session, as recorded when its next statement runs. -/
theorem WellFormed.recorded {σ : Config D ι α} (h : WellFormed env st₀ prog σ) (i : ι) :
    Recorded env st₀ σ.world.log σ.world.store (σ.start i) (σ.session i).tx := by
  rcases h.current i with hnil | ⟨b, hb, hr⟩
  · rw [hnil]
    exact recorded_nil
  · rw [Config.start, hb]
    exact hr

theorem step_wellFormed {σ σ' : Config D ι α} (h : WellFormed env st₀ prog σ) (hs : Step env σ σ') :
    WellFormed env st₀ prog σ' := by
  cases hs with
  | @exec i s k r ws c hp he hf =>
    obtain ⟨done, ht, hd⟩ := h.live hp
    apply h.set i
    · refine ⟨done, _, _, ht.exec r ws σ.world.log.length, hd, ?_⟩
      intro q hq
      exact ⟨(Option.some.inj hq).symm, rfl⟩
    · exact .inr ⟨_, rfl, (h.recorded i).exec h.history he⟩
    · intro j hj row hrow
      simp only [locksOf_append, locksOf_singleton, List.mem_append] at hrow
      rcases hrow with hrow | hrow
      · exact h.locks i j hj.symm row hrow
      · exact hf j hj row hrow
  | @fail i s k e c hp he =>
    obtain ⟨done, ht, hd⟩ := h.live hp
    apply h.set i
    · refine ⟨done, _, _, ht.fail e, hd, ?_⟩
      intro q hq
      exact ⟨(Option.some.inj hq).symm, rfl⟩
    · exact .inr ⟨_, rfl, h.recorded i⟩
    · intro j hj
      exact h.locks i j hj.symm
  | @commit i k hp =>
    obtain ⟨done, ht, hd⟩ := h.live hp
    have hothers (j : ι) (hj : j ≠ i) : ∀ row ∈ locksOf (σ.session j).tx, row ∉ locksOf (σ.session i).tx :=
      h.locks j i hj
    have hhist : History env st₀ (σ.world.log ++ [⟨i, (σ.session i).tx, σ.start i, σ.world.store⟩])
        (view (σ.session i).tx σ.world.store) :=
      .commit ⟨i, (σ.session i).tx, σ.start i, σ.world.store⟩ h.history
    refine
      { history := hhist
        trace := ?_
        current := ?_
        committed := ?_
        locks := ?_ }
    · intro j
      by_cases hj : j = i
      · subst hj
        refine ⟨done ++ [⟨(σ.session j).tx, true⟩], [], k, ht.commit, ?_, ?_⟩
        · simp [World.commit, ownOf, hd]
        · rw [set_self]
          intro q hq
          exact ⟨(Option.some.inj hq).symm, rfl⟩
      · rw [set_of_ne _ _ hj]
        obtain ⟨done', tx', p', ht', hd', hq'⟩ := h.trace j
        refine ⟨done', tx', p', ht', ?_, hq'⟩
        simp [World.commit, ownOf, hd', Ne.symm hj]
    · intro j
      by_cases hj : j = i
      · subst hj
        rw [set_self]
        exact .inl rfl
      · rw [set_of_ne _ _ hj]
        rcases h.current j with hnil | ⟨b, hb, hr⟩
        · exact .inl hnil
        · refine .inr ⟨b, hb, ?_⟩
          exact Recorded.commit (c := ⟨i, (σ.session i).tx, σ.start i, σ.world.store⟩) hr (hothers j hj)
    · intro l c l' hl
      rcases snoc_split hl with ⟨rfl, rfl, rfl⟩ | ⟨l'', rfl, hlog⟩
      · exact ⟨h.history, h.recorded i, .nil⟩
      · obtain ⟨h₁, h₂, h₃⟩ := h.committed l c l'' hlog
        exact ⟨h₁, h₂, .commit ⟨i, (σ.session i).tx, σ.start i, σ.world.store⟩ h₃⟩
    · intro j l hjl row hrow
      by_cases hj : j = i
      · subst hj
        simp at hrow
      · rw [set_of_ne _ _ hj] at hrow
        by_cases hl : l = i
        · subst hl
          simp
        · rw [set_of_ne _ _ hl]
          exact h.locks j l hjl row hrow
  | @rollback i k hp =>
    obtain ⟨done, ht, hd⟩ := h.live hp
    apply h.set i
    · refine ⟨_, _, _, ht.rollback, by simpa using hd, ?_⟩
      intro q hq
      exact ⟨(Option.some.inj hq).symm, rfl⟩
    · exact .inl rfl
    · simp
  | crash i =>
    apply h.set i
    · obtain ⟨done, tx, p, ht, hd, _⟩ := h.trace i
      exact ⟨done, tx, p, ht, hd, by simp⟩
    · exact .inl rfl
    · simp
  | @tick t ht => exact ⟨h.history, h.trace, h.current, h.committed, h.locks⟩
  | @env st he =>
    refine
      { history := h.history.env he
        trace := h.trace
        current := ?_
        committed := ?_
        locks := h.locks }
    · intro i
      rcases h.current i with hnil | ⟨b, hb, hr⟩
      · exact .inl hnil
      · exact .inr ⟨b, hb, hr.outside he⟩
    · intro l c l' hl
      obtain ⟨h₁, h₂, h₃⟩ := h.committed l c l' hl
      exact ⟨h₁, h₂, h₃.env he⟩

/-- Commits stay in the log. -/
theorem reaches_log {σ σ' : Config D ι α} (h : Reaches env σ σ') : σ.world.log <+: σ'.world.log := by
  induction h with
  | refl => exact List.prefix_refl _
  | tail _ hstep ih =>
    apply ih.trans
    cases hstep with
    | commit hp => exact List.prefix_append _ _
    | _ => exact List.prefix_refl _

/-- Every interleaving leaves a serial record behind. -/
theorem reaches_wellFormed {st₀ : D.Store} {clock : ℕ} {prog : ι → Prog D α} {σ : Config D ι α}
    (hr : Reaches env (Config.init st₀ clock prog) σ) : WellFormed env st₀ prog σ := by
  induction hr with
  | refl =>
    refine
      { history := .nil
        trace := ?_
        current := fun i => .inl rfl
        committed := by simp [Config.init]
        locks := by simp [Config.init] }
    intro i
    refine ⟨[], [], prog i, .start, rfl, ?_⟩
    intro q hq
    exact ⟨(Option.some.inj hq).symm, rfl⟩
  | tail _ hstep ih => exact step_wellFormed ih hstep

end Soundness
end PaymentLedger
