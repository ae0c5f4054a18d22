import PaymentLedger.Transaction.History

namespace PaymentLedger

variable {D : Dbms} {ι α β : Type}

/-- The transaction that a session has ended in a step, committed or not, if it had a statement. -/
def Session.left (s s' : Session D α) : List (List (Event D)) :=
  if s'.tx.isEmpty && !s.tx.isEmpty then [s.tx] else []

/-- A run, with the transactions that each caller has left behind in it, in their order. -/
inductive Runs [DecidableEq ι] (env : D.Store → D.Store → Prop) (σ₀ : Config D ι α) :
    Config D ι α → (ι → List (List (Event D))) → Prop
  | start : Runs env σ₀ σ₀ fun _ => []
  | step {σ σ' : Config D ι α} {past : ι → List (List (Event D))} (h : Runs env σ₀ σ past)
      (hs : Step env σ σ') : Runs env σ₀ σ' fun i => past i ++ (σ.session i).left (σ'.session i)

theorem Runs.reaches [DecidableEq ι] {env : D.Store → D.Store → Prop} {σ₀ σ : Config D ι α}
    {past : ι → List (List (Event D))} (h : Runs env σ₀ σ past) : Reaches env σ₀ σ := by
  induction h with
  | start => exact .refl
  | step _ hs ih => exact ih.tail hs

theorem reaches_runs [DecidableEq ι] {env : D.Store → D.Store → Prop} {σ₀ σ : Config D ι α}
    (h : Reaches env σ₀ σ) : ∃ past, Runs env σ₀ σ past := by
  induction h with
  | refl => exact ⟨_, .start⟩
  | tail _ hs ih =>
    obtain ⟨past, h⟩ := ih
    exact ⟨_, h.step hs⟩

/-- A trace of `p₀` in which every statement that was executed, and every one that was refused, has
its evidence. -/
inductive Lived (ok : List (Event D) → Event D → Prop) (bad : List (Event D) → D.Stmt → D.Err → Prop)
    (p₀ : Prog D α) : List (Attempt D) → List (Event D) → Prog D α → Prop
  | start : Lived ok bad p₀ [] [] p₀
  | exec {done : List (Attempt D)} {tx : List (Event D)} {s : D.Stmt} {k : D.Res s → Prog D α}
      {r : D.Res s} {ws : List D.Write} {n : ℕ} (h : Lived ok bad p₀ done tx (.exec s k))
      (he : ok tx ⟨s, r, ws, n⟩) : Lived ok bad p₀ done (tx ++ [⟨s, r, ws, n⟩]) (k r)
  | fail {done : List (Attempt D)} {tx : List (Event D)} {s : D.Stmt} {k : D.Res s → Prog D α} {e : D.Err}
      (h : Lived ok bad p₀ done tx (.exec s k)) (he : bad tx s e) : Lived ok bad p₀ done tx (.rollback (.raise e))
  | commit {done : List (Attempt D)} {tx : List (Event D)} {k : Prog D α}
      (h : Lived ok bad p₀ done tx (.commit k)) : Lived ok bad p₀ (done ++ [⟨tx, true⟩]) [] k
  | rollback {done : List (Attempt D)} {tx : List (Event D)} {k : Prog D α}
      (h : Lived ok bad p₀ done tx (.rollback k)) : Lived ok bad p₀ (done ++ [⟨tx, false⟩]) [] k

/-- Every event of the attempts, in their order. -/
def eventsOf (done : List (Attempt D)) : List (Event D) := (done.map Attempt.tx).flatten

@[simp] theorem eventsOf_append (done done' : List (Attempt D)) :
    eventsOf (done ++ done') = eventsOf done ++ eventsOf done' := by
  simp [eventsOf]

@[simp] theorem eventsOf_singleton (a : Attempt D) : eventsOf [a] = a.tx := by
  simp [eventsOf]

section Lived

variable {ok ok' : List (Event D) → Event D → Prop} {bad bad' : List (Event D) → D.Stmt → D.Err → Prop}
  {p₀ p : Prog D α} {done : List (Attempt D)} {tx : List (Event D)}

theorem Lived.mono (h : Lived ok bad p₀ done tx p) (hok : ∀ tx e, ok tx e → ok' tx e)
    (hbad : ∀ tx s e, bad tx s e → bad' tx s e) : Lived ok' bad' p₀ done tx p := by
  induction h with
  | start => exact .start
  | exec _ he ih => exact ih.exec (hok _ _ he)
  | fail _ he ih => exact ih.fail (hbad _ _ _ he)
  | commit _ ih => exact ih.commit
  | rollback _ ih => exact ih.rollback

theorem Lived.mem (h : Lived ok bad p₀ done tx p) : ∀ e ∈ eventsOf done ++ tx, ∃ pre, ok pre e := by
  induction h with
  | start => simp [eventsOf]
  | @exec done tx s k r ws n _ he ih =>
    intro e hmem
    rw [← List.append_assoc] at hmem
    rcases List.mem_append.mp hmem with hmem | hmem
    · exact ih e hmem
    · obtain rfl := List.mem_singleton.mp hmem
      exact ⟨tx, he⟩
  | fail _ _ ih => exact ih
  | commit _ ih => simpa using ih
  | rollback _ ih => simpa using ih

theorem lived_ret {a : α} (h : Lived ok bad (.ret a) done tx p) : done = [] ∧ tx = [] ∧ p = .ret a := by
  have hall : done = [] ∧ tx = [] ∧ p = .ret a := by
    induction h with
    | start => exact ⟨rfl, rfl, rfl⟩
    | exec _ _ ih => cases ih.2.2
    | fail _ _ ih => cases ih.2.2
    | commit _ ih => cases ih.2.2
    | rollback _ ih => cases ih.2.2
  exact hall

theorem lived_raise {e : D.Err} (h : Lived ok bad (.raise e) done tx p) : done = [] ∧ tx = [] ∧ p = .raise e := by
  have hall : done = [] ∧ tx = [] ∧ p = .raise e := by
    induction h with
    | start => exact ⟨rfl, rfl, rfl⟩
    | exec _ _ ih => cases ih.2.2
    | fail _ _ ih => cases ih.2.2
    | commit _ ih => cases ih.2.2
    | rollback _ ih => cases ih.2.2
  exact hall

/-- The body has ended in this error, by itself or with a statement that was refused. -/
def Fails (bad : List (Event D) → D.Stmt → D.Err → Prop) (body : Prog D β)
    (t : List (Event D)) (e : D.Err) : Prop :=
  Path body t (.raise e) ∨ ∃ s k, Path body t (.exec s k) ∧ bad t s e

/-- How far an `async with` block and what follows it have come. -/
inductive BlockState (ok : List (Event D) → Event D → Prop) (bad : List (Event D) → D.Stmt → D.Err → Prop)
    (body : Prog D β) (f : β → Prog D α) : List (Attempt D) → List (Event D) → Prog D α → Prop
  | inside {tx : List (Event D)} {q : Prog D β} (hp : Path body tx q) (hok : Each ok [] tx) :
      BlockState ok bad body f [] tx (q.uow.bind f)
  | refused {tx : List (Event D)} {e : D.Err} (hp : Fails bad body tx e) (hok : Each ok [] tx) :
      BlockState ok bad body f [] tx (.rollback (.raise e))
  | raised {t : List (Event D)} {e : D.Err} (hp : Fails bad body t e) (hok : Each ok [] t) :
      BlockState ok bad body f [⟨t, false⟩] [] (.raise e)
  | ended {t : List (Event D)} {v : β} {b : Bool} (hp : Path body t (.closing b (.ret v))) (hok : Each ok [] t) :
      BlockState ok bad body f [⟨t, b⟩] [] (.rollback (f v))
  | after {t tx : List (Event D)} {v : β} {b : Bool} {done : List (Attempt D)} {p : Prog D α}
      (hp : Path body t (.closing b (.ret v))) (hok : Each ok [] t) (h : Lived ok bad (f v) done tx p) :
      BlockState ok bad body f (⟨t, b⟩ :: ⟨[], false⟩ :: done) tx p

/-- What a block whose body closes its transaction can have lived through. -/
theorem Lived.block {good bad₀ : β → Prop} {body : Prog D β} (hcl : Closes good bad₀ body) {f : β → Prog D α}
    (h : Lived ok bad (body.uow.bind f) done tx p) : BlockState ok bad body f done tx p := by
  generalize hp₀ : body.uow.bind f = p₀ at h
  induction h with
  | start =>
    subst hp₀
    exact .inside (.nil _) trivial
  | @exec done tx s k r ws n _ he ih =>
    generalize hp : Prog.exec s k = p at ih
    cases ih with
    | @inside tx q hq hok =>
      cases q with
      | exec s' k' =>
        cases hp
        exact .inside (hq.append (.cons r ws n (.nil _))) (each_append.mpr ⟨hok, by simpa using he, trivial⟩)
      | ret a => exact (hcl.path hq).elim
      | raise e => cases hp
      | commit q => cases hp
      | rollback q => cases hp
    | after hq hok h =>
      subst hp
      exact .after hq hok (h.exec he)
    | _ => cases hp
  | @fail done tx s k e _ he ih =>
    generalize hp : Prog.exec s k = p at ih
    cases ih with
    | @inside tx q hq hok =>
      cases q with
      | exec s' k' =>
        cases hp
        exact .refused (.inr ⟨s, k', hq, he⟩) hok
      | ret a => exact (hcl.path hq).elim
      | raise e => cases hp
      | commit q => cases hp
      | rollback q => cases hp
    | after hq hok h =>
      subst hp
      exact .after hq hok (h.fail he)
    | _ => cases hp
  | @commit done tx k _ ih =>
    generalize hp : Prog.commit k = p at ih
    cases ih with
    | @inside tx q hq hok =>
      cases q with
      | commit q =>
        obtain ⟨v, rfl, -⟩ := hcl.path hq
        cases hp
        exact .ended (b := true) hq hok
      | ret a => exact (hcl.path hq).elim
      | raise e => cases hp
      | exec s k => cases hp
      | rollback q => cases hp
    | after hq hok h =>
      subst hp
      exact .after hq hok h.commit
    | _ => cases hp
  | @rollback done tx k _ ih =>
    generalize hp : Prog.rollback k = p at ih
    cases ih with
    | @inside tx q hq hok =>
      cases q with
      | rollback q =>
        obtain ⟨v, rfl, -⟩ := hcl.path hq
        cases hp
        exact .ended (b := false) hq hok
      | raise e =>
        cases hp
        exact .raised (.inl hq) hok
      | ret a => exact (hcl.path hq).elim
      | exec s k => cases hp
      | commit q => cases hp
    | refused hq hok =>
      cases hp
      exact .raised hq hok
    | raised hq hok => cases hp
    | ended hq hok =>
      cases hp
      exact .after hq hok .start
    | after hq hok h =>
      subst hp
      exact .after hq hok h.rollback

end Lived

/-- A moment after the first `n` commits of the log: the committed store, and a transaction that was
open then. -/
structure Moment (env : D.Store → D.Store → Prop) (st₀ : D.Store) (log : List (Commit D ι)) (n b : ℕ)
    (tx : List (Event D)) (st : D.Store) : Prop where
  le : n ≤ log.length
  past : History env st₀ (log.take n) st
  recorded : Recorded env st₀ (log.take n) st b tx

/-- The statement was executed at the moment that it records. -/
def Executed (env : D.Store → D.Store → Prop) (st₀ : D.Store) (log : List (Commit D ι)) (tx : List (Event D))
    (e : Event D) : Prop :=
  ∃ st b c, Moment env st₀ log e.seen b tx st ∧ D.eval e.stmt (view tx st) b c = some (.ok (e.res, e.writes))

/-- The statement was refused at some moment. -/
def Refused (env : D.Store → D.Store → Prop) (st₀ : D.Store) (log : List (Commit D ι)) (tx : List (Event D))
    (s : D.Stmt) (e : D.Err) : Prop :=
  ∃ st n b c, Moment env st₀ log n b tx st ∧ D.eval s (view tx st) b c = some (.error e)

section Moments

variable {env : D.Store → D.Store → Prop} {st₀ : D.Store} {log : List (Commit D ι)} {n b : ℕ}
  {tx : List (Event D)} {st : D.Store}

theorem Moment.later (h : Moment env st₀ log n b tx st) (rest : List (Commit D ι)) :
    Moment env st₀ (log ++ rest) n b tx st := by
  have hle := h.le
  have htake : (log ++ rest).take n = log.take n := List.take_append_of_le_length hle
  refine ⟨?_, ?_, ?_⟩
  · rw [List.length_append]
    omega
  · rw [htake]
    exact h.past
  · rw [htake]
    exact h.recorded

theorem Executed.later {e : Event D} (h : Executed env st₀ log tx e) (rest : List (Commit D ι)) :
    Executed env st₀ (log ++ rest) tx e := by
  obtain ⟨st, b, c, hm, he⟩ := h
  exact ⟨st, b, c, hm.later rest, he⟩

theorem Refused.later {s : D.Stmt} {e : D.Err} (h : Refused env st₀ log tx s e) (rest : List (Commit D ι)) :
    Refused env st₀ (log ++ rest) tx s e := by
  obtain ⟨st, n, b, c, hm, he⟩ := h
  exact ⟨st, n, b, c, hm.later rest, he⟩

theorem Executed.seen_le {e : Event D} (h : Executed env st₀ log tx e) : e.seen ≤ log.length := by
  obtain ⟨st, b, c, hm, -⟩ := h
  exact hm.le

end Moments

/-- The transactions with at least one statement. -/
def attemptsOf (txs : List (List (Event D))) : List (List (Event D)) := txs.filter fun tx => !tx.isEmpty

/-- What a live session has lived through: the attempts behind it, with the evidence of each of their
statements, in the order in which they ran. -/
structure Recalled [DecidableEq ι] (env : D.Store → D.Store → Prop) (st₀ : D.Store) (log : List (Commit D ι))
    (i : ι) (p₀ : Prog D α) (past : List (List (Event D))) (done : List (Attempt D)) (tx : List (Event D))
    (p : Prog D α) : Prop where
  lived : Lived (Executed env st₀ log) (Refused env st₀ log) p₀ done tx p
  past : past = attemptsOf (done.map Attempt.tx)
  committed : committedOf done = ownOf i log
  ordered : (eventsOf done ++ tx).Pairwise fun e e' => e.seen ≤ e'.seen

section Recall

variable [DecidableEq ι] {env : D.Store → D.Store → Prop} {st₀ : D.Store} {clock : ℕ} {prog : ι → Prog D α}
  {σ : Config D ι α} {past : ι → List (List (Event D))}

theorem left_self (s : Session D α) : s.left s = [] := by
  cases h : s.tx.isEmpty <;> simp [Session.left, h]

theorem left_append (s : Session D α) {s' : Session D α} {e : Event D} (h : s'.tx = s.tx ++ [e]) :
    s.left s' = [] := by
  simp [Session.left, h]

theorem left_ended (s : Session D α) {s' : Session D α} (h : s'.tx = []) : s.left s' = attemptsOf [s.tx] := by
  cases hs : s.tx.isEmpty <;> simp [Session.left, attemptsOf, h, hs]

theorem attemptsOf_append (txs txs' : List (List (Event D))) :
    attemptsOf (txs ++ txs') = attemptsOf txs ++ attemptsOf txs' := by
  simp [attemptsOf]

theorem Recalled.later {log : List (Commit D ι)} {i : ι} {p₀ p : Prog D α} {txs : List (List (Event D))}
    {done : List (Attempt D)} {tx : List (Event D)} (h : Recalled env st₀ log i p₀ txs done tx p)
    {rest : List (Commit D ι)} (hrest : ownOf i rest = []) :
    Recalled env st₀ (log ++ rest) i p₀ txs done tx p := by
  refine ⟨h.lived.mono (fun _ _ he => he.later rest) (fun _ _ _ he => he.later rest), h.past, ?_, h.ordered⟩
  rw [h.committed, ownOf, ownOf, List.filter_append, List.map_append]
  rw [ownOf] at hrest
  rw [hrest, List.append_nil]

/-- Every live session can be recalled from the run. -/
theorem Runs.recalled (h : Runs env (Config.init st₀ clock prog) σ past) (i : ι) {p : Prog D α}
    (hp : (σ.session i).prog = some p) : ∃ done,
      Recalled env st₀ σ.world.log i (prog i) (past i) done (σ.session i).tx p := by
  induction h generalizing p with
  | start =>
    obtain rfl : prog i = p := Option.some.inj hp
    exact ⟨[], .start, rfl, rfl, by simp [eventsOf, Config.init]⟩
  | @step σ σ' past h hs ih =>
    have hwf := reaches_wellFormed h.reaches
    show ∃ done, Recalled env st₀ σ'.world.log i (prog i) (past i ++ (σ.session i).left (σ'.session i)) done
      (σ'.session i).tx p
    cases hs with
    | @exec j s k r ws c hpj he hf =>
      by_cases hij : i = j
      · subst hij
        rw [set_self] at hp ⊢
        obtain rfl : k r = p := Option.some.inj hp
        obtain ⟨done, hl, hpast, hown, hord⟩ := ih hpj
        have hmoment :
            Moment env st₀ σ.world.log σ.world.log.length (σ.start i) (σ.session i).tx σ.world.store := by
          refine ⟨le_rfl, ?_, ?_⟩
          · rw [List.take_length]
            exact hwf.history
          · rw [List.take_length]
            exact hwf.recorded i
        refine ⟨done, hl.exec ⟨_, _, c, hmoment, he⟩, ?_, hown, ?_⟩
        · rw [hpast, left_append _ rfl, List.append_nil]
        · rw [← List.append_assoc, List.pairwise_append]
          refine ⟨hord, List.pairwise_singleton _ _, ?_⟩
          intro e he e' he'
          obtain rfl := List.mem_singleton.mp he'
          obtain ⟨pre, hex⟩ := hl.mem e he
          exact hex.seen_le
      · rw [set_of_ne _ _ hij] at hp ⊢
        rw [left_self, List.append_nil]
        exact ih hp
    | @fail j s k e c hpj he =>
      by_cases hij : i = j
      · subst hij
        rw [set_self] at hp ⊢
        obtain rfl : Prog.rollback (.raise e) = p := Option.some.inj hp
        obtain ⟨done, hl, hpast, hown, hord⟩ := ih hpj
        have hmoment :
            Moment env st₀ σ.world.log σ.world.log.length (σ.start i) (σ.session i).tx σ.world.store := by
          refine ⟨le_rfl, ?_, ?_⟩
          · rw [List.take_length]
            exact hwf.history
          · rw [List.take_length]
            exact hwf.recorded i
        refine ⟨done, hl.fail ⟨_, _, _, c, hmoment, he⟩, ?_, hown, hord⟩
        rw [hpast]
        cases hs : (σ.session i).tx.isEmpty <;> simp [Session.left, hs]
      · rw [set_of_ne _ _ hij] at hp ⊢
        rw [left_self, List.append_nil]
        exact ih hp
    | @commit j k hpj =>
      by_cases hij : i = j
      · subst hij
        rw [set_self] at hp ⊢
        obtain rfl : k = p := Option.some.inj hp
        obtain ⟨done, hl, hpast, hown, hord⟩ := ih hpj
        refine ⟨done ++ [⟨(σ.session i).tx, true⟩], ?_, ?_, ?_, ?_⟩
        · apply Lived.commit
          exact hl.mono (fun _ _ he => he.later _) (fun _ _ _ he => he.later _)
        · rw [hpast, left_ended _ rfl, List.map_append, attemptsOf_append]
          rfl
        · simp [World.commit, ownOf, hown]
        · simpa using hord
      · rw [set_of_ne _ _ hij] at hp ⊢
        rw [left_self, List.append_nil]
        obtain ⟨done, hrec⟩ := ih hp
        exact ⟨done, hrec.later (by simp [ownOf, Ne.symm hij])⟩
    | @rollback j k hpj =>
      by_cases hij : i = j
      · subst hij
        rw [set_self] at hp ⊢
        obtain rfl : k = p := Option.some.inj hp
        obtain ⟨done, hl, hpast, hown, hord⟩ := ih hpj
        refine ⟨done ++ [⟨(σ.session i).tx, false⟩], ?_, ?_, ?_, ?_⟩
        · exact hl.rollback
        · rw [hpast, left_ended _ rfl, List.map_append, attemptsOf_append]
          rfl
        · simp [hown]
        · simpa using hord
      · rw [set_of_ne _ _ hij] at hp ⊢
        rw [left_self, List.append_nil]
        exact ih hp
    | crash j =>
      by_cases hij : i = j
      · subst hij
        rw [set_self] at hp
        cases hp
      · rw [set_of_ne _ _ hij] at hp ⊢
        rw [left_self, List.append_nil]
        exact ih hp
    | tick ht =>
      rw [left_self, List.append_nil]
      exact ih hp
    | env he =>
      rw [left_self, List.append_nil]
      exact ih hp

end Recall
end PaymentLedger
