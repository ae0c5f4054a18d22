import PaymentLedger.Transaction.History

namespace PaymentLedger

section Cycles

variable {ι : Type} {W : ι → ι → Prop} {i : ι}

theorem cycle_out (h : Relation.TransGen W i i) : ∃ j, W i j ∧ Relation.TransGen W j j := by
  obtain ⟨j, hij, hji⟩ := Relation.TransGen.head'_iff.mp h
  exact ⟨j, hij, Relation.TransGen.tail' hji hij⟩

theorem cycle_in (h : Relation.TransGen W i i) : ∃ j, W j i := by
  obtain ⟨j, -, hji⟩ := Relation.TransGen.tail'_iff.mp h
  exact ⟨j, hji⟩

/-- There is no cycle where a rank rises along each edge between two nodes that lie on cycles. -/
theorem acyclic_of_rank (rank : ι → ℕ)
    (hrank : ∀ i j, Relation.TransGen W i i → Relation.TransGen W j j → W i j → rank i < rank j) (i : ι) :
    ¬Relation.TransGen W i i := by
  intro hi
  have hrises {j : ι} (hij : Relation.TransGen W i j) (hji : Relation.ReflTransGen W j i) : rank i < rank j := by
    induction hij with
    | @single j hij =>
      apply hrank i j hi _ hij
      exact Relation.TransGen.tail' hji hij
    | @tail k j hik hkj ih =>
      have hki : Relation.ReflTransGen W k i := .head hkj hji
      have hk : Relation.TransGen W k k := Relation.TransGen.trans_right hki hik
      have hj : Relation.TransGen W j j := Relation.TransGen.trans_right hji (hik.tail hkj)
      have hlt := hrank k j hk hj hkj
      have hle := ih hki
      omega
  exact lt_irrefl _ (hrises hi .refl)

/-- A cycle of a relation is one of another that has its edges between nodes on cycles. -/
theorem cycle_mono {V : ι → ι → Prop}
    (h : ∀ i j, Relation.TransGen W i i → Relation.TransGen W j j → W i j → V i j) (hi : Relation.TransGen W i i) :
    Relation.TransGen V i i := by
  have along {j : ι} (hij : Relation.TransGen W i j) (hji : Relation.ReflTransGen W j i) :
      Relation.TransGen V i j := by
    induction hij with
    | @single j hij => exact .single (h i j hi (Relation.TransGen.tail' hji hij) hij)
    | @tail k j hik hkj ih =>
      have hki : Relation.ReflTransGen W k i := .head hkj hji
      have hk : Relation.TransGen W k k := Relation.TransGen.trans_right hki hik
      have hj : Relation.TransGen W j j := Relation.TransGen.trans_right hji (hik.tail hkj)
      exact (ih hki).tail (h k j hk hj hkj)
  exact along hi .refl

end Cycles

section Waiting

variable {D : Dbms} {ι α : Type}

/-- The next statement of the session locks the row. -/
def Config.Wants (σ : Config D ι α) (i : ι) (row : D.Row) : Prop :=
  ∃ s k c r ws, (σ.session i).prog = some (.exec s k) ∧
    D.eval s (σ.view i) (σ.start i) c = some (.ok (r, ws)) ∧ row ∈ ws.filterMap D.locked

/-- The session waits for a lock on one of these rows, which the other session holds. -/
def Config.Waits (rows : D.Row → Bool) (σ : Config D ι α) (i j : ι) : Prop :=
  i ≠ j ∧ ∃ row, rows row = true ∧ σ.Wants i row ∧ row ∈ locksOf (σ.session j).tx

/-- The rows that the next statement of the session locks, under the given choice. -/
def Config.wanting (σ : Config D ι α) (i : ι) (c : D.Choice) : List D.Row :=
  match (σ.session i).prog with
  | some (.exec s _) =>
    match D.eval s (σ.view i) (σ.start i) c with
    | some (.ok (_, ws)) => ws.filterMap D.locked
    | _ => []
  | _ => []

theorem wants_of_wanting {σ : Config D ι α} {i : ι} {c : D.Choice} {row : D.Row} (h : row ∈ σ.wanting i c) :
    σ.Wants i row := by
  unfold Config.wanting at h
  split at h
  · rename_i s k hp
    split at h
    · rename_i r ws hev
      exact ⟨s, k, c, r, ws, hp, hev, h⟩
    · cases h
  · cases h

/-- Some sessions wait for each other in a cycle. -/
def Config.Deadlocked (rows : D.Row → Bool) (σ : Config D ι α) : Prop :=
  ∃ i, Relation.TransGen (σ.Waits rows) i i

/-- A session on a cycle holds one of the rows. -/
theorem held_of_cycle {rows : D.Row → Bool} {σ : Config D ι α} {i : ι} (hi : Relation.TransGen (σ.Waits rows) i i) :
    ∃ held, held ∈ locksOf (σ.session i).tx ∧ rows held = true := by
  obtain ⟨j, -, row, hrow, -, hheld⟩ := cycle_in hi
  exact ⟨row, hheld, hrow⟩

end Waiting

section Abort

variable {D : Dbms} {ι α : Type} [DecidableEq ι] {env : D.Store → D.Store → Prop} {rows : D.Row → Bool}
  {deadlock : D.Err} {σ σ' : Config D ι α}

/-- A step of the system, or the end of a wait that has none: the database gives up the transaction of one session
of a cycle, whose statement raises this error. -/
inductive AbortStep (env : D.Store → D.Store → Prop) (rows : D.Row → Bool) (deadlock : D.Err) :
    Config D ι α → Config D ι α → Prop
  | step {σ σ' : Config D ι α} (hs : Step env σ σ') : AbortStep env rows deadlock σ σ'
  | abort {σ : Config D ι α} {i : ι} (hi : Relation.TransGen (σ.Waits rows) i i) :
      AbortStep env rows deadlock σ
        (σ.set i ⟨some (.rollback (.raise deadlock)), (σ.session i).tx, some (σ.start i)⟩)

/-- Where a run never comes to a cycle, no transaction is given up. -/
theorem steps_of_acyclic {R : Config D ι α → Config D ι α → Prop}
    (hfree : ∀ σ', Relation.ReflTransGen (fun σ σ' => Step env σ σ' ∧ R σ σ') σ σ' → ¬σ'.Deadlocked rows)
    (h : Relation.ReflTransGen (fun σ σ' => AbortStep env rows deadlock σ σ' ∧ R σ σ') σ σ') :
    Relation.ReflTransGen (fun σ σ' => Step env σ σ' ∧ R σ σ') σ σ' := by
  induction h with
  | refl => exact .refl
  | tail _ hs ih =>
    obtain ⟨habort, hr⟩ := hs
    cases habort with
    | step hs => exact ih.tail ⟨hs, hr⟩
    | @abort i hi => exact absurd ⟨i, hi⟩ (hfree _ ih)

end Abort

section Schedules

variable {D : Dbms} {ι α : Type} [DecidableEq ι] [Fintype ι] [DecidableEq D.Row]

/-- A run on a schedule, as long as the configurations that it comes to pass a test. -/
def Config.tested (ok : Config D ι α → Bool) : Config D ι α → List (ι × D.Choice) → Option (Config D ι α)
  | σ, [] => some σ
  | σ, (i, c) :: sched => (σ.act i c).bind fun σ' => if ok σ' then σ'.tested ok sched else none

theorem tested_reaches {env : D.Store → D.Store → Prop} {R : Config D ι α → Config D ι α → Prop}
    {ok : Config D ι α → Bool} (hok : ∀ {σ σ' : Config D ι α}, ok σ' = true → R σ σ')
    (sched : List (ι × D.Choice)) {σ σ' : Config D ι α} (h : σ.tested ok sched = some σ') :
    Relation.ReflTransGen (fun σ σ' => Step env σ σ' ∧ R σ σ') σ σ' := by
  induction sched generalizing σ with
  | nil =>
    cases h
    exact .refl
  | cons x sched ih =>
    obtain ⟨σ₁, hact, hrest⟩ := Option.bind_eq_some_iff.mp h
    split at hrest
    · rename_i hpass
      exact .head ⟨act_step env hact, hok hpass⟩ (ih hrest)
    · cases hrest

end Schedules
end PaymentLedger
