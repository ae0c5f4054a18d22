import PaymentLedger.Transaction.Program
import Mathlib.Logic.Relation

namespace PaymentLedger

/-- A statement that a transaction executed, what it returned, what it wrote, and how many
commits preceded it. -/
structure Event (D : Dbms) where
  stmt : D.Stmt
  res : D.Res stmt
  writes : List D.Write
  seen : ℕ

section Overlay

variable {D : Dbms}

def writesOf (tx : List (Event D)) : List D.Write := tx.flatMap Event.writes

def applyAll (ws : List D.Write) (st : D.Store) : D.Store := ws.foldl (fun st w => D.apply w st) st

/-- The store as a session with these uncommitted statements sees it. -/
def view (tx : List (Event D)) (st : D.Store) : D.Store := applyAll (writesOf tx) st

def locksOf (tx : List (Event D)) : List D.Row := (writesOf tx).filterMap D.locked

@[simp] theorem writesOf_nil : writesOf ([] : List (Event D)) = [] := rfl

@[simp] theorem writesOf_append (tx tx' : List (Event D)) :
    writesOf (tx ++ tx') = writesOf tx ++ writesOf tx' := List.flatMap_append

@[simp] theorem writesOf_cons (e : Event D) (tx : List (Event D)) :
    writesOf (e :: tx) = e.writes ++ writesOf tx := rfl

@[simp] theorem view_nil (st : D.Store) : view [] st = st := rfl

@[simp] theorem locksOf_nil : locksOf ([] : List (Event D)) = [] := rfl

@[simp] theorem locksOf_append (tx tx' : List (Event D)) :
    locksOf (tx ++ tx') = locksOf tx ++ locksOf tx' := by
  simp [locksOf, List.filterMap_append]

@[simp] theorem locksOf_singleton (e : Event D) : locksOf [e] = e.writes.filterMap D.locked := by
  simp [locksOf]

end Overlay

/-- A committed transaction: who ran it, its statements, when it began and the committed
store it was applied to. -/
structure Commit (D : Dbms) (ι : Type) where
  caller : ι
  tx : List (Event D)
  began : ℕ
  before : D.Store

def Commit.after {D : Dbms} {ι : Type} (c : Commit D ι) : D.Store := view c.tx c.before

/-- What the sessions share: the committed store, the clock, and the commits in their order. -/
structure World (D : Dbms) (ι : Type) where
  store : D.Store
  clock : ℕ
  log : List (Commit D ι)

def World.commit {D : Dbms} {ι : Type} (W : World D ι) (i : ι) (began : ℕ) (tx : List (Event D)) :
    World D ι :=
  ⟨view tx W.store, W.clock, W.log ++ [⟨i, tx, began, W.store⟩]⟩

/-- One caller: the rest of its program (none after a crash) and its open transaction. -/
structure Session (D : Dbms) (α : Type) where
  prog : Option (Prog D α)
  tx : List (Event D)
  began : Option ℕ

/-- What the caller has got from its program, once it has ended. -/
def Session.result {D : Dbms} {α : Type} (s : Session D α) : Option (Except D.Err α) :=
  match s.prog with
  | some (.ret a) => some (.ok a)
  | some (.raise e) => some (.error e)
  | _ => none

/-- The program has ended, or the process has crashed. -/
def Session.Over {D : Dbms} {α : Type} (s : Session D α) : Prop := s.result.isSome = true ∨ s.prog = none

theorem result_ok {D : Dbms} {α : Type} {s : Session D α} {a : α} :
    s.result = some (.ok a) ↔ s.prog = some (.ret a) := by
  unfold Session.result
  split <;> simp_all

theorem result_returned {D : Dbms} {α : Type} {s : Session D α}
    (h : (s.result.bind Except.toOption).isSome = true) : ∃ a, s.result = some (.ok a) := by
  cases hr : s.result with
  | none => simp [hr] at h
  | some r =>
    cases r with
    | error e => simp [hr, Except.toOption] at h
    | ok a => exact ⟨a, rfl⟩

theorem result_error {D : Dbms} {α : Type} {s : Session D α} {e : D.Err} :
    s.result = some (.error e) ↔ s.prog = some (.raise e) := by
  unfold Session.result
  split <;> simp_all

structure Config (D : Dbms) (ι α : Type) where
  world : World D ι
  session : ι → Session D α

section Semantics

variable {D : Dbms} {ι α : Type} [DecidableEq ι]

def Config.init (st : D.Store) (clock : ℕ) (prog : ι → Prog D α) : Config D ι α :=
  ⟨⟨st, clock, []⟩, fun i => ⟨some (prog i), [], none⟩⟩

def Config.set (σ : Config D ι α) (i : ι) (s : Session D α) : Config D ι α :=
  { σ with session := Function.update σ.session i s }

/-- The store the next statement of `i` reads: READ COMMITTED, its own writes included. -/
def Config.view (σ : Config D ι α) (i : ι) : D.Store := PaymentLedger.view (σ.session i).tx σ.world.store

/-- When the transaction of `i` began; its first statement begins it. -/
def Config.start (σ : Config D ι α) (i : ι) : ℕ := (σ.session i).began.getD σ.world.clock

/-- No other session holds a row lock that these writes take. -/
def Config.Free (σ : Config D ι α) (i : ι) (ws : List D.Write) : Prop :=
  ∀ j, j ≠ i → ∀ row ∈ ws.filterMap D.locked, row ∉ locksOf (σ.session j).tx

/-- One step of the system. A statement whose row lock is held elsewhere has no step: it waits.
An error leaves the transaction open until the exception rolls it back. -/
inductive Step (env : D.Store → D.Store → Prop) : Config D ι α → Config D ι α → Prop
  | exec {σ : Config D ι α} {i : ι} {s : D.Stmt} {k : D.Res s → Prog D α} {r : D.Res s}
      {ws : List D.Write} (c : D.Choice) (hp : (σ.session i).prog = some (.exec s k))
      (he : D.eval s (σ.view i) (σ.start i) c = some (.ok (r, ws))) (hf : σ.Free i ws) :
      Step env σ (σ.set i ⟨some (k r), (σ.session i).tx ++ [⟨s, r, ws, σ.world.log.length⟩],
        some (σ.start i)⟩)
  | fail {σ : Config D ι α} {i : ι} {s : D.Stmt} {k : D.Res s → Prog D α} {e : D.Err}
      (c : D.Choice) (hp : (σ.session i).prog = some (.exec s k))
      (he : D.eval s (σ.view i) (σ.start i) c = some (.error e)) :
      Step env σ (σ.set i ⟨some (.rollback (.raise e)), (σ.session i).tx, some (σ.start i)⟩)
  | commit {σ : Config D ι α} {i : ι} {k : Prog D α} (hp : (σ.session i).prog = some (.commit k)) :
      Step env σ (Config.set ⟨σ.world.commit i (σ.start i) (σ.session i).tx, σ.session⟩ i ⟨some k, [], none⟩)
  | rollback {σ : Config D ι α} {i : ι} {k : Prog D α} (hp : (σ.session i).prog = some (.rollback k)) :
      Step env σ (σ.set i ⟨some k, [], none⟩)
  | crash (σ : Config D ι α) (i : ι) : Step env σ (σ.set i ⟨none, [], none⟩)
  | tick {σ : Config D ι α} {t : ℕ} (ht : σ.world.clock ≤ t) :
      Step env σ ⟨{ σ.world with clock := t }, σ.session⟩
  | env {σ : Config D ι α} {st : D.Store} (he : env σ.world.store st) :
      Step env σ ⟨{ σ.world with store := st }, σ.session⟩

def Reaches (env : D.Store → D.Store → Prop) : Config D ι α → Config D ι α → Prop :=
  Relation.ReflTransGen (Step env)

section Execution

variable [Fintype ι] [DecidableEq D.Row]

instance (σ : Config D ι α) (i : ι) (ws : List D.Write) : Decidable (σ.Free i ws) :=
  inferInstanceAs (Decidable (∀ j, j ≠ i → ∀ row ∈ ws.filterMap D.locked, row ∉ locksOf (σ.session j).tx))

/-- The step of session `i` under the given choice, when it has one. -/
def Config.act (σ : Config D ι α) (i : ι) (c : D.Choice) : Option (Config D ι α) :=
  match (σ.session i).prog with
  | some (.exec s k) =>
    match D.eval s (σ.view i) (σ.start i) c with
    | some (.ok (r, ws)) =>
      if σ.Free i ws then
        some (σ.set i ⟨some (k r), (σ.session i).tx ++ [⟨s, r, ws, σ.world.log.length⟩], some (σ.start i)⟩)
      else none
    | some (.error e) =>
      some (σ.set i ⟨some (.rollback (.raise e)), (σ.session i).tx, some (σ.start i)⟩)
    | none => none
  | some (.commit k) =>
    some (Config.set ⟨σ.world.commit i (σ.start i) (σ.session i).tx, σ.session⟩ i ⟨some k, [], none⟩)
  | some (.rollback k) => some (σ.set i ⟨some k, [], none⟩)
  | _ => none

def Config.run : Config D ι α → List (ι × D.Choice) → Option (Config D ι α)
  | σ, [] => some σ
  | σ, (i, c) :: sched => (σ.act i c).bind fun σ' => σ'.run sched

theorem act_step (env : D.Store → D.Store → Prop) {σ σ' : Config D ι α} {i : ι} {c : D.Choice}
    (h : σ.act i c = some σ') : Step env σ σ' := by
  unfold Config.act at h
  split at h
  · rename_i s k hp
    split at h
    · rename_i r ws he
      split at h
      · rename_i hf
        cases h
        exact .exec c hp he hf
      · cases h
    · rename_i e he
      cases h
      exact .fail c hp he
    · cases h
  · rename_i k hp
    cases h
    exact .commit hp
  · rename_i k hp
    cases h
    exact .rollback hp
  · cases h

/-- A schedule that runs to its end is an execution of the system. -/
theorem run_reaches (env : D.Store → D.Store → Prop) (sched : List (ι × D.Choice))
    {σ σ' : Config D ι α} (h : σ.run sched = some σ') : Reaches env σ σ' := by
  induction sched generalizing σ with
  | nil =>
    cases h
    exact .refl
  | cons a sched ih =>
    obtain ⟨σ₁, h₁, h₂⟩ := Option.bind_eq_some_iff.mp h
    exact .head (act_step env h₁) (ih h₂)

end Execution
end Semantics
end PaymentLedger
