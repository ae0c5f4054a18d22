import Mathlib.Tactic

namespace PaymentLedger

/-- A relational database as its sessions see it: statements read the committed store
through the session's own uncommitted writes, and a write may hold a row lock until the
transaction ends. `eval` resolves the choices a statement leaves open (generated ids, ties),
and has no value for a choice that is not possible. -/
structure Dbms where
  Store : Type
  Write : Type
  Row : Type
  Stmt : Type
  Res : Stmt → Type
  Err : Type
  Choice : Type
  apply : Write → Store → Store
  locked : Write → Option Row
  eval : (s : Stmt) → Store → (now : ℕ) → Choice → Option (Except Err (Res s × List Write))

/-- A program that talks to the database: it ends in a value or an exception. -/
inductive Prog (D : Dbms) (α : Type) : Type
  | ret (a : α)
  | raise (e : D.Err)
  | exec (s : D.Stmt) (k : D.Res s → Prog D α)
  | commit (k : Prog D α)
  | rollback (k : Prog D α)

namespace Prog

variable {D : Dbms} {α β γ : Type}

def bind : Prog D α → (α → Prog D β) → Prog D β
  | .ret a, f => f a
  | .raise e, _ => .raise e
  | .exec s k, f => .exec s fun r => (k r).bind f
  | .commit k, f => .commit (k.bind f)
  | .rollback k, f => .rollback (k.bind f)

instance : Monad (Prog D) where
  pure := .ret
  bind := .bind

def stmt (s : D.Stmt) : Prog D (D.Res s) := .exec s .ret

def commitTx : Prog D Unit := .commit (.ret ())

def rollbackTx : Prog D Unit := .rollback (.ret ())

/-- An `async with` block over one session: an exception rolls back on its way out, and
closing the session discards what was not committed. -/
def uow : Prog D α → Prog D α
  | .ret a => .rollback (.ret a)
  | .raise e => .rollback (.raise e)
  | .exec s k => .exec s fun r => uow (k r)
  | .commit k => .commit (uow k)
  | .rollback k => .rollback (uow k)

/-- A pure computation that may raise. -/
def ofExcept {ε : Type} (f : ε → D.Err) : Except ε α → Prog D α
  | .ok a => .ret a
  | .error e => .raise (f e)

@[simp] theorem bind_eq (p : Prog D α) (f : α → Prog D β) : p >>= f = p.bind f := rfl

@[simp] theorem pure_eq (a : α) : (pure a : Prog D α) = .ret a := rfl

theorem bind_assoc (p : Prog D α) (f : α → Prog D β) (g : β → Prog D γ) :
    (p.bind f).bind g = p.bind fun a => (f a).bind g := by
  induction p with
  | ret a => rfl
  | raise e => rfl
  | exec s k ih => simp only [bind, ih]
  | commit k ih => simp only [bind, ih]
  | rollback k ih => simp only [bind, ih]

end Prog
end PaymentLedger
