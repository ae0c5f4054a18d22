import PaymentLedger.Transaction.History

namespace PaymentLedger

variable {D : Dbms} {α β γ δ : Type} {same : (s : D.Stmt) → D.Res s → D.Res s → Prop}

/-- Two programs that go the same way on results that are the same, to values related by `R`. -/
inductive Alike (same : (s : D.Stmt) → D.Res s → D.Res s → Prop) (R : α → β → Prop) : Prog D α → Prog D β → Prop
  | ret {a : α} {b : β} (h : R a b) : Alike same R (.ret a) (.ret b)
  | raise (e : D.Err) : Alike same R (.raise e) (.raise e)
  | exec {s : D.Stmt} {k : D.Res s → Prog D α} {k' : D.Res s → Prog D β}
      (h : ∀ r r', same s r r' → Alike same R (k r) (k' r')) : Alike same R (.exec s k) (.exec s k')
  | commit {p : Prog D α} {q : Prog D β} (h : Alike same R p q) : Alike same R (.commit p) (.commit q)
  | rollback {p : Prog D α} {q : Prog D β} (h : Alike same R p q) : Alike same R (.rollback p) (.rollback q)

theorem Path.uow {p q : Prog D α} {tx : List (Event D)} (h : Path p tx q) : Path p.uow tx q.uow := by
  induction h with
  | nil p => exact .nil _
  | cons r ws n _ ih => exact .cons r ws n ih

section Alike

variable {R : α → β → Prop} {S : γ → δ → Prop} {p q : Prog D α} {p' : Prog D β} {tx : List (Event D)}

theorem Alike.bind {f : α → Prog D γ} {f' : β → Prog D δ} (h : Alike same R p p')
    (hf : ∀ a b, R a b → Alike same S (f a) (f' b)) : Alike same S (p.bind f) (p'.bind f') := by
  induction h with
  | ret h => exact hf _ _ h
  | raise e => exact .raise e
  | exec _ ih => exact .exec ih
  | commit _ ih => exact .commit ih
  | rollback _ ih => exact .rollback ih

theorem Alike.uow (h : Alike same R p p') : Alike same R p.uow p'.uow := by
  induction h with
  | ret h => exact .rollback (.ret h)
  | raise e => exact .rollback (.raise e)
  | exec _ ih => exact .exec ih
  | commit _ ih => exact .commit ih
  | rollback _ ih => exact .rollback ih

theorem alike_stmt (s : D.Stmt) : Alike same (same s) (Prog.stmt s) (Prog.stmt s) := .exec fun _ _ h => .ret h

/-- The statement, run in its place on this store alone, returns the same and writes the same. -/
def Rerun (same : (s : D.Stmt) → D.Res s → D.Res s → Prop) (st : D.Store) (b : ℕ)
    (pre : List (Event D)) (e : Event D) :
    Prop :=
  ∃ c r, same e.stmt e.res r ∧ D.eval e.stmt (view pre st) b c = some (.ok (r, e.writes))

/-- A session that is alone runs the statements of a path again, and is left with the like of what the path left. -/
theorem Alike.reaches {env : D.Store → D.Store → Prop} (h : Alike same R p p') (hpath : Path p tx q)
    {pre : List (Event D)} {b : ℕ} {σ : Config D Unit β} (hr : Each (Rerun same σ.world.store b) pre tx)
    (hp : (σ.session ()).prog = some p')
    (hpre : writesOf (σ.session ()).tx = writesOf pre) (hb : σ.start () = b) :
    ∃ σ' q', Reaches env σ σ' ∧ σ'.world = σ.world ∧ (σ'.session ()).prog = some q' ∧ Alike same R q q' ∧
      writesOf (σ'.session ()).tx = writesOf (pre ++ tx) := by
  induction hpath generalizing p' pre σ with
  | nil p => exact ⟨σ, p', .refl, rfl, hp, h, by simpa using hpre⟩
  | @cons s k es q r ws n hpath ih =>
    cases h with
    | @exec _ _ k' hk =>
      obtain ⟨⟨c, r', hsame, hev⟩, hrest⟩ := hr
      have hview : D.eval s (σ.view ()) (σ.start ()) c = some (.ok (r', ws)) := by
        rw [Config.view, PaymentLedger.view, hpre, hb]
        exact hev
      have hfree : σ.Free () ws := fun j hj => absurd (Subsingleton.elim j ()) hj
      let σ₁ : Config D Unit β :=
        σ.set () ⟨some (k' r'), (σ.session ()).tx ++ [⟨s, r', ws, σ.world.log.length⟩], some (σ.start ())⟩
      have hstep : Step env σ σ₁ := .exec c hp hview hfree
      have hrest₁ : Each (Rerun same σ₁.world.store b) (pre ++ [⟨s, r, ws, n⟩]) es := hrest
      have hstart : σ₁.start () = b := by
        rw [Config.start, set_self]
        exact hb
      obtain ⟨σ', q', hreaches, hworld, hq, halike, hwrites⟩ :=
        ih (hk r r' hsame) hrest₁ (by simp [σ₁]) (by simp [σ₁, hpre]) hstart
      exact ⟨σ', q', Relation.ReflTransGen.head hstep hreaches, hworld, hq, halike, by simpa using hwrites⟩

/-- A session that is alone commits the same writes again, and returns the same value. -/
theorem Alike.commits {env : D.Store → D.Store → Prop} {st : D.Store} {b : ℕ} {v : α} (h : Alike same Eq p p)
    (hpath : Path p tx (.commit (.rollback (.ret v)))) (hr : Each (Rerun same st b) [] tx) :
    ∃ σ, Reaches env (Config.init st b fun _ : Unit => p) σ ∧ (σ.session ()).prog = some (.ret v) ∧
      σ.world.store = view tx st := by
  let σ₀ : Config D Unit α := Config.init st b fun _ => p
  have hrun : ∃ σ q, Reaches env σ₀ σ ∧ σ.world = σ₀.world ∧ (σ.session ()).prog = some q ∧ Alike same Eq _ q ∧
      writesOf (σ.session ()).tx = writesOf ([] ++ tx) := h.reaches hpath hr rfl rfl rfl
  obtain ⟨σ, q, hreaches, hworld, hq, halike, hwrites⟩ := hrun
  cases halike with
  | commit halike =>
    cases halike with
    | rollback halike =>
      cases halike with
      | ret hv =>
        subst hv
        have hcommitted := hreaches.tail (.commit hq)
        refine ⟨_, hcommitted.tail (.rollback (i := ()) (k := .ret v) (by rw [set_self])), by rw [set_self], ?_⟩
        show applyAll (writesOf (σ.session ()).tx) σ.world.store = applyAll (writesOf tx) st
        rw [hwrites, hworld]
        rfl

end Alike
end PaymentLedger
