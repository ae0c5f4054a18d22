import PaymentLedger.Transaction.System

namespace PaymentLedger

variable {D : Dbms} {α β : Type}

/-- `p` executes exactly these statements, in this order, and what is left is `q`. -/
inductive Path : Prog D α → List (Event D) → Prog D α → Prop
  | nil (p : Prog D α) : Path p [] p
  | cons {s : D.Stmt} {k : D.Res s → Prog D α} {es : List (Event D)} {q : Prog D α} (r : D.Res s)
      (ws : List D.Write) (n : ℕ) (h : Path (k r) es q) : Path (.exec s k) (⟨s, r, ws, n⟩ :: es) q

theorem path_nil {p q : Prog D α} : Path p [] q ↔ p = q := by
  constructor
  · intro h
    cases h
    rfl
  · intro h
    rw [h]
    exact .nil q

@[simp] theorem path_ret {a b : α} {tx : List (Event D)} : Path (.ret a) tx (.ret b) ↔ tx = [] ∧ a = b := by
  constructor
  · intro h
    cases h
    exact ⟨rfl, rfl⟩
  · rintro ⟨rfl, rfl⟩
    exact .nil _

@[simp] theorem path_ret_commit {a : α} {tx : List (Event D)} {q : Prog D α} :
    ¬Path (.ret a) tx (.commit q) := by
  intro h
  cases h

@[simp] theorem path_ret_exec {a : α} {tx : List (Event D)} {s : D.Stmt} {k : D.Res s → Prog D α} :
    ¬Path (.ret a) tx (.exec s k) := by
  intro h
  cases h

@[simp] theorem path_raise_ret {e : D.Err} {b : α} {tx : List (Event D)} : ¬Path (.raise e) tx (.ret b) := by
  intro h
  cases h

@[simp] theorem path_raise_commit {e : D.Err} {tx : List (Event D)} {q : Prog D α} :
    ¬Path (.raise e) tx (.commit q) := by
  intro h
  cases h

@[simp] theorem path_raise_exec {e : D.Err} {tx : List (Event D)} {s : D.Stmt} {k : D.Res s → Prog D α} :
    ¬Path (.raise e) tx (.exec s k) := by
  intro h
  cases h

@[simp] theorem path_commit {p q : Prog D α} {tx : List (Event D)} :
    Path (.commit p) tx (.commit q) ↔ tx = [] ∧ p = q := by
  constructor
  · intro h
    cases h
    exact ⟨rfl, rfl⟩
  · rintro ⟨rfl, rfl⟩
    exact .nil _

@[simp] theorem path_commit_ret {p : Prog D α} {b : α} {tx : List (Event D)} :
    ¬Path (.commit p) tx (.ret b) := by
  intro h
  cases h

@[simp] theorem path_commit_exec {p : Prog D α} {tx : List (Event D)} {s : D.Stmt}
    {k : D.Res s → Prog D α} : ¬Path (.commit p) tx (.exec s k) := by
  intro h
  cases h

@[simp] theorem path_rollback_ret {p : Prog D α} {b : α} {tx : List (Event D)} :
    ¬Path (.rollback p) tx (.ret b) := by
  intro h
  cases h

@[simp] theorem path_rollback_commit {p q : Prog D α} {tx : List (Event D)} :
    ¬Path (.rollback p) tx (.commit q) := by
  intro h
  cases h

@[simp] theorem path_rollback_exec {p : Prog D α} {tx : List (Event D)} {s : D.Stmt}
    {k : D.Res s → Prog D α} : ¬Path (.rollback p) tx (.exec s k) := by
  intro h
  cases h

@[simp] theorem path_rollback {p q : Prog D α} {tx : List (Event D)} :
    Path (.rollback p) tx (.rollback q) ↔ tx = [] ∧ p = q := by
  constructor
  · intro h
    cases h
    exact ⟨rfl, rfl⟩
  · rintro ⟨rfl, rfl⟩
    exact .nil _

@[simp] theorem path_raise_rollback {e : D.Err} {tx : List (Event D)} {q : Prog D α} :
    ¬Path (.raise e) tx (.rollback q) := by
  intro h
  cases h

@[simp] theorem path_ret_rollback {a : α} {tx : List (Event D)} {q : Prog D α} :
    ¬Path (.ret a) tx (.rollback q) := by
  intro h
  cases h

@[simp] theorem path_commit_rollback {p q : Prog D α} {tx : List (Event D)} :
    ¬Path (.commit p) tx (.rollback q) := by
  intro h
  cases h

@[simp] theorem path_raise {e e' : D.Err} {tx : List (Event D)} :
    Path (.raise e : Prog D α) tx (.raise e') ↔ tx = [] ∧ e = e' := by
  constructor
  · intro h
    cases h
    exact ⟨rfl, rfl⟩
  · rintro ⟨rfl, rfl⟩
    exact .nil _

theorem path_exec_ret {s : D.Stmt} {k : D.Res s → Prog D α} {tx : List (Event D)} {b : α} :
    Path (.exec s k) tx (.ret b) ↔
      ∃ r ws n es, tx = ⟨s, r, ws, n⟩ :: es ∧ Path (k r) es (.ret b) := by
  constructor
  · intro h
    cases h with
    | cons r ws n h => exact ⟨r, ws, n, _, rfl, h⟩
  · rintro ⟨r, ws, n, es, rfl, h⟩
    exact .cons r ws n h

/-- One statement, executed and returned. -/
theorem path_stmt {s : D.Stmt} {tx : List (Event D)} {b : D.Res s} :
    Path (Prog.stmt s) tx (.ret b) ↔ ∃ ws n, tx = [⟨s, b, ws, n⟩] := by
  rw [Prog.stmt, path_exec_ret]
  constructor
  · rintro ⟨r, ws, n, es, rfl, h⟩
    obtain ⟨rfl, rfl⟩ := path_ret.mp h
    exact ⟨ws, n, rfl⟩
  · rintro ⟨ws, n, rfl⟩
    exact ⟨b, ws, n, [], rfl, .nil _⟩

theorem path_stmt_exec {s s' : D.Stmt} {k : D.Res s' → Prog D (D.Res s)} {tx : List (Event D)}
    (h : Path (Prog.stmt s) tx (.exec s' k)) : tx = [] ∧ s' = s := by
  rw [Prog.stmt] at h
  cases h with
  | nil => exact ⟨rfl, rfl⟩
  | cons r ws n h => exact absurd h path_ret_exec

theorem Path.append {p q : Prog D α} {t₁ t₂ : List (Event D)} {o : Prog D α} (h₁ : Path p t₁ q)
    (h₂ : Path q t₂ o) : Path p (t₁ ++ t₂) o := by
  induction h₁ with
  | nil => exact h₂
  | cons r ws n _ ih => exact .cons r ws n (ih h₂)

theorem Path.bind {p q : Prog D α} {tx : List (Event D)} (h : Path p tx q) (f : α → Prog D β) :
    Path (p.bind f) tx (q.bind f) := by
  induction h with
  | nil p => exact .nil _
  | cons r ws n _ ih => exact .cons r ws n ih

/-- A run of `p.bind f` either is still in `p`, or has returned from it. -/
theorem path_bind_cases {p : Prog D α} {f : α → Prog D β} {tx : List (Event D)} {q : Prog D β}
    (h : Path (p.bind f) tx q) : (∃ p', Path p tx p' ∧ q = p'.bind f) ∨
      ∃ t₁ a t₂, tx = t₁ ++ t₂ ∧ Path p t₁ (.ret a) ∧ Path (f a) t₂ q := by
  induction p generalizing tx with
  | ret a => exact .inr ⟨[], a, tx, rfl, .nil _, h⟩
  | raise e =>
    cases h with
    | nil => exact .inl ⟨_, .nil _, rfl⟩
  | exec s k ih =>
    cases h with
    | nil => exact .inl ⟨_, .nil _, rfl⟩
    | cons r ws n h =>
      rcases ih r h with ⟨p', hp, rfl⟩ | ⟨t₁, a, t₂, rfl, hp, hf⟩
      · exact .inl ⟨p', .cons r ws n hp, rfl⟩
      · exact .inr ⟨_ :: t₁, a, t₂, rfl, .cons r ws n hp, hf⟩
  | commit k ih =>
    cases h with
    | nil => exact .inl ⟨_, .nil _, rfl⟩
  | rollback k ih =>
    cases h with
    | nil => exact .inl ⟨_, .nil _, rfl⟩

theorem path_bind_ret {p : Prog D α} {f : α → Prog D β} {tx : List (Event D)} {b : β} :
    Path (p.bind f) tx (.ret b) ↔
      ∃ t₁ a t₂, tx = t₁ ++ t₂ ∧ Path p t₁ (.ret a) ∧ Path (f a) t₂ (.ret b) := by
  constructor
  · intro h
    rcases path_bind_cases h with ⟨p', hp, hq⟩ | h
    · cases p' with
      | ret a => exact ⟨tx, a, [], by simp, hp, path_nil.mpr hq.symm⟩
      | raise e => cases hq
      | exec s k => cases hq
      | commit k => cases hq
      | rollback k => cases hq
    · exact h
  · rintro ⟨t₁, a, t₂, rfl, hp, hf⟩
    exact (hp.bind f).append hf

/-- A program that neither commits nor rolls back. -/
def Plain : Prog D α → Prop
  | .ret _ => True
  | .raise _ => True
  | .exec _ k => ∀ r, Plain (k r)
  | .commit _ => False
  | .rollback _ => False

theorem plain_stmt (s : D.Stmt) : Plain (Prog.stmt s) := fun _ => trivial

theorem Plain.bind {p : Prog D α} {f : α → Prog D β} (hp : Plain p) (hf : ∀ a, Plain (f a)) :
    Plain (p.bind f) := by
  induction p with
  | ret a => exact hf a
  | raise e => exact hp
  | exec s k ih => exact fun r => ih r (hp r)
  | commit k ih => exact hp
  | rollback k ih => exact hp

theorem Plain.path {p q : Prog D α} {tx : List (Event D)} (hp : Plain p) (h : Path p tx q) : Plain q := by
  induction h with
  | nil p => exact hp
  | cons r ws n _ ih => exact ih (hp r)

/-- The program that ends a transaction one way or the other. -/
def Prog.closing (committed : Bool) (q : Prog D α) : Prog D α := if committed then .commit q else .rollback q

theorem path_bind_closing {p : Prog D α} (hp : Plain p) {f : α → Prog D β} {tx : List (Event D)}
    {b : Bool} {q : Prog D β} : Path (p.bind f) tx (.closing b q) ↔
      ∃ t₁ a t₂, tx = t₁ ++ t₂ ∧ Path p t₁ (.ret a) ∧ Path (f a) t₂ (.closing b q) := by
  constructor
  · intro h
    rcases path_bind_cases h with ⟨p', hp', hq⟩ | h
    · have hplain := hp.path hp'
      cases p' with
      | ret a => exact ⟨tx, a, [], by simp, hp', path_nil.mpr hq.symm⟩
      | raise e => cases b <;> cases hq
      | exec s k => cases b <;> cases hq
      | commit k => exact hplain.elim
      | rollback k => exact hplain.elim
    · exact h
  · rintro ⟨t₁, a, t₂, rfl, h, hf⟩
    exact (h.bind f).append hf

theorem path_bind_commit {p : Prog D α} (hp : Plain p) {f : α → Prog D β} {tx : List (Event D)}
    {q : Prog D β} : Path (p.bind f) tx (.commit q) ↔
      ∃ t₁ a t₂, tx = t₁ ++ t₂ ∧ Path p t₁ (.ret a) ∧ Path (f a) t₂ (.commit q) :=
  path_bind_closing (b := true) hp

theorem path_bind_rollback {p : Prog D α} (hp : Plain p) {f : α → Prog D β} {tx : List (Event D)}
    {q : Prog D β} : Path (p.bind f) tx (.rollback q) ↔
      ∃ t₁ a t₂, tx = t₁ ++ t₂ ∧ Path p t₁ (.ret a) ∧ Path (f a) t₂ (.rollback q) :=
  path_bind_closing (b := false) hp

/-- Every error that the program itself raises satisfies `P`. -/
def Raises (P : D.Err → Prop) : Prog D α → Prop
  | .ret _ => True
  | .raise e => P e
  | .exec _ k => ∀ r, Raises P (k r)
  | .commit k => Raises P k
  | .rollback k => Raises P k

theorem Raises.bind {P : D.Err → Prop} {p : Prog D α} {f : α → Prog D β} (hp : Raises P p)
    (hf : ∀ a, Raises P (f a)) : Raises P (p.bind f) := by
  induction p with
  | ret a => exact hf a
  | raise e => exact hp
  | exec s k ih => exact fun r => ih r (hp r)
  | commit k ih => exact ih hp
  | rollback k ih => exact ih hp

theorem Raises.path {P : D.Err → Prop} {p q : Prog D α} {tx : List (Event D)} (hp : Raises P p)
    (h : Path p tx q) : Raises P q := by
  induction h with
  | nil p => exact hp
  | cons r ws n _ ih => exact ih (hp r)

/-- Every statement that the program executes satisfies `Q`. -/
def Only (Q : D.Stmt → Prop) : Prog D α → Prop
  | .ret _ => True
  | .raise _ => True
  | .exec s k => Q s ∧ ∀ r, Only Q (k r)
  | .commit k => Only Q k
  | .rollback k => Only Q k

theorem only_stmt {Q : D.Stmt → Prop} {s : D.Stmt} (h : Q s) : Only Q (Prog.stmt s) := ⟨h, fun _ => trivial⟩

theorem Only.bind {Q : D.Stmt → Prop} {p : Prog D α} {f : α → Prog D β} (hp : Only Q p)
    (hf : ∀ a, Only Q (f a)) : Only Q (p.bind f) := by
  induction p with
  | ret a => exact hf a
  | raise e => trivial
  | exec s k ih => exact ⟨hp.1, fun r => ih r (hp.2 r)⟩
  | commit k ih => exact ih hp
  | rollback k ih => exact ih hp

theorem Only.path {Q : D.Stmt → Prop} {p q : Prog D α} {tx : List (Event D)} (hp : Only Q p) (h : Path p tx q) :
    (∀ e ∈ tx, Q e.stmt) ∧ Only Q q := by
  induction h with
  | nil p => exact ⟨by simp, hp⟩
  | cons r ws n _ ih =>
    obtain ⟨hs, hrest⟩ := hp
    obtain ⟨htx, hq⟩ := ih (hrest r)
    exact ⟨List.forall_mem_cons.mpr ⟨hs, htx⟩, hq⟩

/-- A program that neither commits nor rolls back, whose statements satisfy `Q` and whose own errors satisfy `P`. -/
def Queries (Q : D.Stmt → Prop) (P : D.Err → Prop) : Prog D α → Prop
  | .ret _ => True
  | .raise e => P e
  | .exec s k => Q s ∧ ∀ r, Queries Q P (k r)
  | .commit _ => False
  | .rollback _ => False

section Queries

variable {Q : D.Stmt → Prop} {P : D.Err → Prop} {p : Prog D α}

theorem queries_stmt {s : D.Stmt} (h : Q s) : Queries Q P (Prog.stmt s) := ⟨h, fun _ => trivial⟩

theorem Queries.bind {f : α → Prog D β} (hp : Queries Q P p) (hf : ∀ a, Queries Q P (f a)) :
    Queries Q P (p.bind f) := by
  induction p with
  | ret a => exact hf a
  | raise e => exact hp
  | exec s k ih => exact ⟨hp.1, fun r => ih r (hp.2 r)⟩
  | commit k ih => exact hp
  | rollback k ih => exact hp

theorem Queries.plain (h : Queries (fun _ => True) (fun _ => True) p) : Plain p := by
  induction p with
  | ret a => trivial
  | raise e => trivial
  | exec s k ih => exact fun r => ih r (h.2 r)
  | commit k ih => exact h
  | rollback k ih => exact h

theorem Queries.raises (h : Queries (fun _ => True) P p) : Raises P p := by
  induction p with
  | ret a => trivial
  | raise e => exact h
  | exec s k ih => exact fun r => ih r (h.2 r)
  | commit k ih => exact h.elim
  | rollback k ih => exact h.elim

theorem Queries.only (h : Queries Q (fun _ => True) p) : Only Q p := by
  induction p with
  | ret a => trivial
  | raise e => trivial
  | exec s k ih => exact ⟨h.1, fun r => ih r (h.2 r)⟩
  | commit k ih => exact h.elim
  | rollback k ih => exact h.elim

end Queries

/-- Of the statements of a run of the program, at most one does not satisfy `Q`. -/
def OnlyButOne (Q : D.Stmt → Prop) : Prog D α → Prop
  | .ret _ => True
  | .raise _ => True
  | .exec s k => (Q s ∧ ∀ r, OnlyButOne Q (k r)) ∨ ∀ r, Only Q (k r)
  | .commit k => OnlyButOne Q k
  | .rollback k => OnlyButOne Q k

theorem Only.butOne {Q : D.Stmt → Prop} {p : Prog D α} (h : Only Q p) : OnlyButOne Q p := by
  induction p with
  | ret a => trivial
  | raise e => trivial
  | exec s k ih => exact .inr h.2
  | commit k ih => exact ih h
  | rollback k ih => exact ih h

theorem onlyButOne_stmt {Q : D.Stmt → Prop} (s : D.Stmt) : OnlyButOne Q (Prog.stmt s) := .inr fun _ => trivial

theorem OnlyButOne.before {Q : D.Stmt → Prop} {p : Prog D α} {f : α → Prog D β} (hp : Only Q p)
    (hf : ∀ a, OnlyButOne Q (f a)) : OnlyButOne Q (p.bind f) := by
  induction p with
  | ret a => exact hf a
  | raise e => trivial
  | exec s k ih => exact .inl ⟨hp.1, fun r => ih r (hp.2 r)⟩
  | commit k ih => exact ih hp
  | rollback k ih => exact ih hp

theorem OnlyButOne.bind {Q : D.Stmt → Prop} {p : Prog D α} {f : α → Prog D β} (hp : OnlyButOne Q p)
    (hf : ∀ a, Only Q (f a)) : OnlyButOne Q (p.bind f) := by
  induction p with
  | ret a => exact (hf a).butOne
  | raise e => trivial
  | exec s k ih =>
    rcases hp with ⟨hs, hk⟩ | hk
    · exact .inl ⟨hs, fun r => ih r (hk r)⟩
    · exact .inr fun r => (hk r).bind hf
  | commit k ih => exact ih hp
  | rollback k ih => exact ih hp

/-- A statement that does not satisfy `Q` comes after statements that do. -/
theorem OnlyButOne.path {Q : D.Stmt → Prop} {p : Prog D α} {tx : List (Event D)} {s : D.Stmt}
    {k : D.Res s → Prog D α}
    (hp : OnlyButOne Q p) (h : Path p tx (.exec s k)) : Q s ∨ ∀ e ∈ tx, Q e.stmt := by
  generalize hq : Prog.exec s k = q at h
  induction h with
  | nil p => exact .inr (by simp)
  | cons r ws n h ih =>
    subst hq
    rcases hp with ⟨hs, hk⟩ | hk
    · rcases ih (hk r) rfl with hnext | htx
      · exact .inl hnext
      · exact .inr (List.forall_mem_cons.mpr ⟨hs, htx⟩)
    · exact .inl ((hk r).path h).2.1

/-- The next statement of `p.bind f` is one of `p`, or one of what follows its result. -/
theorem path_bind_exec {p : Prog D α} {f : α → Prog D β} {tx : List (Event D)} {s : D.Stmt}
    {k : D.Res s → Prog D β} (h : Path (p.bind f) tx (.exec s k)) :
    (∃ k', Path p tx (.exec s k')) ∨
      ∃ t₁ a t₂, tx = t₁ ++ t₂ ∧ Path p t₁ (.ret a) ∧ Path (f a) t₂ (.exec s k) := by
  rcases path_bind_cases h with ⟨p', hp, hq⟩ | h
  · cases p' with
    | ret a => exact .inr ⟨tx, a, [], by simp, hp, path_nil.mpr hq.symm⟩
    | raise e => cases hq
    | exec s' k' =>
      cases hq
      exact .inl ⟨k', hp⟩
    | commit k => cases hq
    | rollback k => cases hq
  · exact .inr h

end PaymentLedger
