import PaymentLedger.Transaction.Path

namespace PaymentLedger

variable {D : Dbms} {α β : Type}

theorem snoc_split {γ : Type} {l pre post : List γ} {a b : γ} (h : l ++ [a] = pre ++ b :: post) :
    (pre = l ∧ b = a ∧ post = []) ∨ ∃ post', post = post' ++ [a] ∧ l = pre ++ b :: post' := by
  rcases List.eq_nil_or_concat post with rfl | ⟨post', c, rfl⟩
  · obtain ⟨rfl, hab⟩ := List.append_inj' h rfl
    exact .inl ⟨rfl, (List.singleton_inj.mp hab).symm, rfl⟩
  · rw [List.concat_eq_append, ← List.cons_append, ← List.append_assoc] at h
    obtain ⟨rfl, hac⟩ := List.append_inj' h rfl
    obtain rfl := List.singleton_inj.mp hac
    exact .inr ⟨post', List.concat_eq_append, rfl⟩

/-- A transaction that a program has left behind, committed or not. -/
structure Attempt (D : Dbms) where
  tx : List (Event D)
  committed : Bool

/-- The committed transactions among the attempts. -/
def committedOf (done : List (Attempt D)) : List (List (Event D)) :=
  (done.filter Attempt.committed).map Attempt.tx

@[simp] theorem committedOf_nil : committedOf ([] : List (Attempt D)) = [] := rfl

@[simp] theorem committedOf_append (done done' : List (Attempt D)) :
    committedOf (done ++ done') = committedOf done ++ committedOf done' := by
  simp [committedOf]

@[simp] theorem committedOf_commit (tx : List (Event D)) (done : List (Attempt D)) :
    committedOf (⟨tx, true⟩ :: done) = tx :: committedOf done := rfl

@[simp] theorem committedOf_rollback (tx : List (Event D)) (done : List (Attempt D)) :
    committedOf (⟨tx, false⟩ :: done) = committedOf done := rfl

theorem committedOf_split {done : List (Attempt D)} {xs ys : List (List (Event D))} {tx : List (Event D)}
    (h : committedOf done = xs ++ tx :: ys) :
    ∃ l l', done = l ++ ⟨tx, true⟩ :: l' ∧ committedOf l = xs := by
  induction done generalizing xs with
  | nil => simp at h
  | cons a done ih =>
    obtain ⟨t, b⟩ := a
    cases b with
    | false =>
      obtain ⟨l, l', rfl, hl⟩ := ih h
      exact ⟨⟨t, false⟩ :: l, l', rfl, hl⟩
    | true =>
      cases xs with
      | nil =>
        obtain ⟨rfl, -⟩ := List.cons_eq_cons.mp h
        exact ⟨[], done, rfl, rfl⟩
      | cons x xs =>
        obtain ⟨rfl, hrest⟩ := List.cons_eq_cons.mp h
        obtain ⟨l, l', rfl, hl⟩ := ih hrest
        refine ⟨⟨t, true⟩ :: l, l', rfl, ?_⟩
        rw [committedOf_commit, hl]

/-- From `p₀`, whatever the statements returned: the transactions left behind, the open one, and
the rest of the program. -/
inductive Trace (p₀ : Prog D α) : List (Attempt D) → List (Event D) → Prog D α → Prop
  | start : Trace p₀ [] [] p₀
  | exec {done : List (Attempt D)} {tx : List (Event D)} {s : D.Stmt} {k : D.Res s → Prog D α}
      (r : D.Res s) (ws : List D.Write) (n : ℕ) (h : Trace p₀ done tx (.exec s k)) :
      Trace p₀ done (tx ++ [⟨s, r, ws, n⟩]) (k r)
  | fail {done : List (Attempt D)} {tx : List (Event D)} {s : D.Stmt} {k : D.Res s → Prog D α}
      (e : D.Err) (h : Trace p₀ done tx (.exec s k)) : Trace p₀ done tx (.rollback (.raise e))
  | commit {done : List (Attempt D)} {tx : List (Event D)} {k : Prog D α}
      (h : Trace p₀ done tx (.commit k)) : Trace p₀ (done ++ [⟨tx, true⟩]) [] k
  | rollback {done : List (Attempt D)} {tx : List (Event D)} {k : Prog D α}
      (h : Trace p₀ done tx (.rollback k)) : Trace p₀ (done ++ [⟨tx, false⟩]) [] k

theorem trace_raise {e : D.Err} {done : List (Attempt D)} {tx : List (Event D)} {p : Prog D α}
    (h : Trace (.raise e) done tx p) : done = [] ∧ p = .raise e := by
  induction h with
  | start => exact ⟨rfl, rfl⟩
  | exec _ _ _ _ ih => cases ih.2
  | fail _ _ ih => cases ih.2
  | commit _ ih => cases ih.2
  | rollback _ ih => cases ih.2

/-- What a program promises on every trace: before each statement, at each commit, and when it
returns or raises. -/
structure Contract (D : Dbms) (α : Type) where
  pre : List (Event D) → D.Stmt → Prop
  commit : List (Attempt D) → List (Event D) → Prop
  ret : α → List (Attempt D) → Prop
  raise : D.Err → List (Attempt D) → Prop

namespace Contract

def Meets (K : Contract D α) : Prog D α → List (Attempt D) → List (Event D) → Prop
  | .ret a, done, _ => K.ret a done
  | .raise e, done, _ => K.raise e done
  | .exec s k, done, tx => K.pre tx s ∧ (∀ r ws n, K.Meets (k r) done (tx ++ [⟨s, r, ws, n⟩])) ∧
      ∀ e, K.raise e (done ++ [⟨tx, false⟩])
  | .commit k, done, tx => K.commit done tx ∧ K.Meets k (done ++ [⟨tx, true⟩]) []
  | .rollback k, done, tx => K.Meets k (done ++ [⟨tx, false⟩]) []

variable {K : Contract D α}

/-- Every trace keeps the contract. -/
theorem meets_trace {p₀ p : Prog D α} {done : List (Attempt D)} {tx : List (Event D)}
    (h₀ : K.Meets p₀ [] []) (h : Trace p₀ done tx p) : K.Meets p done tx := by
  induction h with
  | start => exact h₀
  | exec r ws n _ ih => exact ih.2.1 r ws n
  | fail e _ ih => exact ih.2.2 e
  | commit _ ih => exact ih.2
  | rollback _ ih => exact ih

theorem commit_of_trace {p₀ p : Prog D α} {done : List (Attempt D)} {tx : List (Event D)}
    (h₀ : K.Meets p₀ [] []) (h : Trace p₀ done tx p) {l l' : List (Attempt D)} {t : List (Event D)}
    (hd : done = l ++ ⟨t, true⟩ :: l') : K.commit l t := by
  induction h generalizing l' with
  | start => simp at hd
  | exec r ws n _ ih => exact ih hd
  | fail e _ ih => exact ih hd
  | @commit done tx k h ih =>
    rcases snoc_split hd with ⟨rfl, ha, rfl⟩ | ⟨post, rfl, hl⟩
    · obtain rfl : t = tx := congrArg Attempt.tx ha
      exact (meets_trace h₀ h).1
    · exact ih hl
  | @rollback done tx k h ih =>
    rcases snoc_split hd with ⟨rfl, ha, rfl⟩ | ⟨post, rfl, hl⟩
    · exact absurd (congrArg Attempt.committed ha) (by simp)
    · exact ih hl

/-- The contract of one `async with` block and of what follows it, from the runs of its body. -/
theorem meets_uow (body : Prog D β) (f : β → Prog D α) {done : List (Attempt D)} {tx : List (Event D)}
    (hp : ∀ t s k, Path body t (.exec s k) → K.pre (tx ++ t) s)
    (hc : ∀ t q, Path body t (.commit q) →
      K.commit done (tx ++ t) ∧ K.Meets (q.uow.bind f) (done ++ [⟨tx ++ t, true⟩]) [])
    (hr : ∀ t q, Path body t (.rollback q) → K.Meets (q.uow.bind f) (done ++ [⟨tx ++ t, false⟩]) [])
    (ha : ∀ t a, Path body t (.ret a) → K.Meets (f a) (done ++ [⟨tx ++ t, false⟩]) [])
    (he : ∀ t e, K.raise e (done ++ [⟨t, false⟩])) : K.Meets (body.uow.bind f) done tx := by
  induction body generalizing tx with
  | ret a => simpa [Prog.uow, Prog.bind, Meets] using ha [] a (.nil _)
  | raise e => exact he tx e
  | exec s k ih =>
    have hcons (r ws n) (t : List (Event D)) :
        tx ++ ⟨s, r, ws, n⟩ :: t = (tx ++ [⟨s, r, ws, n⟩]) ++ t := by simp
    refine ⟨by simpa using hp [] s k (.nil _), ?_, he tx⟩
    intro r ws n
    apply ih r
    · intro t s' k' h
      rw [← hcons]
      exact hp _ s' k' (.cons r ws n h)
    · intro t q h
      rw [← hcons]
      exact hc _ q (.cons r ws n h)
    · intro t q h
      rw [← hcons]
      exact hr _ q (.cons r ws n h)
    · intro t a h
      rw [← hcons]
      exact ha _ a (.cons r ws n h)
  | commit q _ => simpa [Prog.uow, Prog.bind, Meets] using hc [] q (.nil _)
  | rollback q _ => simpa [Prog.uow, Prog.bind, Meets] using hr [] q (.nil _)

end Contract

/-- A body that always ends by committing a good result, by rolling back with a bad one, or by
raising. -/
def Closes (good bad : β → Prop) : Prog D β → Prop
  | .ret _ => False
  | .raise _ => True
  | .exec _ k => ∀ r, Closes good bad (k r)
  | .commit q => ∃ v, q = .ret v ∧ good v
  | .rollback q => ∃ v, q = .ret v ∧ bad v

theorem closes_bind {good bad : β → Prop} {p : Prog D α} (hp : Plain p) {f : α → Prog D β}
    (hf : ∀ a, Closes good bad (f a)) : Closes good bad (p.bind f) := by
  induction p with
  | ret a => exact hf a
  | raise e => trivial
  | exec s k ih =>
    intro r
    exact ih r (hp r)
  | commit k ih => exact hp.elim
  | rollback k ih => exact hp.elim

theorem Closes.path {good bad : β → Prop} {p q : Prog D β} {tx : List (Event D)}
    (hp : Closes good bad p) (h : Path p tx q) : Closes good bad q := by
  induction h with
  | nil p => exact hp
  | cons r ws n _ ih => exact ih (hp r)

namespace Contract

variable {K : Contract D α}

/-- The contract of an `async with` block whose body closes its transaction. -/
theorem meets_block {good bad : β → Prop} {body : Prog D β} (hcl : Closes good bad body) (f : β → Prog D α)
    {done : List (Attempt D)} (hp : ∀ t s k, Path body t (.exec s k) → K.pre t s)
    (hc : ∀ t v, good v → Path body t (.commit (.ret v)) →
      K.commit done t ∧ K.Meets (f v) (done ++ [⟨t, true⟩] ++ [⟨[], false⟩]) [])
    (hr : ∀ t v, bad v → Path body t (.rollback (.ret v)) →
      K.Meets (f v) (done ++ [⟨t, false⟩] ++ [⟨[], false⟩]) [])
    (he : ∀ t e, K.raise e (done ++ [⟨t, false⟩])) : K.Meets (body.uow.bind f) done [] := by
  apply meets_uow body f
  · intro t s k h
    exact hp t s k h
  · intro t q h
    obtain ⟨v, rfl, hv⟩ := hcl.path h
    exact hc t v hv h
  · intro t q h
    obtain ⟨v, rfl, hv⟩ := hcl.path h
    exact hr t v hv h
  · intro t a h
    exact (hcl.path h).elim
  · exact he

/-- A program that commits at most one transaction, and returns a value exactly when it has
committed one that yields it. -/
def once (pre : List (Event D) → D.Stmt → Prop) (P : List (Event D) → α → Prop) : Contract D α where
  pre := pre
  commit := fun done tx => committedOf done = [] ∧ ∃ v, P tx v
  ret := fun v done => ∃ tx, committedOf done = [tx] ∧ P tx v
  raise := fun _ done => committedOf done = []

end Contract
end PaymentLedger
