import PaymentLedger.Transaction.History

namespace PaymentLedger

variable {D : Dbms} {ι α β : Type}

/-- What a caller relies on while others change the committed store. -/
structure Rely (D : Dbms) where
  rel : D.Store → D.Store → Prop
  refl : ∀ st, rel st st
  trans : ∀ {st st' st''}, rel st st' → rel st' st'' → rel st st''

/-- No one else changes anything. -/
def Rely.alone (D : Dbms) : Rely D where
  rel st st' := st' = st
  refl _ := rfl
  trans := by
    rintro st _ _ rfl rfl
    rfl

namespace Prog

/-- From the committed store `c` and these uncommitted writes, every end of the program satisfies `Q`,
while others change the committed store as `rely` allows; and where `live` holds, every statement has a result.
An exception of the database has rolled back when it arrives. -/
def wp (live : Prop) (rely : Rely D) (Q : Except D.Err α → D.Store → List D.Write → Prop) :
    Prog D α → D.Store → List D.Write → Prop
  | .ret a, c, ws => ∀ c', rely.rel c c' → Q (.ok a) c' ws
  | .raise e, c, ws => ∀ c', rely.rel c c' → Q (.error e) c' ws
  | .exec s k, c, ws => ∀ c', rely.rel c c' →
      (live → ∀ now, ∃ ch, (D.eval s (applyAll ws c') now ch).isSome = true) ∧
      (∀ now ch r new, D.eval s (applyAll ws c') now ch = some (.ok (r, new)) →
        (k r).wp live rely Q c' (ws ++ new)) ∧
      (∀ now ch e, D.eval s (applyAll ws c') now ch = some (.error e) →
        ∀ c'', rely.rel c' c'' → Q (.error e) c'' [])
  | .commit k, c, ws => ∀ c', rely.rel c c' → k.wp live rely Q (applyAll ws c') []
  | .rollback k, c, _ => k.wp live rely Q c []

variable {live : Prop} {rely : Rely D} {Q Q' : Except D.Err α → D.Store → List D.Write → Prop}
  {R : Except D.Err β → D.Store → List D.Write → Prop} {p : Prog D α} {c c' : D.Store} {ws : List D.Write}

/-- What others do in between is allowed for. -/
theorem wp_rely (hc : rely.rel c c') (h : p.wp live rely Q c ws) : p.wp live rely Q c' ws := by
  induction p generalizing ws with
  | ret a => exact fun c'' hc' => h c'' (rely.trans hc hc')
  | raise e => exact fun c'' hc' => h c'' (rely.trans hc hc')
  | exec s k => exact fun c'' hc' => h c'' (rely.trans hc hc')
  | commit k => exact fun c'' hc' => h c'' (rely.trans hc hc')
  | rollback k ih => exact ih h

theorem wp_mono (hQ : ∀ r c ws, Q r c ws → Q' r c ws) (h : p.wp live rely Q c ws) : p.wp live rely Q' c ws := by
  induction p generalizing c ws with
  | ret a => exact fun c' hc => hQ _ _ _ (h c' hc)
  | raise e => exact fun c' hc => hQ _ _ _ (h c' hc)
  | exec s k ih =>
    intro c' hc
    obtain ⟨hlive, hok, herr⟩ := h c' hc
    refine ⟨hlive, ?_, ?_⟩
    · intro now ch r new he
      exact ih r (hok now ch r new he)
    · intro now ch e he c'' hc'
      exact hQ _ _ _ (herr now ch e he c'' hc')
  | commit k ih => exact fun c' hc => ih (h c' hc)
  | rollback k ih => exact ih h

/-- The rest of a program begins where its first part ends in a value. -/
theorem wp_bind {f : α → Prog D β}
    (h : p.wp live rely (fun r c ws => match r with
      | .ok a => (f a).wp live rely R c ws
      | .error e => R (.error e) c ws) c ws) :
    (p.bind f).wp live rely R c ws := by
  induction p generalizing c ws with
  | ret a => exact h c (rely.refl c)
  | raise e => exact h
  | exec s k ih =>
    intro c' hc
    obtain ⟨hlive, hok, herr⟩ := h c' hc
    refine ⟨hlive, ?_, herr⟩
    intro now ch r new he
    exact ih r (hok now ch r new he)
  | commit k ih => exact fun c' hc => ih (h c' hc)
  | rollback k ih => exact ih h

/-- A block that ends has rolled back what it has not committed. -/
theorem wp_uow (h : p.wp live rely (fun r c _ => Q r c []) c ws) : p.uow.wp live rely Q c ws := by
  induction p generalizing c ws with
  | ret a => exact h
  | raise e => exact h
  | exec s k ih =>
    intro c' hc
    obtain ⟨hlive, hok, herr⟩ := h c' hc
    refine ⟨hlive, ?_, herr⟩
    intro now ch r new he
    exact ih r (hok now ch r new he)
  | commit k ih => exact fun c' hc => ih (h c' hc)
  | rollback k ih => exact ih h

theorem wp_ofExcept {ε : Type} {f : ε → D.Err} {x : Except ε α}
    (h : ∀ c', rely.rel c c' → match x with
      | .ok a => Q (.ok a) c' ws
      | .error e => Q (.error (f e)) c' ws) :
    (ofExcept f x).wp live rely Q c ws := by
  cases x with
  | ok a => exact h
  | error e => exact h

end Prog

section Sound

variable [DecidableEq ι] {env : D.Store → D.Store → Prop} {live : Prop} {rely : Rely D}
  {Q : ι → Except D.Err α → D.Store → List D.Write → Prop} {σ σ' : Config D ι α}

/-- What is left of the program of `i` ends as it should. -/
def Config.Satisfies (live : Prop) (rely : Rely D)
    (Q : ι → Except D.Err α → D.Store → List D.Write → Prop) (σ : Config D ι α) (i : ι) : Prop :=
  ∀ p, (σ.session i).prog = some p → p.wp live rely (Q i) σ.world.store (writesOf (σ.session i).tx)

omit [DecidableEq ι] in
theorem Config.Satisfies.result {i : ι} (h : σ.Satisfies live rely Q i)
    {r : Except D.Err α} (hr : (σ.session i).result = some r) :
    Q i r σ.world.store (writesOf (σ.session i).tx) := by
  cases r with
  | ok a => exact h _ (result_ok.mp hr) _ (rely.refl _)
  | error e => exact h _ (result_error.mp hr) _ (rely.refl _)

theorem Config.satisfies_self {i : ι} {W : World D ι} {q : Prog D α} {tx : List (Event D)} {b : Option ℕ}
    (hq : q.wp live rely (Q i) W.store (writesOf tx)) :
    (Config.set ⟨W, σ.session⟩ i ⟨some q, tx, b⟩).Satisfies live rely Q i := by
  intro p hp
  rw [set_self] at hp ⊢
  obtain rfl := Option.some.inj hp
  exact hq

/-- A step keeps what a caller satisfies, where it is the caller's own or changes the committed store as the
caller relies on. -/
theorem Step.satisfies {j : ι} (hs : Step env σ σ')
    (hr : σ'.session j = σ.session j → rely.rel σ.world.store σ'.world.store) (h : σ.Satisfies live rely Q j) :
    σ'.Satisfies live rely Q j := by
  -- a session that does not move
  have other {i : ι} {W : World D ι} {s : Session D α} (hne : j ≠ i)
      (hW : (Config.set ⟨W, σ.session⟩ i s).session j = σ.session j → rely.rel σ.world.store W.store) :
      (Config.set ⟨W, σ.session⟩ i s).Satisfies live rely Q j := by
    have hsame : (Config.set ⟨W, σ.session⟩ i s).session j = σ.session j := set_of_ne _ _ hne
    intro p hp
    have hrely := hW hsame
    rw [hsame] at hp ⊢
    exact Prog.wp_rely hrely (h p hp)
  cases hs with
  | @exec i s k r ws c hp he hf =>
    by_cases hj : j = i
    · subst hj
      apply Config.satisfies_self
      rw [writesOf_append, writesOf_cons, writesOf_nil, List.append_nil]
      exact (h _ hp _ (rely.refl _)).2.1 _ c r ws he
    · exact other hj hr
  | @fail i s k e c hp he =>
    by_cases hj : j = i
    · subst hj
      apply Config.satisfies_self
      exact (h _ hp _ (rely.refl _)).2.2 _ c e he
    · exact other hj hr
  | @commit i k hp =>
    by_cases hj : j = i
    · subst hj
      exact Config.satisfies_self (h _ hp _ (rely.refl _))
    · exact other hj hr
  | @rollback i k hp =>
    by_cases hj : j = i
    · subst hj
      exact Config.satisfies_self (h _ hp)
    · exact other hj hr
  | crash i =>
    by_cases hj : j = i
    · subst hj
      intro p hp
      rw [set_self] at hp
      cases hp
    · exact other hj hr
  | tick ht => exact h
  | env he => exact fun p hp => Prog.wp_rely (hr rfl) (h p hp)

theorem Prog.commit_ne (k : Prog D α) : Prog.commit k ≠ k := by
  induction k with
  | commit k ih =>
    intro h
    exact ih (Prog.commit.inj h)
  | _ =>
    intro h
    cases h

/-- A caller that has ended does no more than crash. -/
theorem Step.over {i : ι} (hs : Step env σ σ') (h : (σ.session i).Over) :
    σ'.session i = σ.session i ∨ (σ'.session i).Over ∧ σ'.world = σ.world := by
  have other {j : ι} {W : World D ι} {s : Session D α} {p : Prog D α} (hp : (σ.session j).prog = some p)
      (hp' : ¬(Session.mk (some p) (σ.session j).tx (σ.session j).began).Over) :
      (Config.set ⟨W, σ.session⟩ j s).session i = σ.session i := by
    have hne : i ≠ j := by
      rintro rfl
      apply hp'
      rw [← hp]
      exact h
    exact set_of_ne _ _ hne
  cases hs with
  | exec c hp => exact .inl (other hp (by simp [Session.Over, Session.result]))
  | fail c hp => exact .inl (other hp (by simp [Session.Over, Session.result]))
  | commit hp => exact .inl (other hp (by simp [Session.Over, Session.result]))
  | rollback hp => exact .inl (other hp (by simp [Session.Over, Session.result]))
  | crash j =>
    by_cases hi : i = j
    · subst hi
      right
      rw [set_self]
      exact ⟨.inr rfl, rfl⟩
    · exact .inl (set_of_ne _ _ hi)
  | tick ht => exact .inl rfl
  | env he => exact .inl rfl

/-- A caller with no one beside it relies on nothing changing. -/
theorem Step.satisfies_alone {j : ι} (hs : Step env σ σ') (henv : ∀ st st', ¬env st st') (hj : ∀ i, i = j)
    (h : σ.Satisfies live (.alone D) Q j) : σ'.Satisfies live (.alone D) Q j := by
  apply hs.satisfies _ h
  intro hsame
  cases hs with
  | @commit i k hp =>
    obtain rfl := hj i
    rw [set_self] at hsame
    rw [← hsame] at hp
    exact absurd (Option.some.inj hp).symm k.commit_ne
  | env he => exact absurd he (henv _ _)
  | _ => rfl

/-- A caller that no one else locks out can run to its end. -/
theorem Config.Satisfies.ends {i : ι} (hlive : live) (h : σ.Satisfies live rely Q i)
    {p : Prog D α} (hp : (σ.session i).prog = some p) (hfree : ∀ j, j ≠ i → locksOf (σ.session j).tx = []) :
    ∃ σ', Reaches env σ σ' ∧ ((σ'.session i).result).isSome = true := by
  have others (W : World D ι) (s : Session D α) {σ : Config D ι α}
      (hfree : ∀ j, j ≠ i → locksOf (σ.session j).tx = []) (j : ι) (hj : j ≠ i) :
      locksOf ((Config.set ⟨W, σ.session⟩ i s).session j).tx = [] := by
    rw [set_of_ne _ _ hj]
    exact hfree j hj
  induction p generalizing σ with
  | ret a => exact ⟨σ, .refl, by simp [Session.result, hp]⟩
  | raise e => exact ⟨σ, .refl, by simp [Session.result, hp]⟩
  | exec s k ih =>
    obtain ⟨hnext, hok, herr⟩ := h _ hp _ (rely.refl _)
    obtain ⟨c, hc⟩ := hnext hlive (σ.start i)
    obtain ⟨res, hres⟩ := Option.isSome_iff_exists.mp hc
    cases res with
    | ok x =>
      obtain ⟨r, new⟩ := x
      have hunlocked : σ.Free i new := by
        intro j hj row _ hmem
        rw [hfree j hj] at hmem
        cases hmem
      have hrest : (k r).wp live rely (Q i) σ.world.store
          (writesOf ((σ.session i).tx ++ [⟨s, r, new, σ.world.log.length⟩])) := by
        rw [writesOf_append, writesOf_cons, writesOf_nil, List.append_nil]
        exact hok _ c r new hres
      obtain ⟨σ', hreach, hend⟩ := ih r (Config.satisfies_self hrest) (by rw [set_self]) (others _ _ hfree)
      exact ⟨σ', .head (.exec c hp hres hunlocked) hreach, hend⟩
    | error e =>
      have hback : Step env (σ.set i ⟨some (.rollback (.raise e)), (σ.session i).tx, some (σ.start i)⟩) _ :=
        .rollback (by rw [set_self])
      refine ⟨_, .head (.fail c hp hres) (.head hback .refl), ?_⟩
      rw [set_self]
      rfl
  | commit k ih =>
    have hrest : k.wp live rely (Q i) (σ.world.commit i (σ.start i) (σ.session i).tx).store
        (writesOf ([] : List (Event D))) := h _ hp _ (rely.refl _)
    obtain ⟨σ', hreach, hend⟩ := ih (Config.satisfies_self hrest) (by rw [set_self]) (others _ _ hfree)
    exact ⟨σ', .head (.commit hp) hreach, hend⟩
  | rollback k ih =>
    have hrest : k.wp live rely (Q i) σ.world.store (writesOf ([] : List (Event D))) := h _ hp
    obtain ⟨σ', hreach, hend⟩ := ih (Config.satisfies_self hrest) (by rw [set_self]) (others _ _ hfree)
    exact ⟨σ', .head (.rollback hp) hreach, hend⟩

end Sound

section Alone

variable {live : Prop} {Q : Except D.Err α → D.Store → List D.Write → Prop} {p : Prog D α} {st st' : D.Store}

/-- The program, with no one beside it and nothing else changing, ends so on this store. -/
def Prog.Ends (p : Prog D α) (st : D.Store) (r : Except D.Err α) (st' : D.Store) : Prop :=
  ∃ clock, ∃ σ : Config D Unit α, Reaches (fun _ _ => False) (Config.init st clock fun _ => p) σ ∧
    (σ.session ()).result = some r ∧ σ.world.store = st'

theorem Prog.satisfies_init (h : p.wp live (.alone D) Q st []) (clock : ℕ) :
    (Config.init st clock fun _ : Unit => p).Satisfies live (.alone D) (fun _ => Q) () := by
  intro q hq
  obtain rfl := Option.some.inj hq
  exact h

theorem Prog.Ends.wp {r : Except D.Err α} (he : p.Ends st r st') (h : p.wp live (.alone D) Q st []) :
    ∃ ws, Q r st' ws := by
  obtain ⟨clock, σ, hreach, hr, rfl⟩ := he
  have hsat : σ.Satisfies live (.alone D) (fun _ => Q) () := by
    clear hr
    induction hreach with
    | refl => exact Prog.satisfies_init h clock
    | tail _ hs ih => exact hs.satisfies_alone (fun _ _ h => h) (fun _ => rfl) ih
  exact ⟨_, hsat.result hr⟩

/-- A program whose every statement has a result can end. -/
theorem Prog.exists_end (hlive : live) (h : p.wp live (.alone D) Q st []) : ∃ r st', p.Ends st r st' := by
  have hends := @Config.Satisfies.ends D Unit α _ (fun _ _ => False) live (.alone D) (fun _ => Q) _ () hlive
    (Prog.satisfies_init h 0)
  obtain ⟨σ, hreach, hend⟩ := hends rfl fun j hj => absurd rfl hj
  obtain ⟨r, hr⟩ := Option.isSome_iff_exists.mp hend
  exact ⟨r, _, 0, σ, hreach, hr, rfl⟩

end Alone
end PaymentLedger
