import PaymentLedger.Services.Runs
import PaymentLedger.Services.Replay

namespace PaymentLedger

theorem Did.stmt {s : Stmt} {r : s.Res} {e : Event postgres} (h : Did s r e) : e.stmt = s := by
  obtain ⟨ws, n, rfl⟩ := h
  rfl

theorem Did.eval {s : Stmt} {r : s.Res} {e : Event postgres} (h : Did s r e) {st : Store} {now : ℕ}
    {c : Choice} (he : Stmt.eval st now c e.stmt = some (.ok (e.res, e.writes))) :
    Stmt.eval st now c s = some (.ok (r, e.writes)) := by
  obtain ⟨ws, n, rfl⟩ := h
  exact he

theorem forall₂_exists_right {α β : Type} {R : α → β → Prop} {l : List α} {l' : List β}
    (h : List.Forall₂ R l l') {a : α} (ha : a ∈ l) : ∃ b ∈ l', R a b :=
  forall₂_mem_right h.flip ha

section Fx

/-- The payment whose conversion a statement writes down. -/
def Stmt.fx : Stmt → Option Uuid
  | updateFxDetails id _ _ => some id
  | _ => none

theorem Did.fx {s : Stmt} {r : s.Res} {e : Event postgres} (h : Did s r e) (hs : s.fx = none) :
    e.stmt.fx = none := by
  rw [h.stmt]
  exact hs

/-- What holds of the four kinds of statements of a posting. -/
theorem Posted.forall {Q : Stmt → Prop} {rt : Runtime} {entry : JournalEntry} {u : Uuid}
    {t : List (Event postgres)} (h : Posted rt entry u t) (hv : ∀ ids, Q (.selectAccountVersions ids))
    (he : ∀ entryType p k, Q (.insertEntry entryType p k)) (hl : ∀ id line, Q (.insertLine id line))
    (hb : ∀ id v, Q (.updateAccountVersion id v)) : ∀ e ∈ t, Q e.stmt := by
  obtain ⟨versions, e₁, e₂, tl, tb, rfl, h₁, h₂, hls, hbs⟩ := h
  intro e hmem
  simp only [List.mem_cons, List.mem_append] at hmem
  rcases hmem with rfl | rfl | hmem | hmem
  · rw [h₁.stmt]
    exact hv _
  · rw [h₂.stmt]
    exact he _ _ _
  · obtain ⟨line, -, hd⟩ := forall₂_mem_right hls hmem
    rw [hd.stmt]
    exact hl _ _
  · obtain ⟨id, -, v, -, hd⟩ := forall₂_mem_right hbs hmem
    rw [hd.stmt]
    exact hb _ _

theorem Posted.fx {rt : Runtime} {entry : JournalEntry} {u : Uuid} {t : List (Event postgres)}
    (h : Posted rt entry u t) : ∀ e ∈ t, e.stmt.fx = none := by
  apply h.forall (Q := fun s => s.fx = none)
  · intro _
    rfl
  · intro _ _ _
    rfl
  · intro _ _
    rfl
  · intro _ _
    rfl

theorem Enqueued.fx {id : Uuid} {eventType : String} {payload : PyDict} {t : List (Event postgres)}
    (h : Enqueued id eventType payload t) : ∀ e ∈ t, e.stmt.fx = none := by
  obtain ⟨subs, e₁, td, rfl, h₁, hd⟩ := h
  intro e he
  rcases List.mem_cons.mp he with rfl | he
  · exact h₁.fx rfl
  · obtain ⟨sub, -, i, hi⟩ := forall₂_mem_right hd he
    exact hi.fx rfl

theorem Created.fx {req : NewPayment} {p : Payment} {t : List (Event postgres)} (h : Created req p t) :
    ∀ e ∈ t, e.stmt.fx = none := by
  obtain ⟨a, id, row, e₁, e₂, e₃, e₄, te, rfl, h₁, -, h₂, h₃, -, h₄, hq⟩ := h
  intro e he
  simp only [List.mem_cons] at he
  rcases he with rfl | rfl | rfl | rfl | he
  · exact h₁.fx rfl
  · exact h₂.fx rfl
  · exact h₃.fx rfl
  · exact h₄.fx rfl
  · exact hq.fx e he

theorem Transitioned.fx {id : Uuid} {toStatus : PaymentStatus} {reason : Option PyStr} {p : Payment}
    {t : List (Event postgres)} (h : Transitioned id toStatus reason p t) : ∀ e ∈ t, e.stmt.fx = none := by
  obtain ⟨row, e₁, e₂, e₃, te, rfl, h₁, -, h₂, h₃, -, hq⟩ := h
  intro e he
  simp only [List.mem_cons] at he
  rcases he with rfl | rfl | rfl | he
  · exact h₁.fx rfl
  · exact h₂.fx rfl
  · exact h₃.fx rfl
  · exact hq.fx e he

theorem Claimed.fx {key hash : String} {req : NewPayment} {outcome : IdempotencyOutcome}
    {t : List (Event postgres)} (h : Claimed key hash req outcome t) : ∀ e ∈ t, e.stmt.fx = none := by
  obtain ⟨a, e₁, e₂, tr, rfl, h₁, ⟨-, rfl, h₂⟩ | ⟨e₃, existing, rfl, h₂, h₃, -⟩⟩ := h
  · intro e he
    simp only [List.mem_cons, List.not_mem_nil, or_false] at he
    rcases he with rfl | rfl
    · exact h₁.fx rfl
    · exact h₂.fx rfl
  · intro e he
    simp only [List.mem_cons, List.not_mem_nil, or_false] at he
    rcases he with rfl | rfl | rfl
    · exact h₁.fx rfl
    · exact h₂.fx rfl
    · exact h₃.fx rfl

theorem Completed.fx {key : String} {req : NewPayment} {p : Payment} {t : List (Event postgres)}
    (h : Completed key req p t) : ∀ e ∈ t, e.stmt.fx = none := by
  obtain ⟨tc, e₁, rfl, hc, h₁⟩ := h
  intro e he
  rcases List.mem_append.mp he with he | he
  · exact hc.fx e he
  · rw [List.mem_singleton.mp he]
    exact h₁.fx rfl

theorem Reconciled.fx {batchId : Uuid} {windowStart windowEnd : ℕ} {t : List (Event postgres)}
    (h : Reconciled batchId windowStart windowEnd t) : ∀ e ∈ t, e.stmt.fx = none := by
  obtain ⟨settled, tr, e₁, e₂, tb, rfl, hr, h₁, ⟨m, k, runId, h₂⟩, hb⟩ := h
  intro e he
  simp only [List.mem_append, List.mem_cons] at he
  rcases he with he | rfl | rfl | he
  · obtain ⟨record, hd⟩ := hr e he
    exact hd.fx rfl
  · exact h₁.fx rfl
  · exact h₂.fx rfl
  · obtain ⟨u, b, hd⟩ := hb e he
    exact hd.fx rfl

/-- What holds of the statements that build the lines of a settlement. -/
theorem settlementLines_forall {Q : Stmt → Prop} {p : Payment} {built : BuildLinesResult}
    {t : List (Event postgres)} (h : Path (settlementLines p) t (.ret built))
    (ha : ∀ id, Q (.selectAccount id)) (hr : ∀ base quote, Q (.selectLatestRate base quote))
    (hs : Q (.selectAccountByNumber fxSuspenseAccountNumber)) (hf : ∀ r x, Q (.updateFxDetails p.id r x)) :
    ∀ e ∈ t, Q e.stmt := by
  obtain ⟨d, c, e₁, e₂, tr, rfl, h₁, h₂, hcase⟩ := path_settlementLines h
  intro e he
  simp only [List.mem_cons] at he
  rcases he with rfl | rfl | he
  · rw [h₁.stmt]
    exact ha _
  · rw [h₂.stmt]
    exact ha _
  · rcases hcase with ⟨-, rfl, -⟩ | ⟨-, rate, amount, suspense, e₃, e₄, e₅, rfl, h₃, -, h₄, h₅, -⟩
    · simp at he
    · simp only [List.mem_cons, List.not_mem_nil, or_false] at he
      rcases he with rfl | rfl | rfl
      · rw [h₃.stmt]
        exact hr _ _
      · rw [h₄.stmt]
        exact hs
      · rw [h₅.stmt]
        exact hf _ _

theorem reversalLines_forall {Q : Stmt → Prop} {p : Payment} {built : BuildLinesResult}
    {t : List (Event postgres)} (h : Path (reversalLines p) t (.ret built)) (ha : ∀ id, Q (.selectAccount id))
    (hs : Q (.selectAccountByNumber fxSuspenseAccountNumber)) : ∀ e ∈ t, Q e.stmt := by
  intro e he
  rcases path_reversalLines h with ⟨-, rfl, -⟩ | ⟨amount, d, c, suspense, e₁, e₂, e₃, -, rfl, h₁, h₂, h₃, -⟩
  · simp at he
  · simp only [List.mem_cons, List.not_mem_nil, or_false] at he
    rcases he with rfl | rfl | rfl
    · rw [h₁.stmt]
      exact ha _
    · rw [h₂.stmt]
      exact ha _
    · rw [h₃.stmt]
      exact hs

theorem settlementLines_fx {p : Payment} {built : BuildLinesResult} {t : List (Event postgres)}
    (h : Path (settlementLines p) t (.ret built)) : ∀ e ∈ t, ∀ i, e.stmt.fx = some i → i = p.id := by
  apply settlementLines_forall h (Q := fun s => ∀ i, s.fx = some i → i = p.id)
  · intro _ i hi
    cases hi
  · intro _ _ i hi
    cases hi
  · intro i hi
    cases hi
  · intro _ _ i hi
    exact (Option.some.inj hi).symm

theorem reversalLines_fx {p : Payment} {built : BuildLinesResult} {t : List (Event postgres)}
    (h : Path (reversalLines p) t (.ret built)) : ∀ e ∈ t, ∀ i, e.stmt.fx = some i → i = p.id := by
  apply reversalLines_forall h (Q := fun s => ∀ i, s.fx = some i → i = p.id)
  · intro _ i hi
    cases hi
  · intro i hi
    cases hi

/-- A conversion is only written by a settlement that goes on to settle that payment. -/
theorem Moved.fx {rt : Runtime} {id : Uuid} {toStatus : PaymentStatus}
    {buildLines : Payment → App BuildLinesResult} {p : Payment} {tx : List (Event postgres)}
    (h : Moved rt id toStatus buildLines p tx)
    (hb : ∀ p built t, Path (buildLines p) t (.ret built) → ∀ e ∈ t, ∀ i, e.stmt.fx = some i → i = p.id) :
    ∃ row e₁ e₂, e₁ ∈ tx ∧ Did (.selectPayment id) (some row) e₁ ∧
      e₂ ∈ tx ∧ Did (.updatePaymentStatus id row.version toStatus) true e₂ ∧
      ∀ e ∈ tx, ∀ i, e.stmt.fx = some i → i = row.id := by
  obtain ⟨row, built, u, e₁, tb, tp, e₂, e₃, te, rfl, h₁, -, hbuilt, -, hp, h₂, h₃, -, hq⟩ := h
  refine ⟨row, e₁, e₂, by simp, h₁, by simp, h₂, ?_⟩
  intro e he i hi
  have hnone (hn : e.stmt.fx = none) : i = row.id := by
    rw [hi] at hn
    cases hn
  simp only [List.mem_cons, List.mem_append] at he
  rcases he with rfl | he | he | rfl | rfl | he
  · exact hnone (h₁.fx rfl)
  · exact hb _ _ _ hbuilt e he i hi
  · exact hnone (hp.fx e he)
  · exact hnone (h₂.fx rfl)
  · exact hnone (h₃.fx rfl)
  · exact hnone (hq.fx e he)

/-- The statements of a transaction have been evaluated. -/
def Ran (b : ℕ) (tx : List (Event postgres)) : Prop :=
  ∀ e ∈ tx, ∃ st c, Stmt.eval st b c e.stmt = some (.ok (e.res, e.writes))

theorem Recorded.ran {ι : Type} {env : Store → Store → Prop} {st₀ before : Store}
    {log : List (Commit postgres ι)} {b : ℕ} {tx : List (Event postgres)}
    (h : Recorded env st₀ log before b tx) : Ran b tx := by
  intro e he
  obtain ⟨pre, st, hev⟩ := h.evaluated.of_mem he
  obtain ⟨c, hc⟩ := hev.eval
  exact ⟨view pre st, c, postgres_eval_ok.mp hc⟩

/-- The writes of an event that ran are those of its statement. -/
theorem Ran.writes {b : ℕ} {tx : List (Event postgres)} (h : Ran b tx) {w : Write} (hw : w ∈ writesOf tx) :
    ∃ e ∈ tx, w ∈ e.writes ∧ e.stmt.Writes w := by
  obtain ⟨e, he, hwe⟩ := List.mem_flatMap.mp hw
  obtain ⟨st, c, hev⟩ := h e he
  exact ⟨e, he, hwe, eval_writes hev w hwe⟩

theorem fx_of_writes {s : Stmt} {id rate : Uuid} {n : Numeric 2} (h : s.Writes (.setFxDetails id rate n)) :
    s.fx = some id := by
  cases s <;> simp_all [Stmt.Writes, Stmt.fx]

theorem Moved.paired {rt : Runtime} {id : Uuid} {toStatus : PaymentStatus}
    {buildLines : Payment → App BuildLinesResult} {p : Payment} {tx : List (Event postgres)} {b : ℕ}
    (h : Moved rt id toStatus buildLines p tx)
    (hb : ∀ p built t, Path (buildLines p) t (.ret built) → ∀ e ∈ t, ∀ i, e.stmt.fx = some i → i = p.id)
    (hr : Ran b tx) : Paired (writesOf tx) := by
  intro i rate n hw
  obtain ⟨e, he, -, hwrites⟩ := hr.writes hw
  obtain ⟨row, e₁, e₂, he₁, hd₁, he₂, hd₂, hfx⟩ := h.fx hb
  obtain rfl : i = row.id := hfx e he i (fx_of_writes hwrites)
  obtain ⟨ws₁, n₁, rfl⟩ := hd₁
  obtain ⟨st₁, c₁, hev₁⟩ := hr _ he₁
  have hid : row.id = id := Table.find_key (eval_selectPayment.mp hev₁).1.symm
  obtain ⟨ws₂, n₂, rfl⟩ := hd₂
  obtain ⟨st₂, c₂, hev₂⟩ := hr _ he₂
  rcases eval_updatePaymentStatus.mp hev₂ with ⟨-, hws, -⟩ | ⟨hf, -⟩
  · refine ⟨toStatus, List.mem_flatMap.mpr ⟨_, he₂, ?_⟩⟩
    rw [hid]
    simp only at hws
    simp [hws]
  · cases hf

theorem paired_of_fx {b : ℕ} {tx : List (Event postgres)} (hr : Ran b tx)
    (h : ∀ e ∈ tx, e.stmt.fx = none) : Paired (writesOf tx) := by
  intro i rate n hw
  obtain ⟨e, he, -, hwrites⟩ := hr.writes hw
  have hfx := fx_of_writes hwrites
  rw [h e he] at hfx
  cases hfx

theorem Call.Shape.paired {rt : Runtime} {call : Call} {tx : List (Event postgres)} {v : Option Value}
    {b : ℕ} (h : call.Shape rt tx v) (hr : Ran b tx) : Paired (writesOf tx) := by
  cases call with
  | initiatePayment req =>
    obtain ⟨p, -, h⟩ := h
    exact paired_of_fx hr h.fx
  | initiatePaymentIdempotent key body req =>
    rcases h with ⟨outcome, -, h⟩ | ⟨p, -, h⟩
    · exact paired_of_fx hr h.fx
    · exact paired_of_fx hr h.fx
  | authorisePayment id n =>
    obtain ⟨p, -, h⟩ := h
    exact paired_of_fx hr h.fx
  | failPayment id reason n =>
    obtain ⟨p, -, h⟩ := h
    exact paired_of_fx hr h.fx
  | settlePayment id n =>
    obtain ⟨p, -, h⟩ := h
    exact h.paired (fun _ _ _ => settlementLines_fx) hr
  | reversePayment id n =>
    obtain ⟨p, -, h⟩ := h
    exact h.paired (fun _ _ _ => reversalLines_fx) hr
  | postJournalEntry entry n =>
    obtain ⟨u, -, -, h⟩ := h
    exact paired_of_fx hr h.fx
  | runReconciliation batchId records windowStart windowEnd =>
    obtain ⟨runId, result, -, h⟩ := h
    exact paired_of_fx hr h.fx

end Fx

section Commits

variable {ι : Type} [DecidableEq ι] {rt : Runtime} {step : Feed → Feed → Prop} {st₀ : Store}
  {calls : ι → Call} {σ : Config postgres ι Value}

theorem WellFormed.paired (h : WellFormed (feedEnv step) st₀ (fun i => (calls i).prog rt) σ) :
    ∀ c ∈ σ.world.log, Paired (writesOf c.tx) := by
  intro c hc
  obtain ⟨v, hv⟩ := h.shape hc
  obtain ⟨l, l', hl⟩ := List.append_of_mem hc
  exact hv.paired (h.committed l c l' hl).2.1.ran

theorem WellFormed.witnessed (h : WellFormed (feedEnv step) st₀ (fun i => (calls i).prog rt) σ)
    {l l' : List (Commit postgres ι)} {c : Commit postgres ι} (hl : σ.world.log = l ++ c :: l') :
    Each (Witnessed c.before c.began) [] c.tx := by
  apply (h.committed l c l' hl).2.1.witnessed
  intro c' hc'
  apply h.paired
  rw [hl]
  exact List.mem_append_left _ hc'

end Commits

/-- The results of a transaction's reads stand on the store it is committed on. -/
def Sound (before : Store) (pre : List (Event postgres)) (e : Event postgres) : Prop :=
  ∀ st : Store, (∀ id row, (∃ e' ∈ pre, Did (.selectPayment id) (some row) e') → st.hasPayment id = true) →
    e.stmt.Held st (before.after (writesOf pre)) e.res

section Sound

variable {before : Store} {b : ℕ} {pre tx t : List (Event postgres)} {e : Event postgres}

theorem Each.replayed (hw : Each (Witnessed before b) pre t) (hs : Each (Sound before) pre t) :
    Each (Replayed before b) pre t := by
  apply (hw.and hs).imp
  intro pre e _ h
  exact h.1.replayed h.2

/-- A statement whose result the database promises whatever has happened. -/
def Stmt.Free (s : Stmt) : Prop := ∀ st st' r, s.Held st st' r

theorem Did.sound {s : Stmt} {r : s.Res} (h : Did s r e) (hs : ∀ st, s.Held st (before.after (writesOf pre)) r) :
    Sound before pre e := by
  obtain ⟨ws, n, rfl⟩ := h
  intro st _
  exact hs st

theorem each_sound (h : ∀ e ∈ t, e.stmt.Free) : Each (Sound before) pre t := by
  apply each_of_split
  intro a e b ht st _
  apply h e
  rw [ht]
  simp

theorem Enqueued.sound {id : Uuid} {eventType : String} {payload : PyDict}
    (h : Enqueued id eventType payload t) : Each (Sound before) pre t := by
  obtain ⟨subs, e₁, td, rfl, h₁, hd⟩ := h
  apply each_sound
  intro e he
  rcases List.mem_cons.mp he with rfl | he
  · rw [h₁.stmt]
    exact fun _ _ _ => trivial
  · obtain ⟨sub, -, i, hi⟩ := forall₂_mem_right hd he
    rw [hi.stmt]
    exact fun _ _ _ => trivial

theorem mem_locksOf_snoc {k : RowKey} {w : Write} (hw : w ∈ e.writes) (hk : w.locked = some k) :
    k ∈ locksOf (pre ++ [e]) := by
  rw [locksOf_append, locksOf_singleton]
  exact List.mem_append_right _ (List.mem_filterMap.mpr ⟨w, hw, hk⟩)

/-- A read of a payment whose row the transaction has locked. -/
theorem Witnessed.locked_payment {id : Uuid} {r : Option PaymentRow} (h : Witnessed before b pre e)
    (hd : Did (.selectPayment id) r e) (hl : RowKey.payment id ∈ locksOf pre) :
    (before.after (writesOf pre)).payments.find id = r := by
  obtain ⟨st, c, hdrift, hev, -⟩ := h
  obtain ⟨hr, -⟩ := eval_selectPayment.mp (hd.eval hev)
  rw [hdrift.payment_held id (by rw [locksOf_append]; exact List.mem_append_left _ hl)]
  exact hr.symm

/-- A payment that the transaction moves at the version `v` had a version up to that before. -/
theorem Witnessed.moved_payment {id : Uuid} {v : ℕ} {status : PaymentStatus} (h : Witnessed before b pre e)
    (hd : Did (.updatePaymentStatus id v status) true e) {row : PaymentRow}
    (hrow : before.payments.find id = some row) : row.version ≤ v := by
  obtain ⟨st, c, hdrift, hev, -⟩ := h
  rcases eval_updatePaymentStatus.mp (hd.eval hev) with ⟨-, hws, row', hrow', hv⟩ | ⟨hf, -⟩
  · have hsame := hdrift.payment_held id (mem_locksOf_snoc (by rw [hws]; exact List.mem_singleton_self _) rfl)
    rw [hrow', payment_after _ hrow] at hsame
    have hle := onRow_version_le id (writesOf pre) row
    rw [Option.some.inj hsame] at hle
    omega
  · cases hf

/-- A payment that the transaction has read first, and later moved at the version it read, had that
row all along. -/
theorem payment_read {id : Uuid} {row : PaymentRow} {status : PaymentStatus} {e₁ e₂ : Event postgres}
    {l l' : List (Event postgres)} (h : Each (Witnessed before b) [] (e₁ :: (l ++ e₂ :: l')))
    (h₁ : Did (.selectPayment id) (some row) e₁) (h₂ : Did (.updatePaymentStatus id row.version status) true e₂) :
    before.payments.find id = some row := by
  obtain ⟨hw₁, hrest⟩ := h
  rw [each_append] at hrest
  obtain ⟨-, hw₂, -⟩ := hrest
  obtain ⟨st₁, c₁, hdrift, hev, -⟩ := hw₁
  obtain ⟨hr, -⟩ := eval_selectPayment.mp (h₁.eval hev)
  obtain ⟨row', hrow', hle⟩ := hdrift.payments id row hr.symm
  rw [writesOf_nil, Store.after_nil] at hrow'
  have hmoved := hw₂.moved_payment h₂ hrow'
  rcases hle with rfl | hlt
  · exact hrow'
  · omega

theorem Created.sound {req : NewPayment} {p : Payment} (h : Created req p t)
    (hw : Each (Witnessed before b) pre t) : Each (Sound before) pre t := by
  obtain ⟨a, id, row, e₁, e₂, e₃, e₄, te, rfl, h₁, -, h₂, h₃, -, h₄, hq⟩ := h
  obtain ⟨-, hw₂, hw₃, -⟩ := hw
  refine ⟨h₁.sound fun _ => trivial, h₂.sound fun _ => trivial, ?_, h₄.sound fun _ => trivial, hq.sound⟩
  apply h₃.sound
  intro st
  apply hw₃.locked_payment h₃
  obtain ⟨st₂, c₂, -, hev₂, -⟩ := hw₂
  obtain ⟨hid, -, -, -, row', hrow', hws⟩ := eval_insertPayment.mp (h₂.eval hev₂)
  have hrid : row'.id = id := by
    obtain ⟨a', -, cur, -, ref, -, rfl⟩ := PaymentRow.new_ok.mp hrow'
    exact hid.symm
  apply mem_locksOf_snoc (by rw [hws]; exact List.mem_singleton_self _)
  rw [Write.locked, hrid]

theorem Transitioned.sound {id : Uuid} {toStatus : PaymentStatus} {reason : Option PyStr} {p : Payment}
    (h : Transitioned id toStatus reason p tx) (hw : Each (Witnessed before b) [] tx) :
    Each (Sound before) [] tx := by
  obtain ⟨row, e₁, e₂, e₃, te, rfl, h₁, -, h₂, h₃, -, hq⟩ := h
  have hread : before.payments.find id = some row := by
    have hw' : Each (Witnessed before b) [] (e₁ :: ([] ++ e₂ :: (e₃ :: te))) := hw
    exact payment_read hw' h₁ h₂
  exact ⟨h₁.sound fun _ => hread, h₂.sound fun _ => rfl, h₃.sound fun _ => trivial, hq.sound⟩

/-- An account that the transaction bumps at the version `v` had a version up to that before. -/
theorem Witnessed.bumped_account {id : Uuid} {v : ℕ} {l : List (Event postgres)}
    (h : Witnessed before b (pre ++ l) e) (hd : Did (.updateAccountVersion id v) true e) {a : Account}
    (ha : (before.after (writesOf pre)).accounts.find id = some a) : a.version ≤ v := by
  obtain ⟨st, c, hdrift, hev, -⟩ := h
  rcases eval_updateAccountVersion.mp (hd.eval hev) with ⟨-, hws, a', ha', hv⟩ | ⟨hf, -⟩
  · have hsame := hdrift.account_held id (mem_locksOf_snoc (by rw [hws]; exact List.mem_singleton_self _) rfl)
    obtain ⟨a₁, ha₁, hle⟩ := account_after (writesOf l) ha
    rw [writesOf_append, Store.after_append, ha₁, ha'] at hsame
    rw [Option.some.inj hsame, hv] at hle
    exact hle
  · cases hf

/-- The versions that the transaction has read, and later bumps all of, were those of `before`. -/
theorem versions_read {ids : List Uuid} {versions : List (Uuid × ℕ)} {l tb l' : List (Event postgres)}
    (h : Each (Witnessed before b) pre (e :: (l ++ (tb ++ l')))) (hd : Did (.selectAccountVersions ids) versions e)
    (hb : Bumped versions ids tb) : (before.after (writesOf pre)).accountVersions ids = versions := by
  obtain ⟨⟨st, c, hdrift, hev, -⟩, hrest⟩ := h
  obtain ⟨rfl, hws⟩ := eval_selectAccountVersions.mp (hd.eval hev)
  apply accountVersions_congr
  intro id hid
  obtain ⟨eb, heb, v, hv, hbump⟩ := forall₂_exists_right hb hid
  rw [lookup_accountVersions, if_pos hid] at hv
  obtain ⟨a, ha, rfl⟩ := Option.map_eq_some_iff.mp hv
  obtain ⟨a', ha', hle⟩ := hdrift.account_le id a ha
  obtain ⟨t₁, t₂, rfl⟩ := List.append_of_mem heb
  have hwb : Witnessed before b (pre ++ (e :: l ++ t₁)) eb := by
    rw [each_append, each_append, each_append] at hrest
    obtain ⟨-, ⟨-, hwb, -⟩, -⟩ := hrest
    simpa using hwb
  have hge := hwb.bumped_account hbump ha'
  rw [ha, ha', Option.map_some, Option.map_some]
  congr 1
  omega

theorem Bumped.sound {versions : List (Uuid × ℕ)} {ids : List Uuid} (h : Bumped versions ids t) :
    Each (Sound before) pre t := by
  induction h generalizing pre with
  | nil => trivial
  | cons hd _ ih =>
    obtain ⟨v, -, hd⟩ := hd
    exact ⟨hd.sound fun _ => rfl, ih⟩

theorem Posted.sound {rt : Runtime} {entry : JournalEntry} {u : Uuid} (h : Posted rt entry u t)
    (hw : Each (Witnessed before b) pre t) : Each (Sound before) pre t := by
  obtain ⟨versions, e₁, e₂, tl, tb, rfl, h₁, h₂, hl, hb⟩ := h
  refine ⟨?_, h₂.sound fun _ => trivial, ?_⟩
  · apply h₁.sound
    intro st
    have hw' : Each (Witnessed before b) pre (e₁ :: ((e₂ :: tl) ++ (tb ++ []))) := by simpa using hw
    exact versions_read hw' h₁ hb
  · rw [each_append]
    refine ⟨?_, hb.sound⟩
    apply each_sound
    intro e he
    obtain ⟨line, -, hd⟩ := forall₂_mem_right hl he
    rw [hd.stmt]
    exact fun _ _ _ => trivial

theorem settlementLines_sound {p : Payment} {built : BuildLinesResult}
    (h : Path (settlementLines p) t (.ret built))
    (hp : ∃ row, row.id = p.id ∧ ∃ e ∈ pre, Did (.selectPayment row.id) (some row) e) :
    Each (Sound before) pre t := by
  obtain ⟨row, hid, e, he, hd⟩ := hp
  obtain ⟨d, c, e₁, e₂, tr, rfl, h₁, h₂,
      ⟨-, rfl, -⟩ | ⟨-, rate, amount, suspense, e₃, e₄, e₅, rfl, h₃, -, h₄, h₅, -⟩⟩ :=
    path_settlementLines h
  · exact ⟨h₁.sound fun _ => trivial, h₂.sound fun _ => trivial, trivial⟩
  · refine ⟨h₁.sound fun _ => trivial, h₂.sound fun _ => trivial, h₃.sound fun _ => trivial,
      h₄.sound fun _ => trivial, ?_, trivial⟩
    obtain ⟨ws, n, rfl⟩ := h₅
    intro st hst
    apply hst p.id row
    refine ⟨e, by simp [he], ?_⟩
    rw [← hid]
    exact hd

theorem reversalLines_sound {p : Payment} {built : BuildLinesResult}
    (h : Path (reversalLines p) t (.ret built)) : Each (Sound before) pre t := by
  rcases path_reversalLines h with ⟨-, rfl, -⟩ | ⟨amount, d, c, suspense, e₁, e₂, e₃, -, rfl, h₁, h₂, h₃, -⟩
  · trivial
  · exact ⟨h₁.sound fun _ => trivial, h₂.sound fun _ => trivial, h₃.sound fun _ => trivial, trivial⟩

theorem Moved.sound {rt : Runtime} {id : Uuid} {toStatus : PaymentStatus}
    {buildLines : Payment → App BuildLinesResult} {p : Payment} (h : Moved rt id toStatus buildLines p tx)
    (hb : ∀ p built t pre, Path (buildLines p) t (.ret built) →
      (∃ row, row.id = p.id ∧ ∃ e ∈ pre, Did (.selectPayment row.id) (some row) e) → Each (Sound before) pre t)
    (hw : Each (Witnessed before b) [] tx) : Each (Sound before) [] tx := by
  obtain ⟨row, built, u, e₁, tb, tp, e₂, e₃, te, rfl, h₁, -, hbuilt, -, hp, h₂, h₃, -, hq⟩ := h
  have hread : before.payments.find id = some row := by
    have hw' : Each (Witnessed before b) [] (e₁ :: ((tb ++ tp) ++ e₂ :: (e₃ :: te))) := by simpa using hw
    exact payment_read hw' h₁ h₂
  have hid : row.id = id := Table.find_key hread
  obtain ⟨hw₁, hw⟩ := hw
  rw [each_append, each_append] at hw
  obtain ⟨-, hwp, -⟩ := hw
  refine ⟨h₁.sound fun _ => hread, ?_⟩
  rw [each_append, each_append]
  refine ⟨?_, hp.sound hwp, h₂.sound fun _ => rfl, h₃.sound fun _ => trivial, hq.sound⟩
  apply hb _ _ _ _ hbuilt
  refine ⟨row, rfl, e₁, by simp, ?_⟩
  rw [hid]
  exact h₁

end Sound
end PaymentLedger
