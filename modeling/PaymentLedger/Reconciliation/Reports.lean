import PaymentLedger.Services.Commits

namespace PaymentLedger

section Writes

variable {st : Store} {ws : List Write} {id : Uuid}

/-- The breaks of a run. -/
def Store.breaksOf (st : Store) (id : Uuid) : List ReconciliationBreakRow :=
  st.reconciliationBreaks.filter fun row => decide (row.runId = id)

def Write.isBreakOf (id : Uuid) : Write → Bool
  | insertBreak row => row.runId = id
  | _ => false

/-- Every stored break has its run. -/
def Store.Filed (st : Store) : Prop := ∀ row ∈ st.reconciliationBreaks, st.hasRun row.runId = true

theorem run_frame {w : Write} (h : w.locked ≠ some (.run id)) :
    (w.apply st).reconciliationRuns.find id = st.reconciliationRuns.find id := by
  cases w with
  | insertRun row =>
    apply Table.find_insert_of_ne
    intro hid
    exact h (by rw [← hid]; rfl)
  | _ => rfl

theorem run_kept {run : ReconciliationRunRow} (h : st.reconciliationRuns.find id = some run) (ws : List Write) :
    (st.after ws).reconciliationRuns.find id = some run := by
  apply st.after_induction (P := fun st => st.reconciliationRuns.find id = some run) h
  intro w _ st hrun
  cases w with
  | insertRun row => exact Table.find_insert_of_some hrun
  | _ => exact hrun

theorem hasRun_after (h : st.hasRun id = true) (ws : List Write) : (st.after ws).hasRun id = true := by
  obtain ⟨run, hrun⟩ := Option.isSome_iff_exists.mp h
  exact Option.isSome_iff_exists.mpr ⟨run, run_kept hrun ws⟩

theorem breaksOf_after (h : ∀ w ∈ ws, w.isBreakOf id = false) : (st.after ws).breaksOf id = st.breaksOf id := by
  apply st.after_eq fun st => st.breaksOf id
  intro w hw st
  cases w with
  | insertBreak row =>
    have hne : row.runId ≠ id := by simpa [Write.isBreakOf] using h _ hw
    simp [Store.breaksOf, Write.apply, Write.onBreaks, hne]
  | _ => rfl

theorem mem_breaks_after {row : ReconciliationBreakRow} (h : row ∈ (st.after ws).reconciliationBreaks) :
    row ∈ st.reconciliationBreaks ∨ .insertBreak row ∈ ws := by
  revert h
  apply st.after_induction (P := fun st' => row ∈ st'.reconciliationBreaks →
    row ∈ st.reconciliationBreaks ∨ .insertBreak row ∈ ws)
  · exact .inl
  · intro w hw st' ih h
    cases w with
    | insertBreak row' =>
      rcases List.mem_append.mp h with h | h
      · exact ih h
      · rw [List.mem_singleton.mp h]
        exact .inr hw
    | _ => exact ih h

theorem breaksOf_inserted {rows : List ReconciliationBreakRow} (h : ∀ row ∈ rows, row.runId = id) :
    (st.after (rows.map .insertBreak)).breaksOf id = st.breaksOf id ++ rows := by
  induction rows generalizing st with
  | nil => simp
  | cons row rows ih =>
    have hrow : row.runId = id := h row List.mem_cons_self
    rw [List.map_cons, Store.after_cons, ih fun row' hrow' => h row' (List.mem_cons_of_mem _ hrow')]
    simp [Store.breaksOf, Write.apply, Write.onBreaks, hrow]

end Writes

/-- What is stored of a break. -/
theorem ReconciliationBreakRow.new_ok {runId : Uuid} {k : ReconciliationBreak} {row : ReconciliationBreakRow} :
    ReconciliationBreakRow.new runId k = .ok row ↔
      ∃ ref, varchar 100 k.externalRef = .ok ref ∧
      ∃ ledgerAmount, nullable (Numeric.ofDecimal 2) k.ledgerAmount = .ok ledgerAmount ∧
      ∃ settlementAmount, nullable (Numeric.ofDecimal 2) k.settlementAmount = .ok settlementAmount ∧
      ∃ details, text k.details = .ok details ∧
        row = ⟨runId, k.paymentId, ref, k.breakType, ledgerAmount, settlementAmount, details⟩ := by
  simp only [ReconciliationBreakRow.new, except_bind_ok, except_pure_ok]

theorem ReconciliationRunRow.new_completed {id batchId : Uuid} {matched broken : ℕ} {run : ReconciliationRunRow} :
    ReconciliationRunRow.new id batchId matched broken "completed" = .ok run ↔
      run = ⟨id, batchId, matched, broken, "completed"⟩ := by
  have hstatus : varchar 20 "completed" = .ok "completed" := by decide
  rw [ReconciliationRunRow.new, hstatus]
  exact except_pure_ok

section Stored

variable {b : ℕ} {t tx : List (Event postgres)} {batchId : Uuid}

/-- Statements that ran, each of which writes the one row of its argument. -/
theorem writes_forall₂ {α β : Type} {s : α → Stmt} {r : (a : α) → (s a).Res} {stored : α → β → Prop} {w : β → Write}
    {as : List α} (h : List.Forall₂ (fun a e => Did (s a) (r a) e) as t) (hr : Ran b t)
    (hs : ∀ a st c ws, Stmt.eval st b c (s a) = some (.ok (r a, ws)) → ∃ row, stored a row ∧ ws = [w row]) :
    ∃ rows, List.Forall₂ stored as rows ∧ writesOf t = rows.map w := by
  induction h with
  | nil => exact ⟨[], .nil, rfl⟩
  | @cons a e as t hd _ ih =>
    obtain ⟨st, c, hev⟩ := hr e List.mem_cons_self
    obtain ⟨row, hrow, hws⟩ := hs a st c _ (hd.eval hev)
    obtain ⟨rows, hrows, hrest⟩ := ih fun e he => hr e (List.mem_cons_of_mem _ he)
    refine ⟨row :: rows, .cons hrow hrows, ?_⟩
    rw [writesOf_cons, hws, hrest]
    rfl

/-- What a run writes that reports `v`: the records, the run, and a row for each break. -/
structure Files (batchId : Uuid) (v : Uuid × ReconciliationResult) (rows : List ReconciliationBreakRow)
    (ws : List Write) : Prop where
  writes : ∃ records : List SettlementFileRecordRow, ws = records.map .insertRecord ++
    .insertRun ⟨v.1, batchId, v.2.matchedCount, v.2.breakCount, "completed"⟩ :: rows.map .insertBreak
  stored : List.Forall₂ (fun b row => ReconciliationBreakRow.new v.1 b = .ok row) v.2.breaks rows

theorem Reported.files {rt : Runtime} {records : List SettlementRecord} {windowStart windowEnd : ℕ}
    {v : Uuid × ReconciliationResult} (h : Reported rt batchId records windowStart windowEnd v tx) (hr : Ran b tx) :
    ∃ rows, Files batchId v rows (writesOf tx) := by
  obtain ⟨settled, tr, e₁, e₂, tb, rfl, hrecords, h₁, -, h₂, hbreaks⟩ := h
  have hran (t : List (Event postgres)) (ht : ∀ e ∈ t, e ∈ tr ++ e₁ :: e₂ :: tb) : Ran b t :=
    fun e he => hr e (ht e he)
  obtain ⟨recordRows, -, hwr⟩ := writes_forall₂ hrecords (w := .insertRecord)
    (hran tr fun e he => List.mem_append_left _ he) fun record st c ws hev => eval_insertRecord.mp hev
  obtain ⟨rows, hrows, hwb⟩ := writes_forall₂ hbreaks (w := .insertBreak) (hran tb fun e he => by simp [he])
    fun k st c ws hev => (eval_insertBreak.mp hev).2.2
  obtain ⟨st₁, c₁, hev₁⟩ := hr e₁ (by simp)
  obtain ⟨-, -, hw₁⟩ := eval_selectSettled.mp (h₁.eval hev₁)
  obtain ⟨st₂, c₂, hev₂⟩ := hr e₂ (by simp)
  obtain ⟨hid, -, run, hrun, hw₂⟩ := eval_insertRun.mp (h₂.eval hev₂)
  refine ⟨rows, ⟨recordRows, ?_⟩, hrows⟩
  rw [writesOf_append, writesOf_cons, writesOf_cons, hwr, hwb, hw₁, hw₂,
    ReconciliationRunRow.new_completed.mp hrun, hid]
  rfl

/-- The breaks that a run files are its own. -/
theorem Files.runId {v : Uuid × ReconciliationResult} {rows : List ReconciliationBreakRow} {ws : List Write}
    (h : Files batchId v rows ws) : ∀ row ∈ rows, row.runId = v.1 := by
  intro row hrow
  obtain ⟨k, -, hnew⟩ := forall₂_mem_right h.stored hrow
  obtain ⟨ref, -, la, -, sa, -, d, -, rfl⟩ := ReconciliationBreakRow.new_ok.mp hnew
  rfl

/-- The run and its breaks after they are filed. -/
theorem Files.run {st : Store} {v : Uuid × ReconciliationResult} {rows : List ReconciliationBreakRow}
    {ws : List Write}
    (h : Files batchId v rows ws) (hfree : st.hasRun v.1 = false) : (st.after ws).reconciliationRuns.find v.1 =
      some ⟨v.1, batchId, v.2.matchedCount, v.2.breakCount, "completed"⟩ := by
  obtain ⟨records, rfl⟩ := h.writes
  rw [Store.after_append, Store.after_cons]
  apply run_kept
  have hsame : (st.after (records.map .insertRecord)).reconciliationRuns = st.reconciliationRuns := by
    apply st.after_eq Store.reconciliationRuns
    intro w hw st
    obtain ⟨record, -, rfl⟩ := List.mem_map.mp hw
    rfl
  have hnone : st.reconciliationRuns.find v.1 = none :=
    Option.not_isSome_iff_eq_none.mp (by simpa [Store.hasRun] using hfree)
  show ((st.after (records.map .insertRecord)).reconciliationRuns.insert _).find v.1 = _
  rw [hsame, Table.find_insert hnone, if_pos rfl]

theorem Files.breaks {st : Store} {v : Uuid × ReconciliationResult} {rows : List ReconciliationBreakRow}
    {ws : List Write}
    (h : Files batchId v rows ws) : (st.after ws).breaksOf v.1 = st.breaksOf v.1 ++ rows := by
  obtain ⟨records, rfl⟩ := h.writes
  have hfirst : (st.after (records.map .insertRecord)).breaksOf v.1 = st.breaksOf v.1 := by
    apply breaksOf_after
    intro w hw
    obtain ⟨record, -, rfl⟩ := List.mem_map.mp hw
    rfl
  rw [Store.after_append, Store.after_cons, breaksOf_inserted h.runId, ← hfirst]
  rfl

end Stored

theorem Deed.Of.reconciliation {rt : Runtime} {st : Store} {now : ℕ} {call : Call}
    {v : Option Value} {ws : List Write}
    (h : (Deed.reconcile ws).Of rt st now call v) :
    ∃ batchId records windowStart windowEnd, call = .runReconciliation batchId records windowStart windowEnd := by
  cases call with
  | runReconciliation batchId records windowStart windowEnd => exact ⟨_, _, _, _, rfl⟩
  | initiatePayment req =>
    obtain ⟨_, _, _, heq, -⟩ := h
    cases heq
  | initiatePaymentIdempotent key body req =>
    rcases h with ⟨_, heq, -⟩ | ⟨_, _, _, _, heq, -⟩
    · cases heq
    · cases heq
  | postJournalEntry entry n =>
    obtain ⟨_, heq, -⟩ := h
    cases heq
  | authorisePayment id n =>
    obtain ⟨_, _, _, _, heq, -⟩ := h
    cases heq
  | failPayment id reason n =>
    obtain ⟨_, _, _, _, heq, -⟩ := h
    cases heq
  | settlePayment id n =>
    obtain ⟨_, _, _, _, _, _, _, heq, -⟩ := h
    cases heq
  | reversePayment id n =>
    obtain ⟨_, _, _, _, _, _, _, heq, -⟩ := h
    cases heq

/-- Only reconciliation writes breaks. -/
theorem Deed.unbroken {d : Deed} (h : ∀ ws, d ≠ .reconcile ws) (now : ℕ) {row : ReconciliationBreakRow} :
    .insertBreak row ∉ d.writes now := by
  cases d with
  | reconcile ws => exact absurd rfl (h ws)
  | initiate row' subs ds completion => simp [Deed.writes]
  | transition row' toStatus reason fx posting subs ds => simp [Deed.writes, fxWrites, Posting.writes]
  | post entry posting => simp [Deed.writes, Posting.writes]
  | claim key => simp [Deed.writes]

section Commits

variable {ι : Type} [DecidableEq ι] {rt : Runtime} {step : Feed → Feed → Prop} {st₀ : Store}
  {calls : ι → Call} {σ : Config postgres ι Value} {l l' : List (Commit postgres ι)} {c : Commit postgres ι}

omit [DecidableEq ι] in
/-- An id that no commit has locked stays free. -/
theorem History.hasRun_false {st st' : Store} {log : List (Commit postgres ι)} {id : Uuid}
    (h : History (feedEnv step) st log st') (hl : ∀ c ∈ log, RowKey.run id ∉ locksOf c.tx)
    (hfree : st.hasRun id = false) : st'.hasRun id = false := by
  apply h.invariant (fun _ (st : Store) => st.hasRun id = false) hfree
  · intro _ _ _ hfree he
    obtain ⟨f, -, rfl⟩ := he
    exact hfree
  · intro l c l' hlog hfree
    have hsame : c.after.reconciliationRuns.find id = c.before.reconciliationRuns.find id := by
      apply Store.after_induction (P :=
        fun st => st.reconciliationRuns.find id = (Store.reconciliationRuns c.before).find id)
        c.before rfl
      intro w hw st hst
      rw [run_frame, hst]
      -- a write that locks the run would be one of the log
      intro hlock
      exact hl c (by simp [hlog]) (List.mem_filterMap.mpr ⟨w, hw, hlock⟩)
    rw [Store.hasRun, hsame]
    exact hfree

theorem WellFormed.reported (h : WellFormed (feedEnv step) st₀ (fun i => (calls i).prog rt) σ)
    (hl : σ.world.log = l ++ c :: l') {batchId : Uuid} {records : List SettlementRecord} {windowStart windowEnd : ℕ}
    (hcall : calls c.caller = .runReconciliation batchId records windowStart windowEnd) :
    ∃ v, Reported rt batchId records windowStart windowEnd v c.tx := by
  have hidem : (calls c.caller).idempotent = false := by
    rw [hcall]
    rfl
  obtain ⟨done, tx, p, ht, hd, -⟩ := h.trace c.caller
  have hmem := mem_ownOf (by rw [hl]; simp : c ∈ σ.world.log)
  rw [← hd] at hmem
  obtain ⟨a, b, hab⟩ := mem_committedOf hmem
  obtain ⟨-, v, hv⟩ := Contract.commit_of_trace (Call.once hidem) ht hab
  rw [hcall] at hv
  obtain ⟨r, -, hp⟩ := hv
  exact ⟨r, path_runReconciliationBlock hp⟩

/-- A run that a commit reports is new, and is filed with its breaks. -/
theorem WellFormed.files (h : WellFormed (feedEnv step) st₀ (fun i => (calls i).prog rt) σ)
    (hl : σ.world.log = l ++ c :: l') {batchId : Uuid} {records : List SettlementRecord} {windowStart windowEnd : ℕ}
    {v : Uuid × ReconciliationResult} (hv : Reported rt batchId records windowStart windowEnd v c.tx) :
    c.before.hasRun v.1 = false ∧ ∃ rows, Files batchId v rows (writesOf c.tx) := by
  obtain ⟨-, hrec, -⟩ := h.committed l c l' hl
  refine ⟨?_, hv.files hrec.ran⟩
  obtain ⟨settled, tr, e₁, e₂, tb, htx, -, -, -, h₂, -⟩ := hv
  have hevaluated := hrec.evaluated
  rw [htx, each_append] at hevaluated
  obtain ⟨-, -, ⟨st, hev⟩, -⟩ := hevaluated
  obtain ⟨choice, heval⟩ := hev.eval
  obtain ⟨hid, hfree, run, hrun, hws⟩ := eval_insertRun.mp (h₂.eval (postgres_eval_ok.mp heval))
  have hrun' : run.id = v.1 := by rw [ReconciliationRunRow.new_completed.mp hrun, hid]
  apply hev.since.hasRun_false
  · intro c' hc'
    apply hev.held c' hc'
    apply mem_locksOf_snoc (w := .insertRun run)
    · rw [hws]
      exact List.mem_singleton_self _
    · rw [Write.locked, hrun']
  · by_contra htaken
    rw [Bool.not_eq_false] at htaken
    rw [← hid, view_eq, hasRun_after htaken] at hfree
    cases hfree

/-- The breaks that a commit writes belong to a run of its own. -/
theorem WellFormed.own_breaks (h : WellFormed (feedEnv step) st₀ (fun i => (calls i).prog rt) σ)
    (hl : σ.world.log = l ++ c :: l') {row : ReconciliationBreakRow} (hw : .insertBreak row ∈ writesOf c.tx) :
    c.before.hasRun row.runId = false ∧ c.after.hasRun row.runId = true := by
  obtain ⟨v, d, hd⟩ := h.does (by rw [hl]; simp : c ∈ σ.world.log)
  have hreconcile : ∃ ws, d = .reconcile ws := by
    by_contra hno
    push Not at hno
    rw [hd.writes] at hw
    exact Deed.unbroken hno c.began hw
  obtain ⟨ws, rfl⟩ := hreconcile
  obtain ⟨batchId, records, windowStart, windowEnd, hcall⟩ := hd.deed.reconciliation
  obtain ⟨report, hreport⟩ := h.reported hl hcall
  obtain ⟨hfree, rows, hfiles⟩ := h.files hl hreport
  have hown : row.runId = report.1 := by
    obtain ⟨recordRows, hwrites⟩ := hfiles.writes
    rw [hwrites] at hw
    exact hfiles.runId row (by simpa using hw)
  rw [hown]
  exact ⟨hfree, Option.isSome_iff_exists.mpr ⟨_, hfiles.run hfree⟩⟩

theorem WellFormed.filed (h : WellFormed (feedEnv step) st₀ (fun i => (calls i).prog rt) σ) (h₀ : st₀.Filed)
    {log rest : List (Commit postgres ι)} (hlog : σ.world.log = log ++ rest) {st : Store}
    (hst : History (feedEnv step) st₀ log st) : st.Filed := by
  apply hst.invariant (fun _ (st : Store) => st.Filed) h₀
  · intro _ _ _ hfiled he
    obtain ⟨f, -, rfl⟩ := he
    exact hfiled
  · intro l c l' hl hfiled row hrow
    have hσ : σ.world.log = l ++ c :: (l' ++ rest) := by simp [hlog, hl]
    rcases mem_breaks_after hrow with hold | hnew
    · exact hasRun_after (hfiled row hold) _
    · exact (h.own_breaks hσ hnew).2

/-- Once a run is filed, it stays as it is. -/
theorem WellFormed.run_stays (h : WellFormed (feedEnv step) st₀ (fun i => (calls i).prog rt) σ)
    (hl : σ.world.log = l ++ c :: l') {id : Uuid} {run : ReconciliationRunRow} {rows : List ReconciliationBreakRow}
    (hrun : c.after.reconciliationRuns.find id = some run) (hrows : c.after.breaksOf id = rows) :
    σ.world.store.reconciliationRuns.find id = some run ∧ σ.world.store.breaksOf id = rows := by
  obtain ⟨-, -, hlater⟩ := h.committed l c l' hl
  apply hlater.invariant (fun _ (st : Store) => st.reconciliationRuns.find id = some run ∧ st.breaksOf id = rows)
    ⟨hrun, hrows⟩
  · intro _ _ _ hst he
    obtain ⟨f, -, rfl⟩ := he
    exact hst
  · intro k c' k' hk hst
    have hσ : σ.world.log = (l ++ c :: k) ++ c' :: k' := by simp [hl, hk]
    refine ⟨run_kept hst.1 _, (breaksOf_after ?_).trans hst.2⟩
    intro w hw
    cases w with
    | insertBreak row =>
      have hfree := (h.own_breaks hσ hw).1
      have hne : row.runId ≠ id := by
        rintro rfl
        rw [Store.hasRun, hst.1] at hfree
        cases hfree
      simpa [Write.isBreakOf] using hne
    | _ => rfl

/-- A run has read the settled payments once, from the store as some prefix of the log had left it. -/
theorem WellFormed.settled_seen (h : WellFormed (feedEnv step) st₀ (fun i => (calls i).prog rt) σ)
    (hl : σ.world.log = l ++ c :: l') {batchId : Uuid} {records : List SettlementRecord} {windowStart windowEnd : ℕ}
    {v : Uuid × ReconciliationResult} (hv : Reported rt batchId records windowStart windowEnd v c.tx) :
    ∃ e ∈ c.tx, ∃ settled st, Did (.selectSettled windowStart windowEnd) settled e ∧
      (∀ e' ∈ c.tx, ∀ a b settled', Did (.selectSettled a b) settled' e' → settled' = settled) ∧
      matchRecords rt.repr settled records = .ok v.2 ∧ e.seen ≤ l.length ∧
      History (feedEnv step) st₀ (l.take e.seen) st ∧ settled.Perm (st.settledIn windowStart windowEnd) := by
  obtain ⟨-, hrec, -⟩ := h.committed l c l' hl
  obtain ⟨settled, tr, e₁, e₂, tb, htx, hrecords, h₁, hresult, h₂, hbreaks⟩ := hv
  have hran : Ran c.began tr := fun e he => hrec.ran e (by rw [htx]; simp [he])
  have hevaluated := hrec.evaluated
  rw [htx, each_append] at hevaluated
  obtain ⟨-, ⟨st, hev⟩, -⟩ := hevaluated
  obtain ⟨choice, heval⟩ := hev.eval
  obtain ⟨-, hperm, -⟩ := eval_selectSettled.mp (h₁.eval (postgres_eval_ok.mp heval))
  have hsettled : (view ([] ++ tr) st).settledIn windowStart windowEnd = st.settledIn windowStart windowEnd := by
    rw [List.nil_append, view_eq]
    apply st.after_eq fun st => st.settledIn windowStart windowEnd
    intro w hw st
    obtain ⟨e, he, -, hwrites⟩ := hran.writes hw
    obtain ⟨record, -, hd⟩ := forall₂_mem_right hrecords he
    rw [hd.stmt] at hwrites
    obtain ⟨row, rfl⟩ := hwrites
    rfl
  rw [hsettled] at hperm
  refine ⟨e₁, by simp [htx], settled, st, h₁, ?_, hresult, hev.seen, hev.past, hperm⟩
  intro e' he' a b settled' hd'
  rw [htx, List.mem_append, List.mem_cons, List.mem_cons] at he'
  rcases he' with he' | rfl | rfl | he'
  · obtain ⟨record, -, hd⟩ := forall₂_mem_right hrecords he'
    have hstmt := hd.stmt.symm.trans hd'.stmt
    cases hstmt
  · obtain ⟨ws, n, rfl⟩ := h₁
    obtain ⟨ws', n', heq⟩ := hd'
    cases heq
    rfl
  · have hstmt := h₂.stmt.symm.trans hd'.stmt
    cases hstmt
  · obtain ⟨k, -, hd⟩ := forall₂_mem_right hbreaks he'
    have hstmt := hd.stmt.symm.trans hd'.stmt
    cases hstmt

/-- What a run has reported is on file ever after. -/
theorem WellFormed.report_kept (h : WellFormed (feedEnv step) st₀ (fun i => (calls i).prog rt) σ) (h₀ : st₀.Filed)
    (hc : c ∈ σ.world.log) {batchId : Uuid} {records : List SettlementRecord} {windowStart windowEnd : ℕ}
    {v : Uuid × ReconciliationResult} (hv : Reported rt batchId records windowStart windowEnd v c.tx) :
    σ.world.store.reconciliationRuns.find v.1 =
        some ⟨v.1, batchId, v.2.matchedCount, v.2.breakCount, "completed"⟩ ∧
      List.Forall₂ (fun b row => ReconciliationBreakRow.new v.1 b = .ok row) v.2.breaks
        (σ.world.store.breaksOf v.1) := by
  obtain ⟨l, l', hl⟩ := List.append_of_mem hc
  obtain ⟨hfree, rows, hfiles⟩ := h.files hl hv
  have hbefore : c.before.breaksOf v.1 = [] := by
    rw [Store.breaksOf, List.filter_eq_nil_iff]
    intro row hrow hid
    have hrun := h.filed h₀ hl (h.committed l c l' hl).1 row hrow
    rw [of_decide_eq_true hid, hfree] at hrun
    cases hrun
  have hafter : c.after.breaksOf v.1 = rows := by
    have hbreaks : c.after.breaksOf v.1 = c.before.breaksOf v.1 ++ rows := hfiles.breaks
    rwa [hbefore, List.nil_append] at hbreaks
  obtain ⟨hrun, hrows⟩ := h.run_stays hl (hfiles.run hfree) hafter
  rw [hrows]
  exact ⟨hrun, hfiles.stored⟩

end Commits

end PaymentLedger
