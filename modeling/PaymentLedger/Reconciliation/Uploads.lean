import PaymentLedger.Reconciliation.Persistence
import PaymentLedger.Services.Rules

namespace PaymentLedger

section Breaks

/-- The columns of `settlement_file_records` take the record. -/
structure SettlementRecord.Storable (record : SettlementRecord) : Prop where
  externalRef : ∃ s, varchar 100 record.externalRef = .ok s
  amount : ∃ n, Numeric.ofDecimal 2 record.amount = .ok n
  currency : ∃ s, varchar 3 record.currency = .ok s
  rawLine : NulFree record.rawLine

theorem storable_iff {batchId : Uuid} {record : SettlementRecord} :
    (∃ row, SettlementFileRecordRow.new batchId record = .ok row) ↔ record.Storable := by
  simp only [SettlementFileRecordRow.new, except_bind_ok, except_pure_ok]
  constructor
  · rintro ⟨_, ref, href, n, hn, cur, hcur, raw, hraw, -⟩
    exact ⟨⟨ref, href⟩, ⟨n, hn⟩, ⟨cur, hcur⟩, text_ok.mp ⟨raw, hraw⟩⟩
  · intro h
    obtain ⟨ref, href⟩ := h.externalRef
    obtain ⟨n, hn⟩ := h.amount
    obtain ⟨cur, hcur⟩ := h.currency
    obtain ⟨raw, hraw⟩ := text_ok.mpr h.rawLine
    exact ⟨_, ref, href, n, hn, cur, hcur, raw, hraw, rfl⟩

/-- The columns of `reconciliation_breaks` take the break, and pydantic its amounts. -/
structure ReconciliationBreak.Storable (b : ReconciliationBreak) : Prop where
  stored : ∀ runId, ∃ row, ReconciliationBreakRow.new runId b = .ok row
  valid : b.Valid

variable {repr : String → String} {ledger : List LedgerSettledPayment} {settlement : List SettlementRecord}

theorem numeric_cents {n : ℕ} (h : n < 10 ^ 18) : ∃ x, Numeric.ofDecimal 2 (.finite false n (-2)) = .ok x := by
  have hr : Decimal.rescaleHalfUp n (-2) (-((2 : ℕ) : ℤ)) = n := by simp [Decimal.rescaleHalfUp]
  simp only [Numeric.ofDecimal, hr, h, dite_true]
  exact ⟨_, rfl⟩

theorem nulFree_amount {d : Decimal} (h : d.IsFinite) : NulFree d.str := by
  cases d with
  | finite s c e => exact nulFree_of_isXmlText (isXmlText_decimal s c e)
  | infinity s => cases h
  | nan s => cases h

theorem nullable_storable {x : Option Decimal} (h : ∀ a ∈ x, ∃ n, Numeric.ofDecimal 2 a = .ok n) :
    ∃ y, nullable (Numeric.ofDecimal 2) x = .ok y := by
  cases x with
  | none => exact ⟨none, rfl⟩
  | some a =>
    obtain ⟨n, hn⟩ := h a rfl
    exact ⟨some n, by rw [nullable, hn]; rfl⟩

/-- The details of a break have no NUL where its items have none. -/
theorem matchRef_details (hrepr : ∀ s, NulFree s → NulFree (repr s)) {ref : String} (href : NulFree ref)
    {p : Option LedgerSettledPayment} {s : Option SettlementRecord} {b : ReconciliationBreak}
    (hp : ∀ x ∈ p, x.Sound) (hs : ∀ y ∈ s, y.Storable ∧ y.amount.IsFinite)
    (h : matchRef repr ref p s = .ok (some b)) : NulFree b.details := by
  cases p with
  | none =>
    cases s with
    | none => cases h
    | some y =>
      cases h
      simp only [nulFree_append]
      exact ⟨⟨⟨by decide, hrepr ref href⟩, by decide⟩, by decide⟩
  | some x =>
    obtain ⟨n, -, hn⟩ := (hp x rfl).amount
    cases s with
    | none =>
      cases h
      simp only [nulFree_append]
      exact ⟨⟨⟨by decide, nulFree_of_isXmlText (isXmlText_uuid _)⟩, by decide⟩, by decide⟩
    | some y =>
      obtain ⟨hy, hfinite⟩ := hs y rfl
      obtain ⟨cur, hcur⟩ := hy.currency
      obtain ⟨-, -, -, hdetails⟩ := matchRef_mismatch h
      have hledger : NulFree x.amount.str := by
        rw [hn]
        exact nulFree_amount trivial
      rw [hdetails]
      have hleft :=
        nulFree_append.mpr ⟨nulFree_append.mpr ⟨nulFree_append.mpr ⟨(by decide : NulFree "ledger shows "), hledger⟩,
        (by decide : NulFree " ")⟩, (hp x rfl).currency⟩
      have hright :=
        nulFree_append.mpr ⟨nulFree_append.mpr ⟨nulFree_append.mpr ⟨(by decide : NulFree "settlement file shows "),
        nulFree_amount hfinite⟩, (by decide : NulFree " ")⟩, nulFree_of_varchar hcur⟩
      simp only [nulFree_append] at hleft hright ⊢
      exact ⟨⟨⟨⟨⟨hleft, by decide⟩, hright.1.1.1⟩, hright.1.1.2⟩, hright.1.2⟩, hright.2⟩

/-- Sound payments are matched with finite records, and the breaks can be stored. -/
theorem matchRecords_storable (hrepr : ∀ s, NulFree s → NulFree (repr s)) (hledger : ∀ p ∈ ledger, p.Sound)
    (hsettlement : ∀ s ∈ settlement, s.Storable ∧ s.amount.IsFinite) :
    ∃ r, matchRecords repr ledger settlement = .ok r ∧ ∀ b ∈ r.breaks, b.Storable := by
  have hcomparable : ∃ r, matchRecords repr ledger settlement = .ok r := by
    apply matchRefs_total
    intro ref _
    cases hv : matchRef repr ref _ _ with
    | ok verdict => exact ⟨verdict, rfl⟩
    | error e =>
      obtain ⟨-, x, y, hx, hy, hsignal⟩ := matchRef_signal.mp hv
      obtain ⟨n, -, hn⟩ := (hledger x (mem_of_lastByRef hx).1).amount
      have hfinite := (hsettlement y (mem_of_lastByRef hy).1).2
      exfalso
      rw [hn, Bool.or_eq_true] at hsignal
      rcases hsignal with hsignal | hsignal
      · cases hsignal
      · cases hamount : y.amount with
        | nan s =>
          rw [hamount] at hfinite
          exact hfinite
        | _ => simp [hamount, Decimal.isSignaling] at hsignal
  obtain ⟨r, hr⟩ := hcomparable
  refine ⟨r, hr, ?_⟩
  intro b hb
  obtain ⟨hmem, hverdict⟩ := matchRefs_break hr hb
  obtain ⟨hla, hsa, -⟩ := matchRef_amounts hverdict
  have hp (x : LedgerSettledPayment) (hx : x ∈ lastByRef LedgerSettledPayment.externalRef ledger b.externalRef) :
      x.Sound :=
    hledger x (mem_of_lastByRef hx).1
  have hs (y : SettlementRecord) (hy : y ∈ lastByRef SettlementRecord.externalRef settlement b.externalRef) :
      y.Storable ∧ y.amount.IsFinite := hsettlement y (mem_of_lastByRef hy).1
  have href : ∃ ref, varchar 100 b.externalRef = .ok ref := by
    rcases mem_sortedRefs.mp hmem with hmem | hmem
    · obtain ⟨x, hx, hxref⟩ := List.mem_map.mp hmem
      rw [← hxref]
      exact ⟨_, (hledger x hx).externalRef⟩
    · obtain ⟨y, hy, hyref⟩ := List.mem_map.mp hmem
      rw [← hyref]
      exact (hsettlement y hy).1.externalRef
  have hledgerAmount (a : Decimal) (ha : a ∈ b.ledgerAmount) : a.IsFinite ∧ ∃ n, Numeric.ofDecimal 2 a = .ok n := by
    rw [Option.mem_def, hla] at ha
    obtain ⟨x, hx, rfl⟩ := Option.map_eq_some_iff.mp ha
    obtain ⟨n, hn, hamount⟩ := (hp x hx).amount
    rw [hamount]
    exact ⟨trivial, numeric_cents hn⟩
  have hsettlementAmount (a : Decimal) (ha : a ∈ b.settlementAmount) :
      a.IsFinite ∧ ∃ n, Numeric.ofDecimal 2 a = .ok n := by
    rw [Option.mem_def, hsa] at ha
    obtain ⟨y, hy, rfl⟩ := Option.map_eq_some_iff.mp ha
    exact ⟨(hs y hy).2, (hs y hy).1.amount⟩
  refine ⟨?_, fun a ha => (hledgerAmount a ha).1, fun a ha => (hsettlementAmount a ha).1⟩
  intro runId
  obtain ⟨ref, hstored⟩ := href
  obtain ⟨la, hlstored⟩ := nullable_storable fun a ha => (hledgerAmount a ha).2
  obtain ⟨sa, hsstored⟩ := nullable_storable fun a ha => (hsettlementAmount a ha).2
  obtain ⟨d, hd⟩ := text_ok.mpr (matchRef_details hrepr (nulFree_of_varchar hstored) hp hs hverdict)
  exact ⟨_, ReconciliationBreakRow.new_ok.mpr ⟨ref, hstored, la, hlstored, sa, hsstored, d, hd, rfl⟩⟩

end Breaks

section Files

variable (fromisoformat : String → Except String ℕ) (repr : String → String)

/-- A row with a finite amount and a timestamp, whose values the columns of `settlement_file_records` take. -/
structure Loadable (row : DictRow) : Prop where
  externalRef : ∃ value, row.cell "external_ref" = some value ∧ ∃ ref, varchar 100 (strip value) = .ok ref
  amount : ∃ value d, row.cell "amount" = some value ∧ Decimal.ofString (strip value) = some d ∧ d.IsFinite ∧
    ∃ n, Numeric.ofDecimal 2 d = .ok n
  currency : ∃ value, row.cell "currency" = some value ∧ ∃ cur, varchar 3 (upper (strip value)) = .ok cur
  settledAt : ∃ value time, row.cell "settled_at" = some value ∧ fromisoformat (strip value) = .ok time
  rawLine : NulFree (row.rawLine repr)

/-- A file with its columns and at least one row, each of which is loadable. -/
def LoadableFile (content : String) : Prop :=
  ∃ fieldnames rows, csvReader content = (fieldnames :: rows, none) ∧
  (∀ name ∈ requiredColumns, name ∈ fieldnames) ∧
    dataRows rows ≠ [] ∧ ∀ fields ∈ dataRows rows, Loadable fromisoformat repr (dictRow fieldnames fields)

/-- The file is refused, or read into a record for each of its rows, in their order and with a finite amount. -/
def ParsesTotally (content : String) : Prop :=
  (∃ message, parseSettlementCsv fromisoformat repr content = .error (.settlementCsv message)) ∨
    ∃ records fieldnames rows, parseSettlementCsv fromisoformat repr content = .ok records ∧ records ≠ [] ∧
      csvReader content = (fieldnames :: rows, none) ∧
      List.Forall₂ (fun fields record => record.amount.IsFinite ∧
        Reads fromisoformat repr (dictRow fieldnames fields) record)
        (dataRows rows) records

variable {fromisoformat repr} {row : DictRow} {content : String}

theorem loadable_iff {record : SettlementRecord} (h : Reads fromisoformat repr row record) :
    Loadable fromisoformat repr row ↔ record.amount.IsFinite ∧ record.Storable := by
  obtain ⟨ref, href, hr⟩ := h.externalRef
  obtain ⟨amount, hamount, hd⟩ := h.amount
  obtain ⟨currency, hcurrency, hc⟩ := h.currency
  obtain ⟨settledAt, htime, ht⟩ := h.settledAt
  constructor
  · intro hl
    obtain ⟨_, href', hstored⟩ := hl.externalRef
    obtain ⟨_, d, hamount', hd', hfinite, hn⟩ := hl.amount
    obtain ⟨_, hcurrency', hcur⟩ := hl.currency
    obtain rfl := Option.some.inj (href.symm.trans href')
    obtain rfl := Option.some.inj (hamount.symm.trans hamount')
    obtain rfl := Option.some.inj (hcurrency.symm.trans hcurrency')
    obtain rfl := Option.some.inj (hd.symm.trans hd')
    refine ⟨hfinite, ?_, hn, ?_, ?_⟩
    · rw [hr]
      exact hstored
    · rw [hc]
      exact hcur
    · rw [h.rawLine]
      exact hl.rawLine
  · rintro ⟨hfinite, hs⟩
    refine ⟨⟨ref, href, ?_⟩, ⟨amount, _, hamount, hd, hfinite, hs.amount⟩, ⟨currency, hcurrency, ?_⟩,
      ⟨settledAt, _, htime, ht⟩, ?_⟩
    · rw [← hr]
      exact hs.externalRef
    · rw [← hc]
      exact hs.currency
    · rw [← h.rawLine]
      exact hs.rawLine

theorem Loadable.readable (h : Loadable fromisoformat repr row) :
    ∃ record, Reads fromisoformat repr row record := by
  obtain ⟨ref, href, -⟩ := h.externalRef
  obtain ⟨amount, d, hamount, hd, -⟩ := h.amount
  obtain ⟨currency, hcurrency, -⟩ := h.currency
  exact (readable_iff repr).mp ⟨by rw [href]; rfl, ⟨amount, d, hamount, hd⟩, by rw [hcurrency]; rfl, h.settledAt⟩

theorem forall₂_exists {α β : Type} {R : α → β → Prop} {l : List α} (h : ∀ a ∈ l, ∃ b, R a b) :
    ∃ l', List.Forall₂ R l l' := by
  induction l with
  | nil => exact ⟨[], .nil⟩
  | cons a l ih =>
    obtain ⟨ha, hl⟩ := List.forall_mem_cons.mp h
    obtain ⟨b, hb⟩ := ha
    obtain ⟨l', hl'⟩ := ih hl
    exact ⟨b :: l', .cons hb hl'⟩

/-- The records of a loadable file are finite and can be stored, and no other file has such records. -/
theorem loadableFile_iff : LoadableFile fromisoformat repr content ↔ ∃ records,
    parseSettlementCsv fromisoformat repr content = .ok records ∧ ∀ record ∈ records,
    record.amount.IsFinite ∧ record.Storable := by
  constructor
  · rintro ⟨fieldnames, rows, hfile, hcolumns, hne, hall⟩
    obtain ⟨records, hreads⟩ := forall₂_exists fun fields hfields => (hall fields hfields).readable
    refine ⟨records, parseSettlementCsv_ok.mpr ⟨fieldnames, rows, hfile, hcolumns, ?_, hreads⟩, ?_⟩
    · intro hnil
      rw [hnil] at hreads
      exact hne (List.forall₂_nil_right_iff.mp hreads)
    · intro record hrecord
      obtain ⟨fields, hfields, hread⟩ := forall₂_mem_right hreads hrecord
      exact (loadable_iff hread).mp (hall fields hfields)
  · rintro ⟨records, hparse, hall⟩
    obtain ⟨fieldnames, rows, hfile, hcolumns, hne, hreads⟩ := parseSettlementCsv_ok.mp hparse
    refine ⟨fieldnames, rows, hfile, hcolumns, ?_, ?_⟩
    · intro hnil
      rw [hnil] at hreads
      exact hne (List.forall₂_nil_left_iff.mp hreads)
    · intro fields hfields
      obtain ⟨record, hrecord, hread⟩ := forall₂_mem_right hreads.flip hfields
      exact (loadable_iff hread).mpr (hall record hrecord)

end Files

section Rules

variable {live : Prop} {rely : Rely postgres} {c : Store} {ws : List Write}

/-- The records of a file are stored, or one of them cannot be. -/
theorem wp_loadSettlementRecords {batchId : Uuid} {records : List SettlementRecord}
    {Q : Except AppError Unit → Store → List Write → Prop}
    (hok : ∀ c', rely.rel c c' → ∀ rows : List SettlementFileRecordRow, (∀ record ∈ records, record.Storable) →
      Q (.ok ()) c' (ws ++ rows.map .insertRecord))
    (herr : ∀ c' e, (∃ record ∈ records, ¬record.Storable) → Q (.error e) c' []) :
    (loadSettlementRecords batchId records).wp live rely Q c ws := by
  induction records generalizing c ws with
  | nil =>
    intro c' hc
    simpa using hok c' hc [] (by simp)
  | cons record records ih =>
    apply Prog.wp_bind
    apply wp_query
    · intro _ c' _ now
      exact ⟨{}, rfl⟩
    · intro c' hc now ch r new he c'' hc'
      obtain ⟨row, hrow, rfl⟩ := eval_insertRecord.mp he
      have hstorable : record.Storable := storable_iff.mp ⟨row, hrow⟩
      apply ih
      · intro c₃ hc₃ rows hall
        have hrest :=
          hok c₃ (rely.trans hc (rely.trans hc' hc₃)) (row :: rows) (List.forall_mem_cons.mpr ⟨hstorable, hall⟩)
        rwa [List.map_cons, ← List.singleton_append, ← List.append_assoc] at hrest
      · intro c₃ e hunstorable
        obtain ⟨record', hmem, hno⟩ := hunstorable
        exact herr c₃ e ⟨record', List.mem_cons_of_mem _ hmem, hno⟩
    · intro c' _ now ch e he c'' _
      refine herr c'' _ ⟨record, List.mem_cons_self, ?_⟩
      intro hstorable
      obtain ⟨row, hrow⟩ := storable_iff.mpr hstorable
      have hstored :
          Stmt.eval (c'.after ws) now ch (.insertRecord batchId record) = some (.ok ((), [.insertRecord row])) :=
        eval_insertRecord.mpr ⟨row, hrow, rfl⟩
      rw [hstored] at he
      cases he

theorem hasRun_written {run : ReconciliationRunRow} (h : .insertRun run ∈ ws) (st : Store) :
    (st.after ws).hasRun run.id = true := by
  obtain ⟨a, b, rfl⟩ := List.append_of_mem h
  rw [Store.after_append, Store.after_cons]
  apply hasRun_after
  show ((st.after a).reconciliationRuns.insert run).find run.id |>.isSome
  cases hf : (st.after a).reconciliationRuns.find run.id with
  | none => simp [Table.find_insert hf]
  | some r => simp [Table.find_insert_of_some hf]

theorem wp_insertBreaks {run : ReconciliationRunRow} {breaks : List ReconciliationBreak}
    {Q : Except AppError Unit → Store → List Write → Prop}
    (hkept : ∀ {st st' : Store}, rely.rel st st' → ∀ {id}, st.hasPayment id = true → st'.hasPayment id = true)
    (hrun : .insertRun run ∈ ws) (hpay : ∀ b ∈ breaks, ∀ id ∈ b.paymentId, c.hasPayment id = true)
    (hstored : ∀ b ∈ breaks, b.Storable) (h : ∀ c' ws', Q (.ok ()) c' ws') :
    (insertBreaks run.id breaks).wp live rely Q c ws := by
  induction breaks generalizing c ws with
  | nil => exact fun c' _ => h c' ws
  | cons b breaks ih =>
    obtain ⟨row, hrow⟩ := (hstored b List.mem_cons_self).stored run.id
    have heval (c' : Store) (hc : rely.rel c c') (now : ℕ) (ch : Choice) :
        Stmt.eval (c'.after ws) now ch (.insertBreak run.id b) = some (.ok ((), [.insertBreak row])) := by
      refine eval_insertBreak.mpr ⟨hasRun_written hrun c', ?_, row, hrow, rfl⟩
      rw [Option.all_eq_true]
      intro id hid
      exact (Later.after c' ws).hasPayment (hkept hc (hpay b List.mem_cons_self id hid))
    apply Prog.wp_bind
    apply wp_query
    · intro _ c' hc now
      exact ⟨{}, by rw [heval c' hc]; rfl⟩
    · intro c' hc now ch r new he c'' hc'
      rw [heval c' hc] at he
      cases he
      apply ih (List.mem_append_left _ hrun)
      · intro b' hb' id hid
        exact hkept (rely.trans hc hc') (hpay b' (List.mem_cons_of_mem _ hb') id hid)
      · intro b' hb'
        exact hstored b' (List.mem_cons_of_mem _ hb')
    · intro c' hc now ch e he
      rw [heval c' hc] at he
      cases he

theorem settledIn_hasPayment {st : Store} {windowStart windowEnd : ℕ} {p : LedgerSettledPayment}
    (h : p ∈ st.settledIn windowStart windowEnd) : st.hasPayment p.paymentId = true := by
  obtain ⟨x, -, hp⟩ := List.mem_flatMap.mp h
  obtain ⟨row, hrow, rfl⟩ := List.mem_map.mp hp
  have hfound := Option.mem_toList.mp hrow
  show (st.payments.find row.id).isSome = true
  rw [Table.find_key hfound, Option.mem_def.mp hfound]
  rfl

/-- How the request ends: in a run whose breaks can be answered, or in an error where a record cannot be stored. -/
def Concluded (records : List SettlementRecord) (r : Except AppError (Uuid × ReconciliationResult)) : Prop :=
  (∃ v, r = .ok v ∧ (∀ record ∈ records, record.Storable) ∧ ∀ b ∈ v.2.breaks, b.Valid) ∨
    ∃ e, r = .error e ∧ ∃ record ∈ records, ¬record.Storable

theorem wp_runReconciliation {rt : Runtime} {batchId : Uuid} {records : List SettlementRecord}
    {windowStart windowEnd : ℕ}
    (hrepr : ∀ s, NulFree s → NulFree (rt.repr s))
    (hkept : ∀ {st st' : Store}, rely.rel st st' → ∀ {id}, st.hasPayment id = true → st'.hasPayment id = true)
    (hstill : live → ∀ {st st' : Store}, rely.rel st st' → st' = st)
    (hroom : live → c.reconciliationRuns.rows.length < 2 ^ 128)
    (hsound : ∀ c', rely.rel c c' → ∀ p ∈ c'.settledIn windowStart windowEnd, p.Sound)
    (hfinite : ∀ record ∈ records, record.amount.IsFinite) :
    (runReconciliation rt batchId records windowStart windowEnd).wp live rely
      (fun r _ _ => Concluded records r) c [] := by
  apply Prog.wp_uow
  apply Prog.wp_bind
  apply wp_loadSettlementRecords
  · intro c₁ hc₁ rows hall
    rw [List.nil_append]
    have hsettled (st : Store) : (st.after (rows.map .insertRecord)).settledIn windowStart windowEnd =
        st.settledIn windowStart windowEnd := by
      apply st.after_eq fun st => st.settledIn windowStart windowEnd
      intro w hw st
      obtain ⟨row, -, rfl⟩ := List.mem_map.mp hw
      rfl
    have hruns (st : Store) : (st.after (rows.map .insertRecord)).reconciliationRuns = st.reconciliationRuns := by
      apply st.after_eq Store.reconciliationRuns
      intro w hw st
      obtain ⟨row, -, rfl⟩ := List.mem_map.mp hw
      rfl
    apply Prog.wp_bind
    apply wp_query
    · intro _ c' _ now
      exact ⟨{ settled := (c'.after (rows.map .insertRecord)).settledIn windowStart windowEnd },
        by rw [eval_selectSettled.mpr ⟨rfl, List.Perm.refl _, rfl⟩]; rfl⟩
    · intro c₂ hc₂ now ch settled new he c₃ hc₃
      obtain ⟨-, hperm, rfl⟩ := eval_selectSettled.mp he
      rw [hsettled] at hperm
      have hledger : ∀ p ∈ settled, p.Sound := fun p hp => hsound c₂ (rely.trans hc₁ hc₂) p (hperm.mem_iff.mp hp)
      obtain ⟨result, hresult, hstorable⟩ :=
        matchRecords_storable hrepr hledger fun record hmem => ⟨hall record hmem, hfinite record hmem⟩
      have hpaid (b : ReconciliationBreak) (hb : b ∈ result.breaks) (id : Uuid) (hid : id ∈ b.paymentId) :
          c₂.hasPayment id = true := by
        obtain ⟨-, hverdict⟩ := matchRefs_break hresult hb
        rw [Option.mem_def, (matchRef_amounts hverdict).2.2] at hid
        obtain ⟨p, hp, rfl⟩ := Option.map_eq_some_iff.mp hid
        exact settledIn_hasPayment (hperm.mem_iff.mp (mem_of_lastByRef hp).1)
      apply Prog.wp_bind
      apply Prog.wp_ofExcept
      rw [hresult, List.append_nil]
      intro c₄ hc₄
      apply Prog.wp_bind
      apply Prog.wp_bind
      apply wp_query
      · intro hl c' hc' now
        have hsame : c' = c := hstill hl (rely.trans hc₁ (rely.trans hc₂ (rely.trans hc₃ (rely.trans hc₄ hc'))))
        obtain ⟨id, hid⟩ := Table.exists_fresh c.reconciliationRuns (hroom hl)
        have hfree : (c'.after (rows.map .insertRecord)).hasRun id = false := by
          rw [Store.hasRun, hruns, hsame, hid]
          rfl
        refine ⟨{ id := id }, ?_⟩
        rw [eval_insertRun.mpr ⟨rfl, hfree, _, ReconciliationRunRow.new_completed.mpr rfl, rfl⟩]
        rfl
      · intro c₅ hc₅ now ch runId new he c₆ hc₆
        obtain ⟨rfl, -, run, hrun, rfl⟩ := eval_insertRun.mp he
        have hid : run.id = ch.id := by rw [ReconciliationRunRow.new_completed.mp hrun]
        have hkept' : ∀ b ∈ result.breaks, ∀ id ∈ b.paymentId, c₆.hasPayment id = true := fun b hb id hid =>
          hkept (rely.trans hc₃ (rely.trans hc₄ (rely.trans hc₅ hc₆))) (hpaid b hb id hid)
        rw [← hid]
        apply Prog.wp_bind
        apply wp_insertBreaks hkept (List.mem_append_right _ (List.mem_singleton_self _)) hkept' hstorable
        intro c₇ ws₇ c₈ _ c₉ _ c₁₀ _
        exact .inl ⟨_, rfl, hall, fun b hb => (hstorable b hb).valid⟩
      · intro c' _ now ch e he
        simp only [Stmt.eval] at he
        split at he
        · cases he
        · rw [ReconciliationRunRow.new_completed.mpr rfl] at he
          cases he
    · intro c' _ now ch e he
      simp only [Stmt.eval] at he
      split at he <;> cases he
  · intro c' e hunstorable
    exact .inr ⟨e, rfl, hunstorable⟩

end Rules

section Runs

variable {ι : Type} [DecidableEq ι] {rt : Runtime} {step : Feed → Feed → Prop} {st₀ : Store}
  {calls : ι → Call} {σ σ' : Config postgres ι Value} {records : List SettlementRecord} {batchId : Uuid}
  {windowStart windowEnd : ℕ}

/-- The answer of a request whose records can all be stored, and its failure where one cannot. -/
def UploadEnds (batchId : Uuid) (records : List SettlementRecord) (r : Except AppError Value) : Prop :=
  ((∀ record ∈ records, record.Storable) ∧ ∃ posted, runReconciliationAnswer batchId r = .run 201 posted) ∨
    (∃ record ∈ records, ¬record.Storable) ∧ ∃ e, r = .error e

theorem wp_upload {live : Prop} {rely : Rely postgres} {c : Store} (hrepr : ∀ s, NulFree s → NulFree (rt.repr s))
    (hkept : ∀ {st st' : Store}, rely.rel st st' → ∀ {id}, st.hasPayment id = true → st'.hasPayment id = true)
    (hstill : live → ∀ {st st' : Store}, rely.rel st st' → st' = st)
    (hroom : live → c.reconciliationRuns.rows.length < 2 ^ 128)
    (hsound : ∀ c', rely.rel c c' → c'.Sound) (hfinite : ∀ record ∈ records, record.amount.IsFinite) :
    ((Call.runReconciliation batchId records windowStart windowEnd).prog rt).wp live rely
      (fun r _ _ => UploadEnds batchId records r) c [] := by
  apply Prog.wp_bind
  apply Prog.wp_mono _ (wp_runReconciliation hrepr hkept hstill hroom (fun c' hc => hsound c' hc _ _) hfinite)
  rintro r c' ws (⟨v, rfl, hall, hvalid⟩ | ⟨e, rfl, hunstorable⟩)
  · intro c'' _
    exact .inl ⟨hall, _, respond_run.mpr ⟨rfl, rfl, hvalid⟩⟩
  · exact .inr ⟨hunstorable, e, rfl⟩

/-- A payment that is there stays. -/
theorem Step.hasPayment (hs : Step (feedEnv step) σ σ') {id : Uuid} (h : σ.world.store.hasPayment id = true) :
    σ'.world.store.hasPayment id = true := by
  cases hs with
  | commit hp => exact (Later.after _ _).hasPayment h
  | env he =>
    obtain ⟨f, -, hst⟩ := he
    simp only [hst]
    exact h
  | _ => exact h

/-- In every run of the system, the request ends as it should. -/
theorem answers_reached (h₀ : Fresh st₀) (hrepr : ∀ s, NulFree s → NulFree (rt.repr s))
    (hfinite : ∀ record ∈ records, record.amount.IsFinite) {i : ι}
    (hcall : calls i = .runReconciliation batchId records windowStart windowEnd) (h : Reachable rt step st₀ calls σ)
    {r : Except AppError Value} (hr : (σ.session i).result = some r) : UploadEnds batchId records r := by
  obtain ⟨clock, hrun⟩ := h
  let rely : Rely postgres :=
    { rel := fun st st' => (∀ id, st.hasPayment id = true → st'.hasPayment id = true) ∧ (st.Sound → st'.Sound)
      refl := fun st => ⟨fun _ h => h, fun h => h⟩
      trans := fun h h' => ⟨fun id hid => h'.1 id (h.1 id hid), fun hs => h'.2 (h.2 hs)⟩ }
  have hsat : σ.Satisfies False rely (fun _ r _ _ => UploadEnds batchId records r) i := by
    clear hr
    induction hrun with
    | refl =>
      have hwf : WellFormed (feedEnv step) st₀ (fun i => (calls i).prog rt) (System rt st₀ clock calls) :=
        reaches_wellFormed (Relation.ReflTransGen.refl : Reaches _ (System rt st₀ clock calls) _)
      intro p hp
      obtain rfl := Option.some.inj hp
      show ((calls i).prog rt).wp False rely _ st₀ []
      rw [hcall]
      exact wp_upload hrepr (fun {_ _} h id => h.1 id) False.elim False.elim
        (fun c' hc => hc.2 (hwf.sound h₀)) hfinite
    | tail hprev hs ih =>
      refine hs.satisfies ?_ ih
      intro _
      exact ⟨fun id => hs.hasPayment, fun _ => (reaches_wellFormed (hprev.tail hs)).sound h₀⟩
  exact hsat.result hr

/-- With no one beside it, the request runs to its end. -/
theorem upload_ends (h₀ : Fresh st₀) (hroom : st₀.reconciliationRuns.rows.length < 2 ^ 128)
    (hrepr : ∀ s, NulFree s → NulFree (rt.repr s)) (hfinite : ∀ record ∈ records, record.amount.IsFinite) {i : ι}
    (hcall : calls i = .runReconciliation batchId records windowStart windowEnd) :
    ∃ σ, Reachable rt step st₀ calls σ ∧ ((σ.session i).result).isSome = true := by
  have hwf : WellFormed (feedEnv step) st₀ (fun i => (calls i).prog rt) (System rt st₀ 0 calls) :=
    reaches_wellFormed (Relation.ReflTransGen.refl : Reaches _ (System rt st₀ 0 calls) _)
  have hsat : (System rt st₀ 0 calls).Satisfies True (.alone postgres)
      (fun _ r _ _ => UploadEnds batchId records r) i := by
    intro p hp
    obtain rfl := Option.some.inj hp
    show ((calls i).prog rt).wp True _ _ st₀ []
    rw [hcall]
    apply wp_upload hrepr (fun {_ _} h id hid => by rwa [h]) (fun _ {_ _} h => h) (fun _ => hroom) _ hfinite
    intro c' hc
    rw [hc]
    exact hwf.sound h₀
  obtain ⟨σ, hreach, hend⟩ := hsat.ends trivial (p := (calls i).prog rt) rfl fun _ _ => rfl
  exact ⟨σ, ⟨0, hreach⟩, hend⟩

/-- Every text is parsed or refused as it should be, and answered with 201 or 400, iff the file is refused or
loadable. -/
theorem upload_answered_iff (h₀ : Fresh st₀) (hroom : st₀.reconciliationRuns.rows.length < 2 ^ 128)
    (hrepr : ∀ s, NulFree s → NulFree (rt.repr s)) {fromisoformat : String → Except String ℕ}
    {body : String} {i : ι}
    (hcall : ∀ call, runReconciliationEndpoint fromisoformat rt body batchId windowStart windowEnd = .ok call →
      calls i = call) :
    (ParsesTotally fromisoformat rt.repr body ∧
      (∀ answer, runReconciliationEndpoint fromisoformat rt body batchId windowStart windowEnd = .error answer →
        ∃ detail, answer = .refused 400 detail) ∧
      ∀ call, runReconciliationEndpoint fromisoformat rt body batchId windowStart windowEnd = .ok call →
        (∃ σ, Reachable rt step st₀ calls σ ∧ ((σ.session i).result).isSome = true) ∧
        ∀ σ, Reachable rt step st₀ calls σ → ∀ r, (σ.session i).result = some r →
          ∃ posted, runReconciliationAnswer batchId r = .run 201 posted) ↔
    RefusedFile fromisoformat body ∨ LoadableFile fromisoformat rt.repr body := by
  have hrun {records : List SettlementRecord}
    (hparse : parseSettlementCsv fromisoformat rt.repr body = .ok records) :
      runReconciliationEndpoint fromisoformat rt body batchId windowStart windowEnd =
        .ok (.runReconciliation batchId records windowStart windowEnd) := by
    rw [runReconciliationEndpoint, hparse]
  constructor
  · rintro ⟨hmessage | ⟨records, fieldnames, rows, hparse, -, -, hreads⟩, -, hanswered⟩
    · exact .inl (parseSettlementCsv_refused.mp hmessage)
    · have hfinite : ∀ record ∈ records, record.amount.IsFinite := by
        intro record hrecord
        obtain ⟨fields, -, hread⟩ := forall₂_mem_right hreads hrecord
        exact hread.1
      obtain ⟨⟨σ, hreach, hend⟩, hcreated⟩ := hanswered _ (hrun hparse)
      obtain ⟨r, hr⟩ := Option.isSome_iff_exists.mp hend
      obtain ⟨posted, hposted⟩ := hcreated σ hreach r hr
      refine .inr (loadableFile_iff.mpr ⟨records, hparse, fun record hrecord => ⟨hfinite record hrecord, ?_⟩⟩)
      rcases answers_reached h₀ hrepr hfinite (hcall _ (hrun hparse)) hreach hr with ⟨hall, -⟩ | ⟨-, e, rfl⟩
      · exact hall record hrecord
      · cases hposted
  · rintro (hrefused | hloadable)
    · obtain ⟨message, hmessage⟩ := (@parseSettlementCsv_refused fromisoformat rt.repr body).mpr hrefused
      have hendpoint : runReconciliationEndpoint fromisoformat rt body batchId windowStart windowEnd =
          .error (.refused 400 message) := by
        rw [runReconciliationEndpoint, hmessage]
      rw [hendpoint]
      refine ⟨.inl ⟨message, hmessage⟩, ?_, ?_⟩
      · intro answer h
        exact ⟨message, (Except.error.inj h).symm⟩
      · intro call h
        cases h
    · obtain ⟨records, hparse, hall⟩ := loadableFile_iff.mp hloadable
      obtain ⟨fieldnames, rows, hfile, -, hne, hreads⟩ := parseSettlementCsv_ok.mp hparse
      have hfinite : ∀ record ∈ records, record.amount.IsFinite := fun record hrecord => (hall record hrecord).1
      have hcalled := hcall _ (hrun hparse)
      rw [hrun hparse]
      refine ⟨.inr ⟨records, fieldnames, rows, hparse, hne, hfile, ?_⟩, ?_, ?_⟩
      · exact ((List.forall₂_and_left _ _).mpr ⟨hfinite, hreads.flip⟩).flip
      · intro answer h
        cases h
      · intro call _
        refine ⟨upload_ends h₀ hroom hrepr hfinite hcalled, ?_⟩
        intro σ hσ r hr
        rcases answers_reached h₀ hrepr hfinite hcalled hσ hr with ⟨-,
          hposted⟩ | ⟨⟨record, hrecord, hunstorable⟩, -⟩
        · exact hposted
        · exact absurd (hall record hrecord).2 hunstorable

end Runs

section Samples

theorem sampleRepr_nulFree (s : String) (h : NulFree s) : NulFree (sampleRuntime.repr s) :=
  nulFree_append.mpr ⟨nulFree_append.mpr ⟨by decide, h⟩, by decide⟩

theorem tenEuros_loadable : LoadableFile everyTimestamp sampleRuntime.repr (reportBody (cents 1000)) := by
  refine loadableFile_iff.mpr ⟨_, tenEuros_sample.call, ?_⟩
  intro record hrecord
  obtain rfl := List.mem_singleton.mp hrecord
  refine ⟨trivial, ⟨"REF", by decide +kernel⟩, numeric_cents (n := 1000) (by decide),
    ⟨"EUR", by decide +kernel⟩, ?_⟩
  rw [← text_ok]
  exact ⟨"external_ref=REF,amount=10.00,currency=EUR,settled_at=2026-01-01T00:00:00+00:00", by decide +kernel⟩

theorem upload_answered_tenEuros : ParsesTotally everyTimestamp sampleRuntime.repr (reportBody (cents 1000)) ∧
    (∃ σ, Reachable sampleRuntime (fun _ _ => True) sampleStore (reportCalls (cents 1000)) σ ∧
      ((σ.session 0).result).isSome = true) ∧
    ∀ σ, Reachable sampleRuntime (fun _ _ => True) sampleStore (reportCalls (cents 1000)) σ →
      ∀ r, (σ.session 0).result = some r → ∃ posted, runReconciliationAnswer 50 r = .run 201 posted := by
  have hcall (call : Call)
    (h : runReconciliationEndpoint everyTimestamp sampleRuntime (reportBody (cents 1000)) 50 0 1 = .ok call) :
      reportCalls (cents 1000) 0 = call :=
    Except.ok.inj (tenEuros_sample.endpoint.symm.trans h)
  obtain ⟨htotal, -, hanswered⟩ := (upload_answered_iff sampleStore_fresh (by decide) sampleRepr_nulFree hcall).mpr
    (.inr tenEuros_loadable)
  exact ⟨htotal, hanswered _ tenEuros_sample.endpoint⟩

/-- A file whose row has one field. -/
def shortBody : String := "external_ref,amount,currency,settled_at\nREF\n"

/-- A short row ends the parser and the endpoint in an exception, and NaN is parsed as an amount. -/
theorem shortRow_uploaded : parseSettlementCsv everyTimestamp sampleRuntime.repr shortBody = .error .noneStripped ∧
    ¬ParsesTotally everyTimestamp sampleRuntime.repr shortBody ∧
    runReconciliationEndpoint everyTimestamp sampleRuntime shortBody 50 0 1 = .error .unhandled ∧
    parseSettlementCsv everyTimestamp sampleRuntime.repr (reportBody (.nan false)) =
      .ok (reportRecords (.nan false)) ∧
    ¬ParsesTotally everyTimestamp sampleRuntime.repr (reportBody (.nan false)) := by
  have hshort : parseSettlementCsv everyTimestamp sampleRuntime.repr shortBody = .error .noneStripped := by
    decide +kernel
  have hnan : parseSettlementCsv everyTimestamp sampleRuntime.repr (reportBody (.nan false)) =
      .ok (reportRecords (.nan false)) := by decide +kernel
  refine ⟨hshort, ?_, ?_, hnan, ?_⟩
  · rintro (⟨message, h⟩ | ⟨records, _, _, h, -⟩)
    · rw [hshort] at h
      cases h
    · rw [hshort] at h
      cases h
  · rw [runReconciliationEndpoint, hshort]
  · rintro (⟨message, h⟩ | ⟨records, _, _, h, -, -, hreads⟩)
    · rw [hnan] at h
      cases h
    · obtain rfl := Except.ok.inj (hnan.symm.trans h)
      obtain ⟨_, -, hfinite, -⟩ := forall₂_mem_right hreads (List.mem_singleton_self _)
      exact hfinite

end Samples
end PaymentLedger
