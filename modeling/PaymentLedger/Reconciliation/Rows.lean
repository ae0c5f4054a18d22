import PaymentLedger.Db.Effects
import PaymentLedger.Reconciliation.SettlementFile

namespace PaymentLedger

theorem except_ok_bind {ε α β : Type} (a : α) (f : α → Except ε β) : (Except.ok a >>= f) = f a := rfl

section Cells

variable {row : DictRow} {name : String}

/-- The text of a cell. -/
def DictRow.cell (row : DictRow) (name : String) : Option String := (row.items.lookup name).join

theorem DictRow.stripped_ok {text : String} :
    row.stripped name = .ok text ↔ ∃ value, row.cell name = some value ∧ text = strip value := by
  cases hl : row.items.lookup name with
  | none => simp [DictRow.stripped, DictRow.cell, hl]
  | some value =>
    cases value with
    | none => simp [DictRow.stripped, DictRow.cell, hl]
    | some value => simp [DictRow.stripped, DictRow.cell, hl, eq_comm]

theorem DictRow.stripped_some {value : String} (h : row.cell name = some value) :
    row.stripped name = .ok (strip value) :=
  stripped_ok.mpr ⟨value, h, rfl⟩

/-- A cell that is missing raises no error of the file. -/
theorem DictRow.stripped_none (h : row.cell name = none) :
    ∃ e, row.stripped name = .error e ∧ ∀ message, e ≠ .settlementCsv message := by
  rw [DictRow.cell] at h
  rw [DictRow.stripped]
  cases hl : row.items.lookup name with
  | none => exact ⟨_, rfl, by simp⟩
  | some value =>
    cases value with
    | none => exact ⟨_, rfl, by simp⟩
    | some value => simp [hl] at h

end Cells

section Rows

variable (fromisoformat : String → Except String ℕ) (repr : String → String)

/-- The record that is read from a row. -/
structure Reads (row : DictRow) (record : SettlementRecord) : Prop where
  externalRef : ∃ value, row.cell "external_ref" = some value ∧ record.externalRef = strip value
  amount : ∃ value, row.cell "amount" = some value ∧ Decimal.ofString (strip value) = some record.amount
  currency : ∃ value, row.cell "currency" = some value ∧ record.currency = upper (strip value)
  settledAt : ∃ value, row.cell "settled_at" = some value ∧ fromisoformat (strip value) = .ok record.settledAt
  rawLine : record.rawLine = row.rawLine repr

/-- A row with all its cells, an amount that is a number and a timestamp. -/
structure Readable (row : DictRow) : Prop where
  externalRef : (row.cell "external_ref").isSome = true
  amount : ∃ value d, row.cell "amount" = some value ∧ Decimal.ofString (strip value) = some d
  currency : (row.cell "currency").isSome = true
  settledAt : ∃ value time, row.cell "settled_at" = some value ∧ fromisoformat (strip value) = .ok time

/-- A row whose amount is no number, or, where it is, whose timestamp is none; the cells before it are there. -/
def Refuses (row : DictRow) : Prop :=
  (row.cell "external_ref").isSome = true ∧ ∃ amount, row.cell "amount" = some amount ∧
    (Decimal.ofString (strip amount) = none ∨ (row.cell "currency").isSome = true ∧
      ∃ settledAt e, row.cell "settled_at" = some settledAt ∧ fromisoformat (strip settledAt) = .error e)

variable {fromisoformat} {lineNumber : ℕ} {row : DictRow}

theorem readable_iff : Readable fromisoformat row ↔ ∃ record, Reads fromisoformat repr row record := by
  constructor
  · intro h
    obtain ⟨ref, href⟩ := Option.isSome_iff_exists.mp h.externalRef
    obtain ⟨amount, d, hamount, hd⟩ := h.amount
    obtain ⟨currency, hcurrency⟩ := Option.isSome_iff_exists.mp h.currency
    obtain ⟨settledAt, time, htime, ht⟩ := h.settledAt
    exact ⟨⟨strip ref, d, upper (strip currency), time, row.rawLine repr⟩, ⟨ref, href, rfl⟩, ⟨amount, hamount, hd⟩,
      ⟨currency, hcurrency, rfl⟩, ⟨settledAt, htime, ht⟩, rfl⟩
  · rintro ⟨record, h⟩
    obtain ⟨ref, href, -⟩ := h.externalRef
    obtain ⟨amount, hamount, hd⟩ := h.amount
    obtain ⟨currency, hcurrency, -⟩ := h.currency
    obtain ⟨settledAt, htime, ht⟩ := h.settledAt
    exact ⟨by rw [href]; rfl, ⟨amount, _, hamount, hd⟩, by rw [hcurrency]; rfl, ⟨settledAt, _, htime, ht⟩⟩

variable {repr}

theorem readRecord_ok {record : SettlementRecord} :
    readRecord fromisoformat repr lineNumber row = .ok record ↔ Reads fromisoformat repr row record := by
  simp only [readRecord, except_bind_ok, except_pure_ok, DictRow.stripped_ok]
  constructor
  · rintro ⟨ref, ⟨refValue, href, rfl⟩, _, ⟨amountValue, hamount, rfl⟩, amount, hnumber, _,
      ⟨currencyValue, hcurrency, rfl⟩,
      _, ⟨timeValue, htime, rfl⟩, time, hread, rfl⟩
    refine ⟨⟨_, href, rfl⟩, ⟨_, hamount, ?_⟩, ⟨_, hcurrency, rfl⟩, ⟨_, htime, ?_⟩, rfl⟩
    · cases hd : Decimal.ofString (strip amountValue) with
      | none => simp [hd] at hnumber
      | some d => simpa [hd] using hnumber
    · cases ht : fromisoformat (strip timeValue) with
      | error e => simp [ht, Except.mapError] at hread
      | ok t => simpa [ht, Except.mapError] using hread
  · intro h
    obtain ⟨refValue, href, hr⟩ := h.externalRef
    obtain ⟨amountValue, hamount, hd⟩ := h.amount
    obtain ⟨currencyValue, hcurrency, hc⟩ := h.currency
    obtain ⟨timeValue, htime, ht⟩ := h.settledAt
    refine ⟨_, ⟨_, href, rfl⟩, _, ⟨_, hamount, rfl⟩, record.amount, ?_, _, ⟨_, hcurrency, rfl⟩, _, ⟨_, htime, rfl⟩,
      record.settledAt, ?_, ?_⟩
    · rw [hd]
      rfl
    · rw [ht]
      rfl
    · rw [← hr, ← hc, ← h.rawLine]

theorem readRecord_refused :
    (∃ message, readRecord fromisoformat repr lineNumber row = .error (.settlementCsv message)) ↔
    Refuses fromisoformat row := by
  -- where a cell is missing that is read first, neither side holds
  have missing {name : String} {f : String → Except SettlementCsvFailure SettlementRecord}
    (h : row.cell name = none) :
      ¬∃ message, (row.stripped name >>= f) = .error (.settlementCsv message) := by
    obtain ⟨e, he, hother⟩ := DictRow.stripped_none h
    rintro ⟨message, hm⟩
    rw [he] at hm
    exact hother message (Except.error.inj hm)
  unfold Refuses readRecord
  cases href : row.cell "external_ref" with
  | none => simpa using missing href
  | some refValue =>
    rw [DictRow.stripped_some href, except_ok_bind]
    cases hamount : row.cell "amount" with
    | none => simpa using missing hamount
    | some amountValue =>
      rw [DictRow.stripped_some hamount, except_ok_bind]
      cases hd : Decimal.ofString (strip amountValue) with
      | none => simp [rowError, hd, bind, Except.bind]
      | some amount =>
        rw [Option.elim_some, except_ok_bind]
        cases hcurrency : row.cell "currency" with
        | none => simpa [hd] using missing hcurrency
        | some currencyValue =>
          rw [DictRow.stripped_some hcurrency, except_ok_bind]
          cases htime : row.cell "settled_at" with
          | none => simpa [hd] using missing htime
          | some timeValue =>
            rw [DictRow.stripped_some htime, except_ok_bind]
            cases ht : fromisoformat (strip timeValue) with
            | error e => simp [ht, rowError, Except.mapError, bind, Except.bind]
            | ok time => simp [hd, ht, Except.mapError, bind, Except.bind, pure, Except.pure]

/-- The rows that the reader does not skip. -/
def dataRows (rows : List (List String)) : List (List String) := rows.filter (· ≠ [])

@[simp] theorem dataRows_nil (rows : List (List String)) : dataRows ([] :: rows) = dataRows rows := rfl

@[simp] theorem dataRows_cons {fields : List String} (h : fields ≠ []) (rows : List (List String)) :
    dataRows (fields :: rows) = fields :: dataRows rows := by
  simp [dataRows, h]

variable {fieldnames : List String} {e : Option CsvError} {rows : List (List String)}

theorem readRecords_cons {fields : List String} (h : fields ≠ []) :
    readRecords fromisoformat repr fieldnames e lineNumber (fields :: rows) =
      readRecord fromisoformat repr lineNumber (dictRow fieldnames fields) >>= fun record =>
        readRecords fromisoformat repr fieldnames e (lineNumber + 1) rows >>= fun records => pure
          (record :: records) := by
  cases fields with
  | nil => exact absurd rfl h
  | cons field fields => rfl

/-- All rows are read, in their order. -/
theorem readRecords_ok {records : List SettlementRecord} :
    readRecords fromisoformat repr fieldnames e lineNumber rows = .ok records ↔
      e = none ∧ List.Forall₂ (fun fields record => Reads fromisoformat repr (dictRow fieldnames fields) record)
        (dataRows rows) records := by
  induction rows generalizing lineNumber records with
  | nil => cases e <;> simp [readRecords, dataRows, eq_comm]
  | cons fields rows ih =>
    by_cases hempty : fields = []
    · rw [hempty, dataRows_nil]
      exact ih
    · rw [readRecords_cons hempty, dataRows_cons hempty, except_bind_ok]
      simp only [except_bind_ok, except_pure_ok, readRecord_ok, ih, List.forall₂_cons_left_iff]
      constructor
      · rintro ⟨record, hrecord, rest, ⟨he, hrest⟩, rfl⟩
        exact ⟨he, record, rest, hrecord, hrest, rfl⟩
      · rintro ⟨he, record, rest, hrecord, hrest, rfl⟩
        exact ⟨record, hrecord, rest, ⟨he, hrest⟩, rfl⟩

variable (fromisoformat fieldnames) in
/-- One row is refused, and every row before it is read. -/
def RefusedAt (rows : List (List String)) : Prop :=
  ∃ before fields after, rows = before ++ fields :: after ∧
    (∀ x ∈ before, Readable fromisoformat (dictRow fieldnames x)) ∧
    Refuses fromisoformat (dictRow fieldnames fields)

theorem refusedAt_cons {fields : List String} {rows : List (List String)} :
    RefusedAt fromisoformat fieldnames (fields :: rows) ↔ Refuses fromisoformat (dictRow fieldnames fields) ∨
      Readable fromisoformat (dictRow fieldnames fields) ∧ RefusedAt fromisoformat fieldnames rows := by
  constructor
  · rintro ⟨before, x, after, hrows, hbefore, hx⟩
    cases before with
    | nil =>
      obtain ⟨rfl, -⟩ := List.cons_eq_cons.mp hrows
      exact .inl hx
    | cons y before =>
      obtain ⟨rfl, rfl⟩ := List.cons_eq_cons.mp hrows
      obtain ⟨hread, hrest⟩ := List.forall_mem_cons.mp hbefore
      exact .inr ⟨hread, before, x, after, rfl, hrest, hx⟩
  · rintro (hx | ⟨hread, before, x, after, rfl, hbefore, hx⟩)
    · exact ⟨[], fields, rows, rfl, by simp, hx⟩
    · exact ⟨fields :: before, x, after, rfl, List.forall_mem_cons.mpr ⟨hread, hbefore⟩, hx⟩

theorem readRecords_refused :
    (∃ message, readRecords fromisoformat repr fieldnames e lineNumber rows = .error (.settlementCsv message)) ↔
      RefusedAt fromisoformat fieldnames (dataRows rows) := by
  induction rows generalizing lineNumber with
  | nil => cases e <;> simp [readRecords, dataRows, RefusedAt]
  | cons fields rows ih =>
    by_cases hempty : fields = []
    · rw [hempty, dataRows_nil]
      exact ih
    · rw [readRecords_cons hempty, dataRows_cons hempty, refusedAt_cons]
      cases hr : readRecord fromisoformat repr lineNumber (dictRow fieldnames fields) with
      | error failure =>
        have hunread : ¬Readable fromisoformat (dictRow fieldnames fields) := by
          intro hread
          obtain ⟨record, hrecord⟩ := (readable_iff repr).mp hread
          rw [readRecord_ok.mpr hrecord] at hr
          cases hr
        rw [← @readRecord_refused fromisoformat repr lineNumber, hr]
        simp [hunread, bind, Except.bind]
      | ok record =>
        have hread : Readable fromisoformat (dictRow fieldnames fields) :=
          (readable_iff repr).mpr ⟨record, readRecord_ok.mp hr⟩
        have hkept : ¬Refuses fromisoformat (dictRow fieldnames fields) := by
          rw [← @readRecord_refused fromisoformat repr lineNumber, hr]
          simp
        rw [except_ok_bind, ← @ih (lineNumber + 1)]
        cases readRecords fromisoformat repr fieldnames e (lineNumber + 1) rows with
        | error failure => simp [hread, hkept, bind, Except.bind]
        | ok records => simp [hkept, bind, Except.bind, pure, Except.pure]

variable {content : String}

theorem parseSettlementCsv_ok {records : List SettlementRecord} :
    parseSettlementCsv fromisoformat repr content = .ok records ↔ ∃ fieldnames rows,
      csvReader content = (fieldnames :: rows, none) ∧ (∀ name ∈ requiredColumns, name ∈ fieldnames) ∧
      records ≠ [] ∧
      List.Forall₂ (fun fields record => Reads fromisoformat repr (dictRow fieldnames fields) record)
        (dataRows rows) records := by
  have hcolumns (fieldnames : List String) : requiredColumns.all fieldnames.contains = true ↔
      ∀ name ∈ requiredColumns, name ∈ fieldnames := by
    rw [List.all_eq_true]
    simp only [List.contains_iff_mem]
  unfold parseSettlementCsv
  rcases hr : csvReader content with ⟨rows, e⟩
  cases rows with
  | nil => cases e <;> simp
  | cons fieldnames rows =>
    by_cases hall : requiredColumns.all fieldnames.contains = true
    · simp only [hall, if_true, except_bind_ok, readRecords_ok]
      constructor
      · rintro ⟨records', ⟨rfl, hreads⟩, hne⟩
        split at hne
        · cases hne
        · rename_i hrecords
          obtain rfl := Except.ok.inj hne
          exact ⟨_, _, rfl, (hcolumns _).mp hall, hrecords, hreads⟩
      · rintro ⟨_, _, hfile, -, hne, hreads⟩
        cases hfile
        exact ⟨records, ⟨rfl, hreads⟩, if_neg hne⟩
    · simp only [hall]
      constructor
      · intro h
        cases h
      · rintro ⟨_, _, hfile, hcols, -⟩
        cases hfile
        exact absurd ((hcolumns _).mpr hcols) hall

variable (fromisoformat content) in
/-- A file without columns or without a row, or with a row that is refused. -/
def RefusedFile : Prop :=
  csvReader content = ([], none) ∨ ∃ fieldnames rows e, csvReader content = (fieldnames :: rows, e) ∧
    ((∃ name ∈ requiredColumns, name ∉ fieldnames) ∨ RefusedAt fromisoformat fieldnames (dataRows rows) ∨
      (e = none ∧ dataRows rows = []))

theorem parseSettlementCsv_refused :
    (∃ message, parseSettlementCsv fromisoformat repr content = .error (.settlementCsv message)) ↔
      RefusedFile fromisoformat content := by
  have hcolumns (fieldnames : List String) : requiredColumns.all fieldnames.contains = true ↔
      ¬∃ name ∈ requiredColumns, name ∉ fieldnames := by
    rw [List.all_eq_true]
    simp only [List.contains_iff_mem]
    push Not
    rfl
  unfold parseSettlementCsv RefusedFile
  rcases hr : csvReader content with ⟨rows, e⟩
  cases rows with
  | nil => cases e <;> simp
  | cons fieldnames rows =>
    have hfile : (∃ fieldnames' rows' e', (fieldnames :: rows, e) = (fieldnames' :: rows', e') ∧
        ((∃ name ∈ requiredColumns, name ∉ fieldnames') ∨ RefusedAt fromisoformat fieldnames' (dataRows rows') ∨
          (e' = none ∧ dataRows rows' = []))) ↔ (∃ name ∈ requiredColumns, name ∉ fieldnames) ∨
        RefusedAt fromisoformat fieldnames (dataRows rows) ∨ (e = none ∧ dataRows rows = []) := by
      constructor
      · rintro ⟨_, _, _, hsame, h⟩
        cases hsame
        exact h
      · intro h
        exact ⟨_, _, _, rfl, h⟩
    rw [hfile]
    by_cases hall : requiredColumns.all fieldnames.contains = true
    · have hthere := (hcolumns fieldnames).mp hall
      simp only [hall, if_true, hthere, false_or, Prod.mk.injEq, reduceCtorEq, false_and]
      rw [← @readRecords_refused fromisoformat repr 2 fieldnames e]
      cases hread : readRecords fromisoformat repr fieldnames e 2 rows with
      | error failure =>
        have hnot : ¬(e = none ∧ dataRows rows = []) := by
          rintro ⟨he, hnil⟩
          have hok := (@readRecords_ok fromisoformat repr 2 fieldnames e rows []).mpr ⟨he, by rw [hnil]; exact .nil⟩
          rw [hread] at hok
          cases hok
        simp [hnot, bind, Except.bind]
      | ok records =>
        obtain ⟨he, hreads⟩ := readRecords_ok.mp hread
        rw [except_ok_bind]
        have hnil : dataRows rows = [] ↔ records = [] := by
          rw [← List.length_eq_zero_iff, hreads.length_eq, List.length_eq_zero_iff]
        by_cases hempty : records = []
        · simp [hempty, he, hnil]
        · simp [hempty, hnil]
    · have hmissing : ∃ name ∈ requiredColumns, name ∉ fieldnames := by
        by_contra hno
        exact hall ((hcolumns fieldnames).mpr hno)
      simp only [hall]
      simp [hmissing]

end Rows
end PaymentLedger
