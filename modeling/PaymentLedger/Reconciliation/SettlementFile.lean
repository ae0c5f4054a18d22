import PaymentLedger.Text.Csv
import PaymentLedger.Math.DecimalText
import PaymentLedger.Domain.Reconciliation

namespace PaymentLedger

/-- The exceptions that `parse_settlement_csv` ends in. -/
inductive SettlementCsvFailure where
  | settlementCsv (message : String)
  | csv (e : CsvError)
  -- the `AttributeError` of `None.strip()`
  | noneStripped
  | keyError (name : String)
  deriving DecidableEq, Repr

/-- A row of `csv.DictReader`: its items in order, and the fields beyond the last column, which it
keeps under the key None. -/
structure DictRow where
  items : List (String × Option String)
  rest : List String
  deriving DecidableEq

/-- `d[name] = value`. -/
def setItem (name : String) (value : Option String) : List (String × Option String) → List (String × Option String)
  | [] => [(name, value)]
  | (name', value') :: items =>
    if name' = name then (name', value) :: items else (name', value') :: setItem name value items

/-- `dict(zip(fieldnames, row))`, with None for the fields that the row lacks. -/
def dictRow (fieldnames row : List String) : DictRow where
  items := (fieldnames.zip (row.map some ++ List.replicate (fieldnames.length - row.length) none)).foldl
    (fun items x => setItem x.1 x.2 items) []
  rest := row.drop fieldnames.length

/-- `row[name].strip()`. -/
def DictRow.stripped (row : DictRow) (name : String) : Except SettlementCsvFailure String :=
  match row.items.lookup name with
  | some (some value) => .ok (strip value)
  | some none => .error .noneStripped
  | none => .error (.keyError name)

/-- `",".join(f"{k}={v}" for k, v in row.items())`. -/
def DictRow.rawLine (repr : String → String) (row : DictRow) : String :=
  ",".intercalate ((row.items.map fun x => x.1 ++ "=" ++ x.2.getD "None") ++
    if row.rest = [] then [] else ["None=[" ++ ", ".intercalate (row.rest.map repr) ++ "]"])

section Parsing

variable (fromisoformat : String → Except String ℕ) (repr : String → String)

def rowError (lineNumber : ℕ) (exc : String) : SettlementCsvFailure :=
  .settlementCsv ("row " ++ toString lineNumber ++ ": " ++ exc)

def readRecord (lineNumber : ℕ) (row : DictRow) : Except SettlementCsvFailure SettlementRecord := do
  let externalRef ← row.stripped "external_ref"
  let amount ← row.stripped "amount"
  let amount ← (Decimal.ofString amount).elim (.error (rowError lineNumber (Decimal.invalidOperation amount))) .ok
  let currency ← row.stripped "currency"
  let settledAt ← row.stripped "settled_at"
  let settledAt ← (fromisoformat settledAt).mapError (rowError lineNumber)
  return ⟨externalRef, amount, upper currency, settledAt, row.rawLine repr⟩

/-- The records of the rows, in which the reader skips the empty ones; `e` is what ends the reading. -/
def readRecords (fieldnames : List String) (e : Option CsvError) :
    ℕ → List (List String) → Except SettlementCsvFailure (List SettlementRecord)
  | _, [] => match e with
    | none => .ok []
    | some e => .error (.csv e)
  | lineNumber, [] :: rows => readRecords fieldnames e lineNumber rows
  | lineNumber, row :: rows => do
    let record ← readRecord fromisoformat repr lineNumber (dictRow fieldnames row)
    let records ← readRecords fieldnames e (lineNumber + 1) rows
    return record :: records

def requiredColumns : List String := ["external_ref", "amount", "currency", "settled_at"]

/-- Parses a settlement file, one row for each settled transaction that the network reports. -/
def parseSettlementCsv (content : String) : Except SettlementCsvFailure (List SettlementRecord) :=
  match csvReader content with
  | ([], some e) => .error (.csv e)
  | ([], none) =>
    .error (.settlementCsv "CSV must have columns: ['amount', 'currency', 'external_ref', 'settled_at']")
  | (fieldnames :: rows, e) =>
    if requiredColumns.all fieldnames.contains then do
      let records ← readRecords fromisoformat repr fieldnames e 2 rows
      if records = [] then .error (.settlementCsv "settlement file contains no data rows") else .ok records
    else .error (.settlementCsv "CSV must have columns: ['amount', 'currency', 'external_ref', 'settled_at']")

end Parsing

section Writing

/-- A row of a settlement file as it is written: the payment, the text of its settlement time, which
of the fields are quoted, and how the line ends. -/
structure SettlementLine where
  payment : LedgerSettledPayment
  settledAt : String
  quoted : Bool × Bool × Bool × Bool
  crlf : Bool

namespace SettlementLine

def fields (line : SettlementLine) : List (Bool × String) :=
  [(line.quoted.1, line.payment.externalRef), (line.quoted.2.1, line.payment.amount.str),
   (line.quoted.2.2.1, line.payment.currency), (line.quoted.2.2.2, line.settledAt)]

/-- The fields are quoted where they must be, and none is longer than the reader allows. -/
def WellWritten (line : SettlementLine) : Prop :=
  ∀ x ∈ line.fields, WellQuoted x.1 x.2.toList ∧ x.2.toList.length ≤ CsvReader.fieldSizeLimit

/-- The record that the row is read as, where its settlement time is `time`. -/
def record (repr : String → String) (line : SettlementLine) (time : ℕ) : SettlementRecord where
  externalRef := strip line.payment.externalRef
  amount := line.payment.amount
  currency := upper (strip line.payment.currency)
  settledAt := time
  rawLine := (dictRow requiredColumns (line.fields.map Prod.snd)).rawLine repr

end SettlementLine

/-- The header and a row for each line. -/
def settlementFile (crlf : Bool) (lines : List SettlementLine) : String :=
  String.ofList (csvRow crlf (requiredColumns.map fun name => (false, name)) ++
    lines.flatMap fun line => csvRow line.crlf line.fields)

end Writing

section Reading

variable {fromisoformat : String → Except String ℕ} {repr : String → String}

theorem csvReader_settlementFile {crlf : Bool} {lines : List SettlementLine}
    (hw : ∀ line ∈ lines, line.WellWritten) :
    csvReader (settlementFile crlf lines) =
      (requiredColumns :: lines.map fun line => line.fields.map Prod.snd, none) := by
  have hrows := csvReader_rows ((crlf, requiredColumns.map fun name => (false, name)) ::
    lines.map fun line => (line.crlf, line.fields)) (by
      intro row hrow
      rcases List.mem_cons.mp hrow with rfl | hrow
      · refine ⟨by simp [requiredColumns], ?_⟩
        have hplain : ∀ name ∈ requiredColumns, (∀ c ∈ name.toList, c ≠ ',' ∧ c ≠ '"' ∧ c ≠ '\n' ∧ c ≠ '\r') ∧
            name.toList.length ≤ CsvReader.fieldSizeLimit := by decide
        intro y hy
        obtain ⟨name, hname, rfl⟩ := List.mem_map.mp hy
        exact ⟨fun _ => (hplain name hname).1, (hplain name hname).2⟩
      · obtain ⟨line, hline, rfl⟩ := List.mem_map.mp hrow
        exact ⟨by simp [SettlementLine.fields], hw line hline⟩)
  rw [List.flatMap_cons, List.flatMap_map, List.map_cons, List.map_map, List.map_map] at hrows
  exact hrows

theorem readRecord_line {line : SettlementLine} {lineNumber n time : ℕ}
    (hamount : line.payment.amount = .finite false n (-2)) (hn : n < 10 ^ 18)
    (htime : fromisoformat (strip line.settledAt) = .ok time) :
    readRecord fromisoformat repr lineNumber (dictRow requiredColumns (line.fields.map Prod.snd)) =
      .ok (line.record repr time) := by
  have htext : Decimal.ofString (strip line.payment.amount.str) = some line.payment.amount := by
    rw [Decimal.ofString_strip, hamount]
    exact Decimal.ofString_cents hn
  have hstripped :
    ∀ name value, (dictRow requiredColumns (line.fields.map Prod.snd)).items.lookup name = some (some value) →
      (dictRow requiredColumns (line.fields.map Prod.snd)).stripped name = .ok (strip value) := by
    intro name value hlookup
    rw [DictRow.stripped, hlookup]
  rw [readRecord, hstripped "external_ref" line.payment.externalRef rfl,
    hstripped "amount" line.payment.amount.str rfl, hstripped "currency" line.payment.currency rfl,
    hstripped "settled_at" line.settledAt rfl]
  simp only [bind, Except.bind, htext, Option.elim_some, htime, Except.mapError]
  rfl

/-- The records of a written file are those of its lines. -/
theorem readRecords_lines {lines : List SettlementLine} {lineNumber : ℕ}
    (hamount : ∀ line ∈ lines, ∃ n < 10 ^ 18, line.payment.amount = .finite false n (-2))
    (htime : ∀ line ∈ lines, ∃ time, fromisoformat (strip line.settledAt) = .ok time) :
    ∃ records, readRecords fromisoformat repr requiredColumns none lineNumber
        (lines.map fun line => line.fields.map Prod.snd) = .ok records ∧
      List.Forall₂ (fun line record => ∃ time, record = SettlementLine.record repr line time) lines records := by
  induction lines generalizing lineNumber with
  | nil => exact ⟨[], rfl, .nil⟩
  | cons line lines ih =>
    obtain ⟨n, hn, hline⟩ := hamount line List.mem_cons_self
    obtain ⟨time, ht⟩ := htime line List.mem_cons_self
    have hrecord : readRecord fromisoformat repr lineNumber (dictRow requiredColumns (line.fields.map Prod.snd)) =
        .ok (line.record repr time) := readRecord_line hline hn ht
    obtain ⟨records, hrecords, hall⟩ := ih
      (fun x hx => hamount x (List.mem_cons_of_mem _ hx)) fun x hx => htime x (List.mem_cons_of_mem _ hx)
    refine ⟨line.record repr time :: records, ?_, .cons ⟨time, rfl⟩ hall⟩
    show (readRecord fromisoformat repr lineNumber (dictRow requiredColumns (line.fields.map Prod.snd)) >>=
      fun record =>
      readRecords fromisoformat repr requiredColumns none (lineNumber + 1)
        (lines.map fun line => line.fields.map Prod.snd) >>= fun records => pure (record :: records)) = _
    rw [hrecord, hrecords]
    rfl

variable (repr) in
/-- A written file of payments is read back with their references stripped and their currencies in upper
case; a file without a row is refused. -/
theorem parseSettlementCsv_settlementFile (crlf : Bool) {lines : List SettlementLine}
    (hw : ∀ line ∈ lines, line.WellWritten)
    (hamount : ∀ line ∈ lines, ∃ n < 10 ^ 18, line.payment.amount = .finite false n (-2))
    (htime : ∀ line ∈ lines, ∃ time, fromisoformat (strip line.settledAt) = .ok time) :
    (lines = [] ∧ ∃ e, parseSettlementCsv fromisoformat repr (settlementFile crlf lines) = .error e) ∨
    ∃ records, lines ≠ [] ∧ parseSettlementCsv fromisoformat repr (settlementFile crlf lines) = .ok records ∧
      List.Forall₂ (fun line record => ∃ time, record = SettlementLine.record repr line time) lines records := by
  obtain ⟨records, hrecords, hall⟩ := @readRecords_lines fromisoformat repr lines 2 hamount htime
  have hcolumns : requiredColumns.all requiredColumns.contains = true := by decide
  have hparse : parseSettlementCsv fromisoformat repr (settlementFile crlf lines) =
      if records = [] then .error (.settlementCsv "settlement file contains no data rows") else .ok records := by
    rw [parseSettlementCsv, csvReader_settlementFile hw]
    simp only [hcolumns, if_true, hrecords]
    rfl
  cases hall with
  | nil => exact .inl ⟨rfl, _, hparse.trans (if_pos rfl)⟩
  | cons hline hrest => exact .inr ⟨_, by simp, hparse.trans (if_neg (by simp)), .cons hline hrest⟩

end Reading
end PaymentLedger
