import Mathlib.Tactic

namespace PaymentLedger

/-- The errors of `csv.reader` in its default dialect. -/
inductive CsvError where
  | newlineInUnquotedField
  | fieldTooLong
  deriving DecidableEq, Repr

inductive CsvPhase where
  | startRecord
  | startField
  | inField
  | inQuotedField
  | quoteInQuotedField
  | eatCrnl
  deriving DecidableEq, Repr

structure CsvReader where
  phase : CsvPhase
  field : List Char
  fields : List String
  deriving DecidableEq

namespace CsvReader

def start : CsvReader := ⟨.startRecord, [], []⟩

/-- `csv.field_size_limit()`. -/
def fieldSizeLimit : ℕ := 131072

def add (r : CsvReader) (phase : CsvPhase) (c : Char) : Except CsvError CsvReader :=
  if r.field.length < fieldSizeLimit then .ok ⟨phase, r.field ++ [c], r.fields⟩ else .error .fieldTooLong

def save (r : CsvReader) (phase : CsvPhase) : CsvReader := ⟨phase, [], r.fields ++ [String.ofList r.field]⟩

/-- A character at the start of a field; the end of a line is no character. -/
def processStart (r : CsvReader) : Option Char → Except CsvError CsvReader
  | none => .ok (r.save .startRecord)
  | some c =>
    if c = '\n' ∨ c = '\r' then .ok (r.save .eatCrnl)
    else if c = '"' then .ok { r with phase := .inQuotedField }
    else if c = ',' then .ok (r.save .startField)
    else r.add .inField c

/-- `parse_process_char`. -/
def process (r : CsvReader) (c : Option Char) : Except CsvError CsvReader :=
  match r.phase, c with
  | .startRecord, none => .ok r
  | .startRecord, some c =>
    if c = '\n' ∨ c = '\r' then .ok { r with phase := .eatCrnl } else r.processStart (some c)
  | .startField, c => r.processStart c
  | .inField, none => .ok (r.save .startRecord)
  | .inField, some c =>
    if c = '\n' ∨ c = '\r' then .ok (r.save .eatCrnl)
    else if c = ',' then .ok (r.save .startField)
    else r.add .inField c
  | .inQuotedField, none => .ok r
  | .inQuotedField, some c =>
    if c = '"' then .ok { r with phase := .quoteInQuotedField } else r.add .inQuotedField c
  | .quoteInQuotedField, none => .ok (r.save .startRecord)
  | .quoteInQuotedField, some c =>
    if c = '"' then r.add .inQuotedField c
    else if c = ',' then .ok (r.save .startField)
    else if c = '\n' ∨ c = '\r' then .ok (r.save .eatCrnl)
    else r.add .inField c
  | .eatCrnl, none => .ok { r with phase := .startRecord }
  | .eatCrnl, some c => if c = '\n' ∨ c = '\r' then .ok r else .error .newlineInUnquotedField

end CsvReader

/-- The characters of lines, each line with its end after it. -/
def feed (l : List Char) : List (Option Char) := l.flatMap fun c => if c = '\n' then [some c, none] else [some c]

/-- The lines of `StringIO(content)`; the last one may lack its newline. -/
def csvLines (content : List Char) : List (Option Char) :=
  feed content ++ if content.getLast? = none ∨ content.getLast? = some '\n' then [] else [none]

/-- The rows that `csv.reader` yields, and the error that ends them, if there is one. -/
def readRows (r : CsvReader) : List (Option Char) → List (List String) × Option CsvError
  | [] => if r.phase = .inQuotedField ∨ r.field ≠ [] then ([(r.save .startRecord).fields], none) else ([], none)
  | c :: cs =>
    match r.process c with
    | .error e => ([], some e)
    | .ok r' =>
      if c = none ∧ r'.phase = .startRecord then
        (r'.fields :: (readRows .start cs).1, (readRows .start cs).2)
      else readRows r' cs

/-- `list(csv.reader(StringIO(content)))`. -/
def csvReader (content : String) : List (List String) × Option CsvError :=
  readRows .start (csvLines content.toList)

section Writing

/-- A field as it is written: quoted, with its quotes doubled, or as it is. -/
def csvField (quoted : Bool) (s : List Char) : List Char :=
  if quoted then '"' :: (s.flatMap fun c => if c = '"' then ['"', '"'] else [c]) ++ ['"'] else s

/-- Only a field without special characters may stay unquoted. -/
def WellQuoted (quoted : Bool) (s : List Char) : Prop :=
  quoted = false → ∀ c ∈ s, c ≠ ',' ∧ c ≠ '"' ∧ c ≠ '\n' ∧ c ≠ '\r'

/-- A row with its line end. -/
def csvRow (crlf : Bool) (fields : List (Bool × String)) : List Char :=
  [','].intercalate (fields.map fun x => csvField x.1 x.2.toList) ++ if crlf then ['\r', '\n'] else ['\n']

end Writing

section Reading

variable {fs : List String} {f : List Char} {rest : List (Option Char)}

theorem readRows_cons {r r' : CsvReader} {c : Char} (h : r.process (some c) = .ok r') :
    readRows r (some c :: rest) = readRows r' rest := by
  simp [readRows, h]

theorem readRows_eol {r : CsvReader} (h : r.phase = .inQuotedField) :
    readRows r (none :: rest) = readRows r rest := by
  have hp : r.process none = .ok r := by simp [CsvReader.process, h]
  simp [readRows, hp, h]

theorem feed_append (a b : List Char) : feed (a ++ b) = feed a ++ feed b := List.flatMap_append

theorem feed_cons_of_ne {c : Char} (h : c ≠ '\n') (l : List Char) : feed (c :: l) = some c :: feed l := by
  simp [feed, h]

theorem feed_newline (l : List Char) : feed ('\n' :: l) = some '\n' :: none :: feed l := by
  simp [feed]

/-- The characters of an unquoted field. -/
theorem readRows_inField {s : List Char} (hs : WellQuoted false s)
    (hlen : f.length + s.length ≤ CsvReader.fieldSizeLimit) :
    readRows ⟨.inField, f, fs⟩ (feed s ++ rest) = readRows ⟨.inField, f ++ s, fs⟩ rest := by
  induction s generalizing f with
  | nil => simp [feed]
  | cons c s ih =>
    obtain ⟨hcomma, -, hnl, hcr⟩ := hs rfl c List.mem_cons_self
    have hadd : CsvReader.process ⟨.inField, f, fs⟩ (some c) = .ok ⟨.inField, f ++ [c], fs⟩ := by
      have hfit : f.length < CsvReader.fieldSizeLimit := by
        rw [List.length_cons] at hlen
        omega
      simp [CsvReader.process, hnl, hcr, hcomma, CsvReader.add, hfit]
    rw [feed_cons_of_ne hnl, List.cons_append, readRows_cons hadd,
      ih (fun _ d hd => hs rfl d (List.mem_cons_of_mem c hd)) (by simp at hlen ⊢; omega)]
    simp

/-- The characters of a quoted field, with the quotes doubled. -/
theorem readRows_inQuotedField {s : List Char} (hlen : f.length + s.length ≤ CsvReader.fieldSizeLimit) :
    readRows ⟨.inQuotedField, f, fs⟩ (feed (s.flatMap fun c => if c = '"' then ['"', '"'] else [c]) ++ rest) =
      readRows ⟨.inQuotedField, f ++ s, fs⟩ rest := by
  induction s generalizing f with
  | nil => simp [feed]
  | cons c s ih =>
    have hfit : f.length < CsvReader.fieldSizeLimit := by
      rw [List.length_cons] at hlen
      omega
    have hnext := ih (f := f ++ [c]) (by simp at hlen ⊢; omega)
    rw [List.append_assoc, List.singleton_append] at hnext
    rw [List.flatMap_cons, feed_append, List.append_assoc, ← hnext]
    by_cases hquote : c = '"'
    · subst hquote
      have hfirst : CsvReader.process ⟨.inQuotedField, f, fs⟩ (some '"') = .ok ⟨.quoteInQuotedField, f, fs⟩ := rfl
      have hsecond : CsvReader.process ⟨.quoteInQuotedField, f, fs⟩ (some '"') =
          .ok ⟨.inQuotedField, f ++ ['"'], fs⟩ := by
        simp [CsvReader.process, CsvReader.add, hfit]
      rw [if_pos rfl, feed_cons_of_ne (by decide), feed_cons_of_ne (by decide), List.cons_append, List.cons_append,
        readRows_cons hfirst, readRows_cons hsecond]
      rfl
    · have hadd : CsvReader.process ⟨.inQuotedField, f, fs⟩ (some c) = .ok ⟨.inQuotedField, f ++ [c], fs⟩ := by
        simp [CsvReader.process, hquote, CsvReader.add, hfit]
      rw [if_neg hquote]
      by_cases hnl : c = '\n'
      · subst hnl
        rw [feed_newline, List.cons_append, List.cons_append, readRows_cons hadd, readRows_eol rfl]
        rfl
      · rw [feed_cons_of_ne hnl, List.cons_append, readRows_cons hadd]
        rfl

/-- A well-quoted field leaves the reader where a comma or the end of the line saves it. -/
theorem readRows_field (fs : List String) {q : Bool} {s : List Char} {p : CsvPhase} (hq : WellQuoted q s)
    (hlen : s.length ≤ CsvReader.fieldSizeLimit) (hp : p = .startRecord ∨ p = .startField) :
    ∃ r, (∀ rest, readRows ⟨p, [], fs⟩ (feed (csvField q s) ++ rest) = readRows r rest) ∧
      r.process (some ',') = .ok ⟨.startField, [], fs ++ [String.ofList s]⟩ ∧
      (p = .startField → ∀ c, c = '\n' ∨ c = '\r' →
        r.process (some c) = .ok ⟨.eatCrnl, [], fs ++ [String.ofList s]⟩) := by
  cases q with
  | true =>
    refine ⟨⟨.quoteInQuotedField, s, fs⟩, ?_, rfl, ?_⟩
    · intro rest
      have hopen : CsvReader.process ⟨p, [], fs⟩ (some '"') = .ok ⟨.inQuotedField, [], fs⟩ := by
        rcases hp with rfl | rfl <;> rfl
      have hclose : CsvReader.process ⟨.inQuotedField, s, fs⟩ (some '"') = .ok ⟨.quoteInQuotedField, s, fs⟩ := rfl
      rw [csvField, if_pos rfl, List.cons_append, feed_cons_of_ne (by decide), feed_append, List.cons_append,
        List.append_assoc, readRows_cons hopen, readRows_inQuotedField (by simpa using hlen), List.nil_append,
        feed_cons_of_ne (by decide), List.cons_append, readRows_cons hclose]
      rfl
    · rintro - c (rfl | rfl) <;> rfl
  | false =>
    cases s with
    | nil =>
      refine ⟨⟨p, [], fs⟩, fun rest => rfl, ?_, ?_⟩
      · rcases hp with rfl | rfl <;> rfl
      · rintro rfl c (rfl | rfl) <;> rfl
    | cons c s =>
      refine ⟨⟨.inField, c :: s, fs⟩, ?_, rfl, ?_⟩
      · intro rest
        obtain ⟨hcomma, hquote, hnl, hcr⟩ := hq rfl c List.mem_cons_self
        have hfirst : CsvReader.process ⟨p, [], fs⟩ (some c) = .ok ⟨.inField, [c], fs⟩ := by
          rcases hp with rfl | rfl <;>
            simp [CsvReader.process, CsvReader.processStart, hnl, hcr, hquote, hcomma, CsvReader.add,
              CsvReader.fieldSizeLimit]
        have hrest : WellQuoted false s := fun _ d hd => hq rfl d (List.mem_cons_of_mem c hd)
        rw [csvField, if_neg Bool.false_ne_true, feed_cons_of_ne hnl, List.cons_append, readRows_cons hfirst,
          readRows_inField hrest (by simp at hlen ⊢; omega)]
        rfl
      · rintro - d (rfl | rfl) <;> rfl

/-- The end of a line yields the row. -/
theorem readRows_lineEnd {r : CsvReader} {crlf : Bool}
    (h : ∀ c, c = '\n' ∨ c = '\r' → r.process (some c) = .ok ⟨.eatCrnl, [], fs⟩) :
    readRows r (feed (if crlf then ['\r', '\n'] else ['\n']) ++ rest) =
      (fs :: (readRows .start rest).1, (readRows .start rest).2) := by
  have hnewline : CsvReader.process ⟨.eatCrnl, [], fs⟩ (some '\n') = .ok ⟨.eatCrnl, [], fs⟩ := rfl
  have heol : readRows ⟨.eatCrnl, [], fs⟩ (none :: rest) =
      (fs :: (readRows .start rest).1, (readRows .start rest).2) := by
    simp [readRows, CsvReader.process]
  cases crlf with
  | true =>
    rw [if_pos rfl, feed_cons_of_ne (by decide), feed_newline, List.cons_append, List.cons_append, List.cons_append,
      readRows_cons (h '\r' (.inr rfl)), readRows_cons hnewline]
    exact heol
  | false =>
    rw [if_neg Bool.false_ne_true, feed_newline, List.cons_append, List.cons_append,
      readRows_cons (h '\n' (.inl rfl))]
    exact heol

theorem readRows_fields (fs : List String) {crlf : Bool} {p : CsvPhase} {fields : List (Bool × String)}
    {x : Bool × String}
    (hq : ∀ y ∈ x :: fields, WellQuoted y.1 y.2.toList ∧ y.2.toList.length ≤ CsvReader.fieldSizeLimit)
    (hp : (p = .startRecord ∧ fields ≠ []) ∨ p = .startField) :
    readRows ⟨p, [], fs⟩ (feed (csvRow crlf (x :: fields)) ++ rest) =
      ((fs ++ (x :: fields).map Prod.snd) :: (readRows .start rest).1, (readRows .start rest).2) := by
  induction fields generalizing x p fs with
  | nil =>
    rcases hp with ⟨-, hne⟩ | rfl
    · exact absurd rfl hne
    · obtain ⟨hwell, hlen⟩ := hq x List.mem_cons_self
      obtain ⟨r, hread, -, hend⟩ := readRows_field fs hwell hlen (.inr rfl)
      have hrow : csvRow crlf [x] = csvField x.1 x.2.toList ++ if crlf then ['\r', '\n'] else ['\n'] := by
        simp [csvRow]
      rw [hrow, feed_append, List.append_assoc, hread, readRows_lineEnd (hend rfl)]
      simp
  | cons y fields ih =>
    obtain ⟨hwell, hlen⟩ := hq x List.mem_cons_self
    have hphase : p = .startRecord ∨ p = .startField := hp.imp And.left id
    obtain ⟨r, hread, hcomma, -⟩ := readRows_field fs hwell hlen hphase
    have hrow : csvRow crlf (x :: y :: fields) = csvField x.1 x.2.toList ++ ',' :: csvRow crlf (y :: fields) := by
      simp [csvRow, List.intercalate_cons_cons]
    have hnext := ih (fs ++ [String.ofList x.2.toList]) (fun z hz => hq z (List.mem_cons_of_mem x hz))
      (.inr rfl : (CsvPhase.startField = .startRecord ∧ fields ≠ []) ∨ CsvPhase.startField = .startField)
    rw [hrow, feed_append, List.append_assoc, hread, feed_cons_of_ne (by decide), List.cons_append,
      readRows_cons hcomma, hnext]
    simp

end Reading

/-- Reading a file of well-quoted rows gives the rows back. -/
theorem csvReader_rows (rows : List (Bool × List (Bool × String)))
    (hrows : ∀ row ∈ rows, 2 ≤ row.2.length ∧
      ∀ y ∈ row.2, WellQuoted y.1 y.2.toList ∧ y.2.toList.length ≤ CsvReader.fieldSizeLimit) :
    csvReader (String.ofList (rows.flatMap fun row => csvRow row.1 row.2)) =
      (rows.map fun row => row.2.map Prod.snd, none) := by
  have hfeed : readRows .start (feed (rows.flatMap fun row => csvRow row.1 row.2)) =
      (rows.map fun row => row.2.map Prod.snd, none) := by
    induction rows with
    | nil => rfl
    | cons row rows ih =>
      obtain ⟨hlen, hq⟩ := hrows row List.mem_cons_self
      obtain ⟨crlf, fields⟩ := row
      match fields, hlen with
      | x :: y :: fields, _ =>
        have hrest := ih fun r hr => hrows r (List.mem_cons_of_mem _ hr)
        rw [List.flatMap_cons, feed_append, CsvReader.start, readRows_fields [] hq (.inl ⟨rfl, by simp⟩), hrest]
        simp
  have hlast : (rows.flatMap fun row => csvRow row.1 row.2).getLast? = none ∨
      (rows.flatMap fun row => csvRow row.1 row.2).getLast? = some '\n' := by
    induction rows using List.reverseRecOn with
    | nil => exact .inl rfl
    | append_singleton rows row _ =>
      right
      rw [List.flatMap_append, List.flatMap_singleton, csvRow]
      cases row.1 <;> simp [List.getLast?_append]
  rw [csvReader, csvLines, String.toList_ofList, if_pos hlast, List.append_nil, hfeed]

end PaymentLedger
