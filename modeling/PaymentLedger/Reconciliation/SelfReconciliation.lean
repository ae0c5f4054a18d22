import PaymentLedger.Payments.Requests
import PaymentLedger.Reconciliation.Matching
import PaymentLedger.Reconciliation.SettlementFile

namespace PaymentLedger

theorem Decimal.eq_self (s : Bool) (c : ℕ) (e : ℤ) : Decimal.eq (.finite s c e) (.finite s c e) = .ok true := by
  cases s <;> simp [Decimal.eq, Decimal.isSignaling, Decimal.addExact, Decimal.coeffAt,
    Decimal.ofInt, Decimal.isZero]

/-- The reader of settlement files changes neither the reference nor the currency. -/
def LedgerSettledPayment.Normalised (p : LedgerSettledPayment) : Prop :=
  strip p.externalRef = p.externalRef ∧ upper (strip p.currency) = p.currency

section Lines

variable {repr : String → String} {ledger : List LedgerSettledPayment} {lines : List SettlementLine}
  {records : List SettlementRecord}

theorem line_of_record
    (h : List.Forall₂ (fun line record => ∃ time, record = SettlementLine.record repr line time) lines records)
    {record : SettlementRecord} (hmem : record ∈ records) :
    ∃ line ∈ lines, ∃ time, record = SettlementLine.record repr line time := by
  induction h with
  | nil => cases hmem
  | cons hline _ ih =>
    rcases List.mem_cons.mp hmem with rfl | hmem
    · exact ⟨_, List.mem_cons_self, hline⟩
    · obtain ⟨line, hl, hr⟩ := ih hmem
      exact ⟨line, List.mem_cons_of_mem _ hl, hr⟩

theorem record_refs
    (h : List.Forall₂ (fun line record => ∃ time, record = SettlementLine.record repr line time) lines records) :
    records.map SettlementRecord.externalRef =
      (lines.map SettlementLine.payment).map fun p => strip p.externalRef := by
  induction h with
  | nil => rfl
  | cons hline _ ih =>
    obtain ⟨time, rfl⟩ := hline
    rw [List.map_cons, ih, List.map_cons, List.map_cons]
    rfl

/-- The records of the ledger's own payments all match iff the reader changes none of them. -/
theorem matchRecords_lines (hlines : (lines.map SettlementLine.payment).Perm ledger)
    (hrefs : (ledger.map LedgerSettledPayment.externalRef).Nodup)
    (hrec : List.Forall₂ (fun line record => ∃ time, record = SettlementLine.record repr line time) lines records)
    (hamount : ∀ p ∈ ledger, ∃ s c e, p.amount = .finite s c e) :
    matchRecords repr ledger records = .ok ⟨ledger.length, []⟩ ↔ ∀ p ∈ ledger, p.Normalised := by
  rw [matchRecords, matchRefs_unbroken]
  constructor
  · rintro ⟨-, hall⟩
    -- the record that matched a payment, and the line it was read from
    have matched (p : LedgerSettledPayment) (hp : p ∈ ledger) : ∃ q ∈ ledger,
        strip q.externalRef = p.externalRef ∧ upper (strip q.currency) = p.currency := by
      have href : p.externalRef ∈ sortedRefs (ledger.map LedgerSettledPayment.externalRef)
          (records.map SettlementRecord.externalRef) := mem_sortedRefs.mpr (.inl (List.mem_map_of_mem hp))
      have hverdict := hall p.externalRef href
      rw [lastByRef_of_mem hrefs hp] at hverdict
      obtain ⟨record, hlast, -, hcurrency⟩ := matchRef_none.mp hverdict
      obtain ⟨hmem, hsame⟩ := mem_of_lastByRef hlast
      obtain ⟨line, hline, time, rfl⟩ := line_of_record hrec hmem
      exact ⟨line.payment, hlines.mem_iff.mp (List.mem_map_of_mem hline), hsame, hcurrency.symm⟩
    have stripped (p : LedgerSettledPayment) (hp : p ∈ ledger) : strip p.externalRef = p.externalRef := by
      obtain ⟨q, -, href, -⟩ := matched p hp
      rw [← href, strip_strip]
    intro p hp
    obtain ⟨q, hq, href, hcurrency⟩ := matched p hp
    have hqp : q.externalRef = p.externalRef := (stripped q hq).symm.trans href
    obtain rfl := List.inj_on_of_nodup_map hrefs hq hp hqp
    exact ⟨href, hcurrency⟩
  · intro hnormal
    have hrecords :
        (records.map SettlementRecord.externalRef).Perm (ledger.map LedgerSettledPayment.externalRef) := by
      rw [record_refs hrec]
      have hsame : ledger.map (fun p => strip p.externalRef) = ledger.map LedgerSettledPayment.externalRef :=
        List.map_congr_left fun p hp => (hnormal p hp).1
      rw [← hsame]
      exact hlines.map _
    have hunion (ref : String) (href : ref ∈ sortedRefs (ledger.map LedgerSettledPayment.externalRef)
        (records.map SettlementRecord.externalRef)) : ref ∈ ledger.map LedgerSettledPayment.externalRef := by
      rcases mem_sortedRefs.mp href with href | href
      · exact href
      · exact hrecords.mem_iff.mp href
    refine ⟨?_, ?_⟩
    · have hcount := countP_sortedRefs (a := ledger.map LedgerSettledPayment.externalRef)
        (b := records.map SettlementRecord.externalRef) fun ref href => .inl href
      have hevery :
        (sortedRefs (ledger.map LedgerSettledPayment.externalRef) (records.map SettlementRecord.externalRef)).countP
          (fun ref => ref ∈ ledger.map LedgerSettledPayment.externalRef) = (sortedRefs
            (ledger.map LedgerSettledPayment.externalRef) (records.map SettlementRecord.externalRef)).length :=
        List.countP_eq_length.mpr fun ref href => decide_eq_true (hunion ref href)
      rw [hevery, hrefs.dedup, List.length_map] at hcount
      exact hcount.symm
    · intro ref href
      obtain ⟨p, hp, rfl⟩ := List.mem_map.mp (hunion ref href)
      rw [lastByRef_of_mem hrefs hp]
      obtain ⟨record, hrecord, hsame⟩ := List.mem_map.mp
        (hrecords.mem_iff.mpr (List.mem_map_of_mem hp) : p.externalRef ∈ records.map SettlementRecord.externalRef)
      have hlast : lastByRef SettlementRecord.externalRef records p.externalRef = some record := by
        rw [← hsame]
        exact lastByRef_of_mem (hrecords.nodup_iff.mpr hrefs) hrecord
      obtain ⟨line, hline, time, rfl⟩ := line_of_record hrec hrecord
      have hq : line.payment ∈ ledger := hlines.mem_iff.mp (List.mem_map_of_mem hline)
      have hqp : line.payment.externalRef = p.externalRef := (hnormal _ hq).1.symm.trans hsame
      obtain rfl := List.inj_on_of_nodup_map hrefs hq hp hqp
      obtain ⟨s, c, e, hfinite⟩ := hamount _ hq
      refine matchRef_none.mpr ⟨_, hlast, ?_, (hnormal _ hq).2.symm⟩
      show Decimal.eq line.payment.amount line.payment.amount = .ok true
      rw [hfinite]
      exact Decimal.eq_self s c e

end Lines

section System

variable {ι : Type} [DecidableEq ι] {rt : Runtime} {step : Feed → Feed → Prop} {st₀ : Store}
  {calls : ι → Call} {σ : Config postgres ι Value}

theorem Store.mem_settledIn {st : Store} {windowStart windowEnd : ℕ} {p : LedgerSettledPayment}
    (h : p ∈ st.settledIn windowStart windowEnd) :
    ∃ id row, st.payments.find id = some row ∧ p.amount = row.amount.toDecimal ∧ p.currency = row.currency ∧
      (row.endToEndId = some p.externalRef ∨ p.externalRef = row.id.str) := by
  obtain ⟨x, -, hp⟩ := List.mem_flatMap.mp h
  obtain ⟨row, hrow, rfl⟩ := List.mem_map.mp hp
  refine ⟨x.paymentId, row, Option.mem_toList.mp hrow, rfl, rfl, ?_⟩
  cases href : row.endToEndId with
  | none => exact .inr rfl
  | some ref =>
    by_cases hempty : ref = ""
    · exact .inr (if_pos hempty)
    · exact .inl (congrArg some (if_neg hempty).symm)

/-- The settled payments of a window, written to a settlement file and read back, all match iff there is
one and the reader leaves every reference and currency as it is. -/
theorem self_reconciliation (h₀ : Fresh st₀) (h : Reachable rt step st₀ calls σ) {windowStart windowEnd : ℕ}
    {ledger : List LedgerSettledPayment} (hledger : ledger.Perm (σ.world.store.settledIn windowStart windowEnd))
    (hrefs : (ledger.map LedgerSettledPayment.externalRef).Nodup) (fromisoformat : String → Except String ℕ)
    (crlf : Bool) {lines : List SettlementLine} (hlines : (lines.map SettlementLine.payment).Perm ledger)
    (hw : ∀ line ∈ lines, line.WellWritten)
    (htime : ∀ line ∈ lines, ∃ time, fromisoformat (strip line.settledAt) = .ok time) :
    (∃ records, parseSettlementCsv fromisoformat rt.repr (settlementFile crlf lines) = .ok records ∧
      matchRecords rt.repr ledger records = .ok ⟨ledger.length, []⟩) ↔
    ledger ≠ [] ∧ ∀ p ∈ ledger, p.Normalised := by
  obtain ⟨clock, hr⟩ := h
  have hwf := reaches_wellFormed hr
  have hcents (p : LedgerSettledPayment) (hp : p ∈ ledger) : ∃ n < 10 ^ 18, p.amount = .finite false n (-2) := by
    obtain ⟨id, row, hrow, hamount, -⟩ := Store.mem_settledIn (hledger.mem_iff.mp hp)
    obtain ⟨c, hc, req, hreq, hrequested⟩ := (hwf.requests h₀).origin id row hrow
    obtain ⟨n, -, hn, hrow⟩ := hrequested.cents (hwf.valid_request hc hreq)
    exact ⟨n, hn, hamount.trans hrow⟩
  have hmatch {records : List SettlementRecord} (hrec : List.Forall₂
      (fun line record => ∃ time, record = SettlementLine.record rt.repr line time) lines records) :
      matchRecords rt.repr ledger records = .ok ⟨ledger.length, []⟩ ↔ ∀ p ∈ ledger, p.Normalised := by
    apply matchRecords_lines hlines hrefs hrec
    intro p hp
    obtain ⟨n, -, hn⟩ := hcents p hp
    exact ⟨_, _, _, hn⟩
  have hempty : lines = [] ↔ ledger = [] := by
    rw [← List.length_eq_zero_iff, ← List.length_eq_zero_iff, ← hlines.length_eq, List.length_map]
  have hparse := parseSettlementCsv_settlementFile rt.repr crlf hw
    (fun line hline => hcents _ (hlines.mem_iff.mp (List.mem_map_of_mem hline))) htime
  rcases hparse with ⟨hnil, e, he⟩ | ⟨records, hne, hok, hrec⟩
  · constructor
    · rintro ⟨records, hok, -⟩
      rw [he] at hok
      cases hok
    · rintro ⟨hledger, -⟩
      exact absurd (hempty.mp hnil) hledger
  · rw [hok]
    constructor
    · rintro ⟨records', hsame, hm⟩
      obtain rfl := Except.ok.inj hsame
      exact ⟨fun hnil => hne (hempty.mpr hnil), (hmatch hrec).mp hm⟩
    · rintro ⟨-, hnormal⟩
      exact ⟨records, rfl, (hmatch hrec).mpr hnormal⟩

end System

section Samples

def everyTimestamp : String → Except String ℕ := fun _ => .ok 0

/-- The row of a payment, without quotes. -/
def plainLine (p : LedgerSettledPayment) : SettlementLine :=
  ⟨p, "2026-01-01T00:00:00+00:00", (false, false, false, false), false⟩

instance (line : SettlementLine) : Decidable line.WellWritten := by
  unfold SettlementLine.WellWritten WellQuoted
  infer_instance

theorem self_reconciliation_settled : ∃ p records, sampleEnd.world.store.settledIn 0 1 = [p] ∧
    parseSettlementCsv everyTimestamp sampleRuntime.repr (settlementFile true [plainLine p]) = .ok records ∧
    matchRecords sampleRuntime.repr [p] records = .ok ⟨1, []⟩ := by
  obtain ⟨p, hp⟩ := List.length_eq_one_iff.mp
    (by decide +kernel : (sampleEnd.world.store.settledIn 0 1).length = 1)
  have hall : ∀ p ∈ sampleEnd.world.store.settledIn 0 1, (plainLine p).WellWritten ∧
      strip p.externalRef = p.externalRef ∧ upper (strip p.currency) = p.currency := by decide +kernel
  rw [hp] at hall
  obtain ⟨hw, hnormal⟩ := hall p (by simp)
  have hledger : [p].Perm (sampleEnd.world.store.settledIn 0 1) := by rw [hp]
  have hlines : ([plainLine p].map SettlementLine.payment).Perm [p] := .refl _
  obtain ⟨records, hparse, hmatch⟩ := (self_reconciliation sampleStore_fresh (sampleEnd_reachable fun _ _ => False)
    hledger (by simp) everyTimestamp true hlines (by simpa using hw) (by simp [everyTimestamp])).mpr
    ⟨by simp, List.forall_mem_singleton.mpr hnormal⟩
  exact ⟨p, records, hp, hparse, hmatch⟩

/-- The sample payment, with a reference that begins with a space. -/
def paddedCalls : Fin 3 → Call
  | 0 => .initiatePayment ⟨1, 2, cents 1000, "EUR", some " REF"⟩
  | i => sampleCalls i

def paddedEnd : Config postgres (Fin 3) Value :=
  ((System sampleRuntime sampleStore 0 paddedCalls).run sampleSchedule).get (by decide +kernel)

theorem paddedReference_breaks : Fresh sampleStore ∧
    Reachable sampleRuntime (fun _ _ => False) sampleStore paddedCalls paddedEnd ∧
    ∃ p, paddedEnd.world.store.settledIn 0 1 = [p] ∧ p.externalRef = " REF" ∧ (plainLine p).WellWritten ∧
      ∃ records r, parseSettlementCsv everyTimestamp sampleRuntime.repr (settlementFile true [plainLine p]) =
        .ok records ∧
        matchRecords sampleRuntime.repr [p] records = .ok r ∧ r.matchedCount = 0 ∧ r.breakCount = 2 := by
  refine ⟨sampleStore_fresh, reachable_of_run (Option.some_get _).symm, ⟨10, " REF", cents 1000, "EUR"⟩,
    ?_, rfl, ?_, ?_⟩
  · decide +kernel
  · decide +kernel
  · refine ⟨[⟨"REF", cents 1000, "EUR", 0,
      "external_ref= REF,amount=10.00,currency=EUR,settled_at=2026-01-01T00:00:00+00:00"⟩], _, ?_, rfl, ?_, ?_⟩
    · decide +kernel
    · decide +kernel
    · decide +kernel

end Samples
end PaymentLedger
