import PaymentLedger.Domain.Webhooks
import PaymentLedger.Reconciliation.Uploads
import Mathlib.Data.String.Basic

namespace PaymentLedger

section Differences

variable {repr : String → String} {ledger : List LedgerSettledPayment} {settlement : List SettlementRecord}
  {refs : List String} {r : ReconciliationResult}

/-- The two sides hold the same under a reference: nothing, or items that agree. -/
def AgreeAt (ledger : List LedgerSettledPayment) (settlement : List SettlementRecord) (ref : String) : Prop :=
  Option.Rel Agree (lastByRef LedgerSettledPayment.externalRef ledger ref)
    (lastByRef SettlementRecord.externalRef settlement ref)

/-- A break shows what the two sides hold, and its type says which of them holds nothing. -/
structure ReconciliationBreak.Tells (b : ReconciliationBreak) (p : Option LedgerSettledPayment)
    (s : Option SettlementRecord) : Prop where
  paymentId : b.paymentId = p.map LedgerSettledPayment.paymentId
  ledgerAmount : b.ledgerAmount = p.map LedgerSettledPayment.amount
  settlementAmount : b.settlementAmount = s.map SettlementRecord.amount
  missingInSettlement : b.breakType = .missingInSettlement ↔ p.isSome = true ∧ s = none
  missingInLedger : b.breakType = .missingInLedger ↔ p = none ∧ s.isSome = true
  amountMismatch : b.breakType = .amountMismatch ↔ p.isSome = true ∧ s.isSome = true

/-- A result reports the references at which the two sides differ, each once and in order, and counts those at which
they agree. -/
structure Differences (ledger : List LedgerSettledPayment) (settlement : List SettlementRecord)
    (r : ReconciliationResult) : Prop where
  sorted : r.breaks.Pairwise fun b b' => b.externalRef < b'.externalRef
  differ : ∀ ref, (∃ b ∈ r.breaks, b.externalRef = ref) ↔ ¬AgreeAt ledger settlement ref
  tells : ∀ b ∈ r.breaks, b.Tells (lastByRef LedgerSettledPayment.externalRef ledger b.externalRef)
    (lastByRef SettlementRecord.externalRef settlement b.externalRef)
  matched : r.matchedCount = {ref | AgreeAt ledger settlement ref ∧
    (lastByRef LedgerSettledPayment.externalRef ledger ref).isSome = true}.ncard

/-- There is no verdict on sides that agree. -/
theorem matchRef_agree {ref : String} {p : Option LedgerSettledPayment} {s : Option SettlementRecord}
    (hp : ∀ x ∈ p, x.externalRef = ref) (hs : ∀ y ∈ s, y.externalRef = ref) :
    matchRef repr ref p s = .ok none ↔ Option.Rel Agree p s := by
  cases p with
  | none => cases s <;> simp [matchRef]
  | some x =>
    rw [matchRef_none]
    constructor
    · rintro ⟨y, rfl, hamount, hcurrency⟩
      exact .some ⟨(hp x rfl).trans (hs y rfl).symm, hamount, hcurrency⟩
    · intro h
      cases h with
      | some h => exact ⟨_, rfl, h.amount, h.currency⟩

theorem matchRef_agreeAt (repr : String → String) {ref : String} :
    matchRef repr ref (lastByRef LedgerSettledPayment.externalRef ledger ref)
      (lastByRef SettlementRecord.externalRef settlement ref) = .ok none ↔ AgreeAt ledger settlement ref :=
  matchRef_agree (fun _ hx => (mem_of_lastByRef hx).2) fun _ hy => (mem_of_lastByRef hy).2

theorem matchRef_tells {ref : String} {p : Option LedgerSettledPayment} {s : Option SettlementRecord}
    {b : ReconciliationBreak} (h : matchRef repr ref p s = .ok (some b))
    (hsome : p.isSome = true ∨ s.isSome = true) :
    b.Tells p s := by
  obtain ⟨hledger, hsettlement, hpayment⟩ := matchRef_amounts h
  rcases matchRef_ok h hsome with ⟨x, rfl, rfl, hb⟩ | ⟨y, rfl, rfl, hb⟩ | ⟨x, y, rfl, rfl, hb | ⟨hb, -⟩⟩
  · have htype : b.breakType = .missingInSettlement := Option.some.inj hb
    exact ⟨hpayment, hledger, hsettlement, by simp [htype], by simp [htype], by simp [htype]⟩
  · have htype : b.breakType = .missingInLedger := Option.some.inj hb
    exact ⟨hpayment, hledger, hsettlement, by simp [htype], by simp [htype], by simp [htype]⟩
  · have htype : b.breakType = .amountMismatch := Option.some.inj hb
    exact ⟨hpayment, hledger, hsettlement, by simp [htype], by simp [htype], by simp [htype]⟩
  · cases hb

theorem matchRefs_sublist (h : matchRefs repr ledger settlement refs = .ok r) :
    (r.breaks.map ReconciliationBreak.externalRef).Sublist refs := by
  induction refs generalizing r with
  | nil =>
    cases h
    exact .slnil
  | cons ref refs ih =>
    obtain ⟨verdict, rest, hverdict, hrest, rfl⟩ := matchRefs_cons.mp h
    cases verdict with
    | none => exact (ih hrest).cons ref
    | some b =>
      rw [List.map_cons, matchRef_ref hverdict]
      exact (ih hrest).cons_cons ref

open Classical in
theorem matchRefs_matched (h : matchRefs repr ledger settlement refs = .ok r) :
    r.matchedCount = (refs.filter fun ref => AgreeAt ledger settlement ref).length := by
  induction refs generalizing r with
  | nil =>
    cases h
    rfl
  | cons ref refs ih =>
    obtain ⟨verdict, rest, hverdict, hrest, rfl⟩ := matchRefs_cons.mp h
    have hagree : verdict = none ↔ AgreeAt ledger settlement ref := by
      rw [← matchRef_agreeAt repr, hverdict, Except.ok.injEq]
    cases verdict with
    | none =>
      rw [List.filter_cons_of_pos (by simpa using hagree.mp rfl), List.length_cons, ← ih hrest]
    | some b =>
      rw [List.filter_cons_of_neg (by simpa using hagree), ← ih hrest]

theorem mem_refs {ref : String} : ref ∈ sortedRefs (ledger.map LedgerSettledPayment.externalRef)
      (settlement.map SettlementRecord.externalRef) ↔
    (lastByRef LedgerSettledPayment.externalRef ledger ref).isSome = true ∨
      (lastByRef SettlementRecord.externalRef settlement ref).isSome = true := by
  rw [mem_sortedRefs, lastByRef_isSome, lastByRef_isSome]

/-- The matcher reports the differences of the two sides. -/
theorem matchRecords_differences (h : matchRecords repr ledger settlement = .ok r) :
    Differences ledger settlement r := by
  have hsub := matchRefs_sublist h
  have hordered : (sortedRefs (ledger.map LedgerSettledPayment.externalRef)
      (settlement.map SettlementRecord.externalRef)).Pairwise (· < ·) :=
    ((List.pairwise_insertionSort (· ≤ ·) _).and nodup_sortedRefs).imp fun hle => lt_of_le_of_ne hle.1 hle.2
  refine ⟨List.pairwise_map.mp (hordered.sublist hsub), ?_, ?_, ?_⟩
  · intro ref
    by_cases href : ref ∈ sortedRefs (ledger.map LedgerSettledPayment.externalRef)
        (settlement.map SettlementRecord.externalRef)
    · rw [← matchRef_agreeAt repr, matchRefs_find h nodup_sortedRefs href, Except.ok.injEq,
        List.find?_eq_none]
      simp
    · have hnone := mem_refs.not.mp href
      rw [not_or, Option.not_isSome_iff_eq_none, Option.not_isSome_iff_eq_none] at hnone
      have hagree : AgreeAt ledger settlement ref := by
        rw [AgreeAt, hnone.1, hnone.2]
        exact .none
      refine iff_of_false ?_ (not_not.mpr hagree)
      rintro ⟨b, hb, rfl⟩
      exact href (matchRefs_break h hb).1
  · intro b hb
    obtain ⟨href, hverdict⟩ := matchRefs_break h hb
    exact matchRef_tells hverdict (mem_refs.mp href)
  · classical
    rw [matchRefs_matched h, ← List.toFinset_card_of_nodup (nodup_sortedRefs.filter _), ← Set.ncard_coe_finset]
    congr 1
    ext ref
    simp only [List.coe_toFinset, List.mem_filter, Set.mem_ofPred_eq, decide_eq_true_eq, mem_refs]
    constructor
    · rintro ⟨hsome, hagree⟩
      refine ⟨hagree, hsome.elim id fun hs => ?_⟩
      obtain ⟨y, hy⟩ := Option.isSome_iff_exists.mp hs
      unfold AgreeAt at hagree
      rw [hy] at hagree
      cases hagree' : lastByRef LedgerSettledPayment.externalRef ledger ref with
      | none =>
        rw [hagree'] at hagree
        cases hagree
      | some x => rfl
    · rintro ⟨hagree, hsome⟩
      exact ⟨.inl hsome, hagree⟩

theorem Differences.unbroken (h : Differences ledger settlement r) : r.breaks = [] ↔
    ∀ ref, AgreeAt ledger settlement ref := by
  constructor
  · intro hnil ref
    by_contra hno
    obtain ⟨b, hb, -⟩ := (h.differ ref).mpr hno
    rw [hnil] at hb
    cases hb
  · intro hall
    apply List.eq_nil_iff_forall_not_mem.mpr
    intro b hb
    exact (h.differ b.externalRef).mp ⟨b, hb, rfl⟩ (hall b.externalRef)

/-- Where no reference occurs twice on a side, the sides agree everywhere iff the records are those of the payments,
in some order. -/
theorem agreeAt_iff_perm (hln : (ledger.map LedgerSettledPayment.externalRef).Nodup)
    (hsn : (settlement.map SettlementRecord.externalRef).Nodup) :
    (∀ ref, AgreeAt ledger settlement ref) ↔ ∃ settlement', settlement.Perm settlement' ∧
    List.Forall₂ Agree ledger settlement' := by
  constructor
  · intro hall
    have hpartner : ∀ p ∈ ledger, ∃ s, s ∈ settlement ∧ Agree p s := by
      intro p hp
      have hagree := hall p.externalRef
      rw [AgreeAt, lastByRef_of_mem hln hp] at hagree
      cases hs : lastByRef SettlementRecord.externalRef settlement p.externalRef with
      | none =>
        rw [hs] at hagree
        cases hagree
      | some s =>
        rw [hs] at hagree
        cases hagree with
        | some hagree => exact ⟨s, (mem_of_lastByRef hs).1, hagree⟩
    obtain ⟨settlement', hpaired⟩ := forall₂_exists hpartner
    have hagrees : List.Forall₂ Agree ledger settlement' := hpaired.imp fun _ _ h => h.2
    have hrefs : ledger.map LedgerSettledPayment.externalRef = settlement'.map SettlementRecord.externalRef := by
      rw [← List.forall₂_eq_eq_eq, List.forall₂_map_left_iff, List.forall₂_map_right_iff]
      exact hagrees.imp fun _ _ h => h.ref
    refine ⟨settlement', (List.perm_ext_iff_of_nodup hsn.of_map (hrefs ▸ hln).of_map).mpr fun s => ⟨?_, ?_⟩,
      hagrees⟩
    · intro hs
      have hagree := hall s.externalRef
      rw [AgreeAt, lastByRef_of_mem hsn hs] at hagree
      cases hp : lastByRef LedgerSettledPayment.externalRef ledger s.externalRef with
      | none =>
        rw [hp] at hagree
        cases hagree
      | some p =>
        obtain ⟨hmem, href⟩ := mem_of_lastByRef hp
        have hsome : ∃ s' ∈ settlement', s' ∈ settlement ∧ Agree p s' := forall₂_mem_right hpaired.flip hmem
        obtain ⟨s', hs', hmem', hagree'⟩ := hsome
        rwa [List.inj_on_of_nodup_map hsn hs hmem' (href.symm.trans hagree'.ref)]
    · intro hs
      obtain ⟨p, -, hmem, -⟩ := forall₂_mem_right hpaired hs
      exact hmem
  · rintro ⟨settlement', hperm, hagrees⟩ ref
    unfold AgreeAt
    cases hp : lastByRef LedgerSettledPayment.externalRef ledger ref with
    | some p =>
      obtain ⟨hmem, rfl⟩ := mem_of_lastByRef hp
      obtain ⟨s, hs, hagree⟩ := forall₂_mem_right hagrees.flip hmem
      rw [hagree.ref, lastByRef_of_mem hsn (hperm.mem_iff.mpr hs)]
      exact .some hagree
    | none =>
      cases hs : lastByRef SettlementRecord.externalRef settlement ref with
      | none => exact .none
      | some s =>
        obtain ⟨hmem, rfl⟩ := mem_of_lastByRef hs
        obtain ⟨p, hpm, hagree⟩ := forall₂_mem_right hagrees (hperm.mem_iff.mp hmem)
        rw [← hagree.ref, lastByRef_of_mem hln hpm] at hp
        cases hp

end Differences

section Job

def BreakType.value : BreakType → String
  | .missingInSettlement => "missing_in_settlement"
  | .missingInLedger => "missing_in_ledger"
  | .amountMismatch => "amount_mismatch"

/-- The years of a `datetime` are 1 to 9999; clocks count microseconds from 1970. -/
def datetimeMin : ℤ := -62135596800000000

def datetimeMax : ℤ := 253402300799999999

/-- `window_end - timedelta(hours=window_hours)`. A `timedelta` has less than a billion days, and there is no result
where one of the two operations raises `OverflowError`. -/
def reconciliationWindowStart (windowEnd : ℕ) (windowHours : ℤ) : Option ℤ :=
  let start := windowEnd - windowHours * timedelta 3600
  if -1000000000 < windowHours / 24 ∧ windowHours / 24 < 1000000000 ∧ datetimeMin ≤ start ∧ start ≤ datetimeMax then
    some start
  else none

/-- The exceptions that end the job. -/
inductive ReconciliationJobFailure where
  | csv (failure : SettlementCsvFailure)
  | overflow
  | call (error : AppError)

/-- `_run` of the reconciliation job up to its call, for the text that it has read, the time, and the batch id that
it has drawn. -/
def reconciliationJob (fromisoformat : String → Except String ℕ) (rt : Runtime) (content : String) (windowHours : ℤ)
    (windowEnd : ℕ) (batchId : Uuid) : Except ReconciliationJobFailure Call := do
  let records ← (parseSettlementCsv fromisoformat rt.repr content).mapError .csv
  match reconciliationWindowStart windowEnd windowHours with
  | none => .error .overflow
  | some windowStart => .ok (.runReconciliation batchId records windowStart.toNat windowEnd)

/-- The lines that the job prints and its exit code; an exception ends the process with 1. -/
def reconciliationJobExit (windowHours : ℤ) : Except ReconciliationJobFailure Value → List String × ℕ
  | .ok (.run runId result) =>
    (("Reconciliation run " ++ runId.str ++ ": " ++ toString result.matchedCount ++ " matched, " ++
        toString result.breakCount ++ " break(s) (window: last " ++ toString windowHours ++ "h)") ::
      result.breaks.map (fun b => "  [" ++ b.breakType.value ++ "] " ++ b.externalRef ++ ": " ++ b.details),
      if result.breaks.isEmpty then 0 else 1)
  | _ => ([], 1)

theorem reconciliationWindowStart_some {windowEnd : ℕ} {windowHours start : ℤ}
    (h : reconciliationWindowStart windowEnd windowHours = some start) :
    start = windowEnd - windowHours * timedelta 3600 := by
  unfold reconciliationWindowStart at h
  dsimp only at h
  split at h
  · exact (Option.some.inj h).symm
  · cases h

theorem reconciliationJob_ok {fromisoformat : String → Except String ℕ} {rt : Runtime} {content : String}
    {windowHours : ℤ} {windowEnd : ℕ} {batchId : Uuid} {call : Call}
    (h : reconciliationJob fromisoformat rt content windowHours windowEnd batchId = .ok call) :
    ∃ records, parseSettlementCsv fromisoformat rt.repr content = .ok records ∧
      .runReconciliation batchId records (windowEnd - windowHours * timedelta 3600).toNat windowEnd = call := by
  obtain ⟨records, hparse, hcall⟩ := except_bind_ok.mp h
  refine ⟨records, mapError_ok.mp hparse, ?_⟩
  cases hw : reconciliationWindowStart windowEnd windowHours with
  | none =>
    rw [hw] at hcall
    cases hcall
  | some start =>
    rw [hw] at hcall
    rw [← reconciliationWindowStart_some hw]
    exact Except.ok.inj hcall

variable {ι : Type} [DecidableEq ι] {rt : Runtime} {step : Feed → Feed → Prop} {st₀ : Store}
  {calls : ι → Call} {σ : Config postgres ι Value}

/-- What a run that has returned reports are the differences between the file and the payments settled in its
window, as some committed store had them. -/
theorem WellFormed.reports (h : WellFormed (feedEnv step) st₀ (fun i => (calls i).prog rt) σ)
    {i : ι} {batchId : Uuid}
    {records : List SettlementRecord} {windowStart windowEnd : ℕ}
    (hcall : calls i = .runReconciliation batchId records windowStart windowEnd) {v : Value}
    (hv : (σ.session i).result = some (.ok v)) :
    ∃ runId result log st settled, v = .run runId result ∧ log <+: σ.world.log ∧ History (feedEnv step) st₀ log st ∧
      settled.Perm (st.settledIn windowStart windowEnd) ∧ Differences settled records result := by
  have hidem : (calls i).idempotent = false := by
    rw [hcall]
    rfl
  obtain ⟨tx, hown, hcommits⟩ := h.returned_commits hidem (result_ok.mp hv)
  obtain ⟨c, hc, -, rfl⟩ := mem_of_ownOf (by rw [hown]; exact List.mem_singleton_self _ : tx ∈ ownOf i σ.world.log)
  rw [hcall] at hcommits
  obtain ⟨report, rfl, hpath⟩ := hcommits
  obtain ⟨l, l', hl⟩ := List.append_of_mem hc
  obtain ⟨e, -, settled, st, -, -, hresult, -, hpast, hperm⟩ :=
    h.settled_seen hl (path_runReconciliationBlock hpath)
  have hprefix : l.take e.seen <+: σ.world.log := by
    rw [hl]
    exact (List.take_prefix _ _).trans (List.prefix_append _ _)
  exact ⟨report.1, report.2, l.take e.seen, st, settled, rfl, hprefix, hpast, hperm,
    matchRecords_differences hresult⟩

/-- The job prints and counts the differences between the file and the payments settled in its window, and exits
with 0 iff there are none. -/
theorem reconciliation_job_differences (h : Reachable rt step st₀ calls σ)
    {fromisoformat : String → Except String ℕ}
    {content : String} {windowHours : ℤ} {windowEnd : ℕ} {batchId : Uuid} {i : ι}
    (hcall : reconciliationJob fromisoformat rt content windowHours windowEnd batchId = .ok (calls i))
    {r : Except AppError Value} (hr : (σ.session i).result = some r) :
    ((∃ e, r = .error e) ∧ (reconciliationJobExit windowHours (r.mapError .call)).2 = 1) ∨
    ∃ records runId result log st settled, parseSettlementCsv fromisoformat rt.repr content = .ok records ∧
      r = .ok (.run runId result) ∧ log <+: σ.world.log ∧ History (feedEnv step) st₀ log st ∧
      settled.Perm (st.settledIn (windowEnd - windowHours * timedelta 3600).toNat windowEnd) ∧
      Differences settled records result ∧
      ((reconciliationJobExit windowHours (r.mapError .call)).2 = 0 ↔ ∀ ref, AgreeAt settled records ref) ∧
      ((settled.map LedgerSettledPayment.externalRef).Nodup → (records.map SettlementRecord.externalRef).Nodup →
        ((reconciliationJobExit windowHours (r.mapError .call)).2 = 0 ↔
          ∃ records', records.Perm records' ∧ List.Forall₂ Agree settled records')) := by
  cases r with
  | error e => exact .inl ⟨⟨e, rfl⟩, rfl⟩
  | ok v =>
    right
    obtain ⟨records, hparse, hcalls⟩ := reconciliationJob_ok hcall
    obtain ⟨clock, hreach⟩ := h
    obtain ⟨runId, result, log, st, settled, rfl, hlog, hst, hperm, hdiff⟩ :=
      (reaches_wellFormed hreach).reports hcalls.symm hr
    have hexit : (reconciliationJobExit windowHours (.ok (.run runId result))).2 = 0 ↔
        ∀ ref, AgreeAt settled records ref := by
      rw [← hdiff.unbroken, reconciliationJobExit]
      cases result.breaks <;> simp
    refine ⟨records, runId, result, log, st, settled, hparse, rfl, hlog, hst, hperm, hdiff, hexit, ?_⟩
    intro hln hsn
    exact hexit.trans (agreeAt_iff_perm hln hsn)

/-- Two payments of ten euros have been settled. -/
def closingStore : Store := { sampleStore with
  payments := ⟨[⟨10, 1, 2, tenEuros, "EUR", none, none, .settled, some "A", 3⟩,
    ⟨11, 1, 2, tenEuros, "EUR", none, none, .settled, some "B", 3⟩], by decide⟩
  statusHistory := [⟨10, some .authorised, .settled, 0, none⟩, ⟨11, some .authorised, .settled, 0, none⟩] }

/-- The file has a cent too much for the second. -/
def closingLines : List SettlementLine :=
  [plainLine ⟨0, "A", cents 1000, "EUR"⟩, plainLine ⟨0, "B", cents 1001, "EUR"⟩]

def closingRecords : List SettlementRecord := closingLines.map fun line => line.record sampleRuntime.repr 0

def closingCalls : Fin 1 → Call := fun _ => .runReconciliation 50 closingRecords 0 1

def closingEnd : Option (Config postgres (Fin 1) Value) :=
  (System sampleRuntime closingStore 0 closingCalls).run
    (List.replicate 7 (0, { id := 60, settled := closingStore.settledIn 0 1 }))

def closingBreak : ReconciliationBreak where
  breakType := .amountMismatch
  externalRef := "B"
  paymentId := some 11
  ledgerAmount := some (cents 1000)
  settlementAmount := some (cents 1001)
  details := "ledger shows 10.00 EUR, settlement file shows 10.01 EUR"

/-- The job finds the one match and the one mismatch. -/
theorem reconciliation_job_closing : ∃ σ, closingEnd = some σ ∧
    reconciliationJobExit 24 (.ok (.run 60 ⟨1, [closingBreak]⟩)) =
      (["Reconciliation run 00000000-0000-0000-0000-00000000003c: 1 matched, 1 break(s) (window: last 24h)",
        "  [amount_mismatch] B: ledger shows 10.00 EUR, settlement file shows 10.01 EUR"], 1) ∧
    ∃ log st settled, log <+: σ.world.log ∧ History (feedEnv fun _ _ => True) closingStore log st ∧
      settled.Perm (st.settledIn 0 1) ∧ Differences settled closingRecords ⟨1, [closingBreak]⟩ := by
  have hparse : parseSettlementCsv everyTimestamp sampleRuntime.repr (settlementFile false closingLines) =
      .ok closingRecords := by decide +kernel
  have hend : (closingEnd.bind fun σ => (σ.session 0).result) = some (.ok (.run 60 ⟨1, [closingBreak]⟩)) := by
    decide +kernel
  obtain ⟨σ, hσ, hresult⟩ := Option.bind_eq_some_iff.mp hend
  have hcall : reconciliationJob everyTimestamp sampleRuntime (settlementFile false closingLines) 24 1 50 =
      .ok (closingCalls 0) := by
    rw [reconciliationJob, hparse]
    rfl
  refine ⟨σ, hσ, by decide +kernel, ?_⟩
  have hreach : Reachable sampleRuntime (fun _ _ => True) closingStore closingCalls σ := reachable_of_run hσ
  rcases reconciliation_job_differences hreach hcall hresult with
    ⟨⟨e, he⟩, -⟩ | ⟨records, runId, result, log, st, settled, hread, hv, hlog, hst, hperm, hdiff, -⟩
  · cases he
  · obtain rfl := Except.ok.inj (hparse.symm.trans hread)
    cases hv
    exact ⟨log, st, settled, hlog, hst, hperm, hdiff⟩

end Job
end PaymentLedger
