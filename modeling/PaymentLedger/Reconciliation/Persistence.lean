import PaymentLedger.Api.Reconciliation
import PaymentLedger.Payments.Amounts
import PaymentLedger.Reconciliation.RowOrder
import PaymentLedger.Reconciliation.Rows
import PaymentLedger.Reconciliation.SelfReconciliation

namespace PaymentLedger

section Values

/-- Equal decimals stand for the same number. -/
theorem Decimal.toRat_eq {s : Bool} {c : ℕ} {e : ℤ} {y : Decimal} (h : Decimal.eq (.finite s c e) y = .ok true) :
    y.IsFinite ∧ y.toRat = (Decimal.finite s c e).toRat := by
  cases y with
  | nan t => cases t <;> cases h
  | infinity t => cases h
  | finite t d f =>
    refine ⟨trivial, ?_⟩
    have hzero : (Decimal.addExact s c e (!t) d f).isZero = true := Except.ok.inj h
    have hsum := Decimal.addExact_toRat s c e (!t) d f
    have hnone : (Decimal.addExact s c e (!t) d f).toRat = 0 := by
      rw [Decimal.addExact, Decimal.ofInt] at hzero ⊢
      rw [Decimal.isZero, decide_eq_true_eq] at hzero
      rw [hzero, Decimal.toRat_zero]
    have hneg : (Decimal.finite (!t) d f).toRat = -(Decimal.finite t d f).toRat := by
      cases t <;> simp [Decimal.toRat]
    rw [hnone, hneg] at hsum
    linarith

/-- What a column of cents holds is whole cents. -/
theorem Numeric.wholeCents (n : Numeric 2) : n.toDecimal.WholeCents := by
  cases n with
  | nan => exact ⟨0, by simp [Numeric.toDecimal, Decimal.toRat]⟩
  | num z lt =>
    refine ⟨z, ?_⟩
    rw [Numeric.toDecimal_toRat]
    norm_num
    ring

/-- The column keeps the finite amounts that are whole cents. -/
theorem Numeric.kept_iff {d : Decimal} {n : Numeric 2} (h : Numeric.ofDecimal 2 d = .ok n) (hf : d.IsFinite) :
    n.toDecimal.IsFinite ∧ (n.toDecimal.toRat = d.toRat ↔ d.WholeCents) := by
  have hnum : ∃ z lt, n = .num z lt := by
    cases d with
    | finite s c e =>
      rw [Numeric.ofDecimal] at h
      split at h
      · cases h
        exact ⟨_, _, rfl⟩
      · cases h
    | infinity s => cases hf
    | nan s => cases hf
  obtain ⟨z, lt, rfl⟩ := hnum
  refine ⟨trivial, ?_⟩
  constructor
  · intro hsame
    obtain ⟨w, hw⟩ := Numeric.wholeCents (.num z lt)
    exact ⟨w, hsame.symm.trans hw⟩
  · rintro ⟨w, hw⟩
    obtain ⟨-, hunits⟩ := Numeric.units_of_cents h hf hw
    have hz : z = w := hunits
    rw [Numeric.toDecimal_toRat, hw, hz]
    norm_num
    ring

end Values

section Breaks

variable {repr : String → String} {ledger : List LedgerSettledPayment} {settlement : List SettlementRecord}
  {refs : List String} {r : ReconciliationResult} {b : ReconciliationBreak}

/-- A break is the verdict on its reference. -/
theorem matchRefs_break (h : matchRefs repr ledger settlement refs = .ok r) (hb : b ∈ r.breaks) :
    b.externalRef ∈ refs ∧
    matchRef repr b.externalRef (lastByRef LedgerSettledPayment.externalRef ledger b.externalRef)
      (lastByRef SettlementRecord.externalRef settlement b.externalRef) = .ok (some b) := by
  induction refs generalizing r with
  | nil =>
    cases h
    cases hb
  | cons ref refs ih =>
    obtain ⟨verdict, rest, hverdict, hrest, rfl⟩ := matchRefs_cons.mp h
    cases verdict with
    | none =>
      obtain ⟨hmem, hv⟩ := ih hrest hb
      exact ⟨List.mem_cons_of_mem _ hmem, hv⟩
    | some b' =>
      rcases List.mem_cons.mp hb with rfl | hb
      · rw [matchRef_ref hverdict]
        exact ⟨List.mem_cons_self, hverdict⟩
      · obtain ⟨hmem, hv⟩ := ih hrest hb
        exact ⟨List.mem_cons_of_mem _ hmem, hv⟩

/-- A break shows the payment and the amounts of the items that it is about. -/
theorem matchRef_amounts {ref : String} {p : Option LedgerSettledPayment} {s : Option SettlementRecord}
    (h : matchRef repr ref p s = .ok (some b)) :
    b.ledgerAmount = p.map LedgerSettledPayment.amount ∧ b.settlementAmount = s.map SettlementRecord.amount ∧
      b.paymentId = p.map LedgerSettledPayment.paymentId := by
  cases p with
  | none =>
    cases s with
    | none => cases h
    | some y =>
      cases h
      exact ⟨rfl, rfl, rfl⟩
  | some x =>
    cases s with
    | none =>
      cases h
      exact ⟨rfl, rfl, rfl⟩
    | some y =>
      obtain ⟨hpayment, hledger, hsettlement, -⟩ := matchRef_mismatch h
      exact ⟨hledger, hsettlement, hpayment⟩

/-- The last record under a reference has been matched, or a break shows its amount. -/
theorem matchRecords_shown (h : matchRecords repr ledger settlement = .ok r) {ref : String}
    {record : SettlementRecord}
    (hlast : lastByRef SettlementRecord.externalRef settlement ref = some record) :
    (∃ p ∈ ledger, Decimal.eq p.amount record.amount = .ok true) ∨
      ∃ b ∈ r.breaks, b.settlementAmount = some record.amount := by
  obtain ⟨hmem, href⟩ := mem_of_lastByRef hlast
  have hin : ref ∈ sortedRefs (ledger.map LedgerSettledPayment.externalRef)
      (settlement.map SettlementRecord.externalRef) := mem_sortedRefs.mpr (.inr (href ▸ List.mem_map_of_mem hmem))
  have hverdict := matchRefs_find h nodup_sortedRefs hin
  rw [hlast] at hverdict
  cases hfind : r.breaks.find? fun b => decide (b.externalRef = ref) with
  | some b =>
    rw [hfind] at hverdict
    exact .inr ⟨b, List.mem_of_find?_eq_some hfind, (matchRef_amounts hverdict).2.1⟩
  | none =>
    rw [hfind] at hverdict
    cases hp : lastByRef LedgerSettledPayment.externalRef ledger ref with
    | none =>
      rw [hp] at hverdict
      cases hverdict
    | some p =>
      rw [hp] at hverdict
      obtain ⟨y, hy, heq, -⟩ := matchRef_none.mp hverdict
      obtain rfl := Option.some.inj hy
      exact .inl ⟨p, (mem_of_lastByRef hp).1, heq⟩

end Breaks

section Texts

/-- A text without a NUL character. -/
def NulFree (s : String) : Prop := Char.ofNat 0 ∉ s.toList

instance (s : String) : Decidable (NulFree s) := inferInstanceAs (Decidable (Char.ofNat 0 ∉ s.toList))

theorem text_ok {s : String} : (∃ t, text s = .ok t) ↔ NulFree s := by
  unfold text NulFree
  split
  · rename_i h
    simpa using h
  · rename_i h
    simpa using h

theorem nulFree_append {s t : String} : NulFree (s ++ t) ↔ NulFree s ∧ NulFree t := by
  simp [NulFree, not_or]

theorem nulFree_of_isXmlText {s : String} (h : isXmlText s = true) : NulFree s := by
  intro hmem
  have hchar := List.all_eq_true.mp h _ hmem
  cases hchar

theorem nulFree_of_varchar {n : ℕ} {s t : String} (h : varchar n s = .ok t) : NulFree s := by
  unfold varchar at h
  split at h
  · cases h
  · rename_i hnul
    simpa [NulFree] using hnul

theorem varchar_of_fits {n : ℕ} {s : String} (h : NulFree s) (hn : s.length ≤ n) : varchar n s = .ok s := by
  have hnul : ¬s.toList.contains (Char.ofNat 0) = true := by simpa [NulFree] using h
  rw [varchar, if_neg hnul, if_pos hn]

theorem varchar_length {n : ℕ} {s t : String} (h : varchar n s = .ok t) : t.length ≤ n := by
  unfold varchar at h
  split at h
  · cases h
  · split at h
    · rename_i hfit
      rwa [← Except.ok.inj h]
    · split at h
      · rw [← Except.ok.inj h, String.length_ofList, List.length_take]
        omega
      · cases h

theorem Uuid.length_str_le (u : Uuid) : u.str.length ≤ 36 := by
  have hdigits : (Nat.toDigits 16 u.toNat).length ≤ 32 := by
    apply Nat.toDigits_length 16 u.toNat 32 (by decide)
    exact u.isLt
  simp only [Uuid.str, String.length_ofList, List.length_append, List.length_cons,
    List.length_take, List.length_drop, List.length_replicate]
  omega

/-- The references that the reader of a settlement file returns are stripped. -/
theorem parseSettlementCsv_stripped {fromisoformat : String → Except String ℕ}
    {repr : String → String} {content : String}
    {records : List SettlementRecord} (h : parseSettlementCsv fromisoformat repr content = .ok records) :
    ∀ record ∈ records, ∃ ref, record.externalRef = strip ref := by
  obtain ⟨fieldnames, rows, -, -, -, hreads⟩ := parseSettlementCsv_ok.mp h
  intro record hrecord
  obtain ⟨fields, -, hread⟩ := forall₂_mem_right hreads hrecord
  obtain ⟨ref, -, href⟩ := hread.externalRef
  exact ⟨ref, href⟩

end Texts

section Told

/-- What a break tells, with its amounts as numbers. -/
def ReconciliationBreak.told (b : ReconciliationBreak) :
    BreakType × String × Option Uuid × Option ℚ × Option ℚ × String :=
  (b.breakType, b.externalRef, b.paymentId, b.ledgerAmount.map Decimal.toRat,
    b.settlementAmount.map Decimal.toRat, b.details)

/-- Two responses that tell the same run, whose breaks they count. -/
structure ReconciliationRunResponse.Same (r r' : ReconciliationRunResponse) : Prop where
  id : r.id = r'.id
  batchId : r.batchId = r'.batchId
  matchedCount : r.matchedCount = r'.matchedCount
  breakCount : r.breakCount = r'.breakCount
  status : r.status = r'.status
  breaks : (r.breaks.map ReconciliationBreak.told).Perm (r'.breaks.map ReconciliationBreak.told)
  counted : r.breakCount = r.breaks.length ∧ r'.breakCount = r'.breaks.length

variable {runId : Uuid} {b : ReconciliationBreak} {row : ReconciliationBreakRow}

theorem nullable_kept {x : Option Decimal} {y : Option (Numeric 2)} (h : nullable (Numeric.ofDecimal 2) x = .ok y)
    (hf : ∀ a ∈ x, a.IsFinite) : (∀ a ∈ y.map Numeric.toDecimal, a.IsFinite) ∧
      ((y.map Numeric.toDecimal).map Decimal.toRat = x.map Decimal.toRat ↔ ∀ a ∈ x, a.WholeCents) := by
  cases x with
  | none =>
    cases h
    simp
  | some d =>
    cases hn : Numeric.ofDecimal 2 d with
    | error e => simp [nullable, hn, Except.map] at h
    | ok n =>
      have hy : some n = y := by simpa [nullable, hn, Except.map] using h
      obtain ⟨hfinite, hkept⟩ := Numeric.kept_iff hn (hf d rfl)
      rw [← hy]
      simpa using ⟨hfinite, hkept⟩

/-- A break is read back as valid, and tells the same where its amounts are whole cents. -/
theorem told_stored (h : ReconciliationBreakRow.new runId b = .ok row) (hv : b.Valid)
    (hfits : b.externalRef.length ≤ 100 ∨ ∀ hne, b.externalRef.toList.getLast hne ≠ ' ')
    (hledger : ∀ a ∈ b.ledgerAmount, a.WholeCents) : row.toDomain.Valid ∧
      (row.toDomain.told = b.told ↔ ∀ a ∈ b.settlementAmount, a.WholeCents) := by
  obtain ⟨ref, href, ledgerAmount, hl, settlementAmount, hs, details, hd, rfl⟩ := ReconciliationBreakRow.new_ok.mp h
  obtain ⟨hlf, hlk⟩ := nullable_kept hl hv.1
  obtain ⟨hsf, hsk⟩ := nullable_kept hs hv.2
  have hdetails : details = b.details := by
    rw [text] at hd
    split at hd
    · cases hd
    · exact (Except.ok.inj hd).symm
  refine ⟨⟨hlf, hsf⟩, ?_⟩
  simp only [ReconciliationBreakRow.toDomain, ReconciliationBreak.told, Prod.mk.injEq,
    varchar_exact href hfits, hdetails, hlk.mpr hledger, hsk, true_and, and_true]

/-- What is read back from the table is told in whole cents. -/
theorem told_cents (h : row.toDomain.told = b.told) : ∀ a ∈ b.settlementAmount, a.WholeCents := by
  intro a ha
  have hsame : row.toDomain.settlementAmount.map Decimal.toRat = b.settlementAmount.map Decimal.toRat := by
    simp only [ReconciliationBreak.told, Prod.mk.injEq] at h
    exact h.2.2.2.2.1
  rw [Option.mem_def.mp ha, ReconciliationBreakRow.toDomain] at hsame
  cases hrow : row.settlementAmount with
  | none => simp [hrow] at hsame
  | some n =>
    obtain ⟨z, hz⟩ := n.wholeCents
    refine ⟨z, ?_⟩
    rw [← hz]
    simpa [hrow, eq_comm] using hsame

end Told

/-- A settled payment as the ledger holds it. -/
structure LedgerSettledPayment.Sound (p : LedgerSettledPayment) : Prop where
  amount : ∃ n : ℕ, n < 10 ^ 18 ∧ p.amount = .finite false n (-2)
  externalRef : varchar 100 p.externalRef = .ok p.externalRef
  currency : NulFree p.currency

/-- What the ledger has settled is sound. -/
def Store.Sound (st : Store) : Prop := ∀ windowStart windowEnd, ∀ p ∈ st.settledIn windowStart windowEnd, p.Sound

section Runs

variable {ι : Type} [DecidableEq ι] {rt : Runtime} {step : Feed → Feed → Prop} {st₀ : Store}
  {calls : ι → Call} {σ : Config postgres ι Value}

theorem WellFormed.sound_past (h : WellFormed (feedEnv step) st₀ (fun i => (calls i).prog rt) σ) (h₀ : Fresh st₀)
    {log : List (Commit postgres ι)} {st : Store} (hlog : log <+: σ.world.log)
    (hst : History (feedEnv step) st₀ log st) : st.Sound := by
  intro windowStart windowEnd p hp
  obtain ⟨id, row, hrow, hamount, hcurrency, href⟩ := Store.mem_settledIn hp
  obtain ⟨c, hc, req, hreq, hrequested⟩ := (h.requests_past h₀ hlog hst).origin id row hrow
  obtain ⟨n, -, hn, hcents⟩ := hrequested.cents (h.valid_request (hlog.subset hc) hreq)
  refine ⟨⟨n, hn, hamount.trans hcents⟩, ?_, ?_⟩
  · rcases href with href | href
    · have hstored := hrequested.endToEndId
      rw [href] at hstored
      cases hreq : req.endToEndId with
      | none => simp [nullable, hreq] at hstored
      | some ref =>
        cases hchar : varchar 35 ref with
        | error e => simp [nullable, hreq, hchar, Except.map] at hstored
        | ok s =>
          have hs : s = p.externalRef := by simpa [nullable, hreq, hchar, Except.map] using hstored
          have hlen := varchar_length hchar
          rw [hs] at hchar hlen
          exact varchar_of_fits (nulFree_of_varchar (varchar_stored hchar)) (by omega)
    · have hlen := row.id.length_str_le
      rw [href]
      exact varchar_of_fits (nulFree_of_isXmlText (isXmlText_uuid row.id)) (by omega)
  · rw [hcurrency]
    exact nulFree_of_varchar (varchar_stored hrequested.currency)

theorem WellFormed.sound (h : WellFormed (feedEnv step) st₀ (fun i => (calls i).prog rt) σ) (h₀ : Fresh st₀) :
    σ.world.store.Sound :=
  h.sound_past h₀ (List.prefix_refl _) h.history

/-- The settled payments that a run has read are sound. -/
theorem WellFormed.settled_read (h : WellFormed (feedEnv step) st₀ (fun i => (calls i).prog rt) σ) (h₀ : Fresh st₀)
    {c : Commit postgres ι} (hc : c ∈ σ.world.log) {batchId : Uuid} {records : List SettlementRecord}
    {windowStart windowEnd : ℕ} {v : Uuid × ReconciliationResult}
    (hv : Reported rt batchId records windowStart windowEnd v c.tx) :
    ∃ settled, matchRecords rt.repr settled records = .ok v.2 ∧
      ∀ p ∈ settled, p.Sound := by
  obtain ⟨l, l', hl⟩ := List.append_of_mem hc
  obtain ⟨e, -, settled, st, -, -, hresult, -, hpast, hperm⟩ := h.settled_seen hl hv
  refine ⟨settled, hresult, ?_⟩
  have hprefix : l.take e.seen <+: σ.world.log := by
    rw [hl]
    exact (List.take_prefix _ _).trans (List.prefix_append _ _)
  intro p hp
  exact h.sound_past h₀ hprefix hpast windowStart windowEnd p (hperm.mem_iff.mp hp)

/-- The last record under each reference is a whole number of cents. -/
def InCents (records : List SettlementRecord) : Prop :=
  ∀ ref record, lastByRef SettlementRecord.externalRef records ref = some record → record.amount.WholeCents

/-- What the breaks of a run are, where they are answered. -/
structure Plainly (records : List SettlementRecord) (b : ReconciliationBreak) : Prop where
  valid : b.Valid
  fits : b.externalRef.length ≤ 100 ∨ ∀ hne, b.externalRef.toList.getLast hne ≠ ' '
  ledger : ∀ a ∈ b.ledgerAmount, a.WholeCents
  settlement : ∀ a ∈ b.settlementAmount, ∃ record,
    lastByRef SettlementRecord.externalRef records b.externalRef = some record ∧ a = record.amount

theorem wholeCents_cents (n : ℕ) : (Decimal.finite false n (-2)).WholeCents := by
  refine ⟨n, ?_⟩
  rw [Decimal.toRat_finite]
  norm_num
  ring

theorem plainly_of_match {repr : String → String} {settled : List LedgerSettledPayment}
    {records : List SettlementRecord}
    {result : ReconciliationResult} (hresult : matchRecords repr settled records = .ok result)
    (hsettled : ∀ p ∈ settled, p.Sound)
    (hstripped : ∀ record ∈ records, ∃ ref, record.externalRef = strip ref) {b : ReconciliationBreak}
    (hb : b ∈ result.breaks) (hvalid : b.Valid) : Plainly records b := by
  obtain ⟨hmem, hverdict⟩ := matchRefs_break hresult hb
  obtain ⟨hledger, hsettlement, -⟩ := matchRef_amounts hverdict
  refine ⟨hvalid, ?_, ?_, ?_⟩
  · rcases mem_sortedRefs.mp hmem with hmem | hmem
    · obtain ⟨p, hp, href⟩ := List.mem_map.mp hmem
      rw [← href]
      exact .inl (varchar_length (hsettled p hp).externalRef)
    · obtain ⟨record, hrecord, href⟩ := List.mem_map.mp hmem
      obtain ⟨ref, hstrip⟩ := hstripped record hrecord
      refine .inr ?_
      rw [← href, hstrip]
      intro hne hspace
      have hlast := strip_getLast ref hne
      rw [hspace] at hlast
      cases hlast
  · intro a ha
    rw [Option.mem_def, hledger] at ha
    obtain ⟨p, hp, rfl⟩ := Option.map_eq_some_iff.mp ha
    obtain ⟨n, -, hn⟩ := (hsettled p (mem_of_lastByRef hp).1).amount
    rw [hn]
    exact wholeCents_cents n
  · intro a ha
    rw [Option.mem_def, hsettlement] at ha
    obtain ⟨record, hrecord, rfl⟩ := Option.map_eq_some_iff.mp ha
    exact ⟨record, hrecord, rfl⟩

theorem respond_run {status status' : ℕ} {response response' : ReconciliationRunResponse} :
    RunAnswer.respond status response = .run status' response' ↔
      status = status' ∧ response = response' ∧ ∀ b ∈ response.breaks, b.Valid := by
  unfold RunAnswer.respond
  split
  · rename_i hall
    rw [RunAnswer.run.injEq]
    exact ⟨fun h => ⟨h.1, h.2, hall⟩, fun h => ⟨h.1, h.2.1⟩⟩
  · rename_i hall
    constructor
    · intro h
      cases h
    · rintro ⟨-, -, h⟩
      exact absurd h hall

theorem endpoint_call {fromisoformat : String → Except String ℕ} {body : String} {batchId : Uuid}
    {windowStart windowEnd : ℕ}
    {call : Call} (h : runReconciliationEndpoint fromisoformat rt body batchId windowStart windowEnd = .ok call) :
    ∃ records, parseSettlementCsv fromisoformat rt.repr body = .ok records ∧
      .runReconciliation batchId records windowStart windowEnd = call := by
  unfold runReconciliationEndpoint at h
  split at h
  · rename_i records hparse
    exact ⟨records, hparse, Except.ok.inj h⟩
  · cases h
  · cases h

theorem answer_created {batchId : Uuid} {r : Except AppError Value} {status : ℕ}
    {posted : ReconciliationRunResponse}
    (h : runReconciliationAnswer batchId r = .run status posted) : ∃ runId result, r = .ok (.run runId result) ∧
      ⟨runId, batchId, result.matchedCount, result.breakCount, "completed", result.breaks⟩ = posted ∧
      ∀ b ∈ result.breaks, b.Valid := by
  cases r with
  | error e => cases h
  | ok v =>
    cases v with
    | run runId result =>
      obtain ⟨-, hposted, hvalid⟩ := respond_run.mp h
      exact ⟨runId, result, rfl, hposted, hvalid⟩
    | _ => cases h

/-- The stored breaks are told as they were answered. -/
theorem told_all {runId : Uuid} {records : List SettlementRecord} {breaks : List ReconciliationBreak}
    {rows : List ReconciliationBreakRow}
    (hstored : List.Forall₂ (fun b row => ReconciliationBreakRow.new runId b = .ok row) breaks rows)
    (hplain : ∀ b ∈ breaks, Plainly records b) : (∀ row ∈ rows, row.toDomain.Valid) ∧
      (InCents records → (rows.map ReconciliationBreakRow.toDomain).map ReconciliationBreak.told =
        breaks.map ReconciliationBreak.told) := by
  induction hstored with
  | nil => exact ⟨by simp, fun _ => rfl⟩
  | @cons b row breaks rows hrow _ ih =>
    obtain ⟨hb, hbreaks⟩ := List.forall_mem_cons.mp hplain
    obtain ⟨hvalid, htold⟩ := told_stored hrow hb.valid hb.fits hb.ledger
    obtain ⟨hvalids, htolds⟩ := ih hbreaks
    refine ⟨List.forall_mem_cons.mpr ⟨hvalid, hvalids⟩, ?_⟩
    intro hcents
    have hhead : row.toDomain.told = b.told := by
      apply htold.mpr
      intro a ha
      obtain ⟨record, hrecord, rfl⟩ := hb.settlement a ha
      exact hcents _ record hrecord
    rw [List.map_cons, List.map_cons, List.map_cons, hhead, htolds hcents]

/-- A run that was answered with 201 is read back the same ever after iff the last record under each reference is
a whole number of cents. -/
theorem report_read_back_iff (h₀ : Fresh st₀) (hfiled : st₀.Filed) (h : Reachable rt step st₀ calls σ)
    {fromisoformat : String → Except String ℕ} {body : String} {batchId : Uuid} {windowStart windowEnd : ℕ} {i : ι}
    (hcall : runReconciliationEndpoint fromisoformat rt body batchId windowStart windowEnd = .ok (calls i))
    {r : Except AppError Value} (hr : (σ.session i).result = some r) {posted : ReconciliationRunResponse}
    (hposted : runReconciliationAnswer batchId r = .run 201 posted) :
    (∀ σ₁ σ₂ answer, Reaches (feedEnv step) σ σ₁ → Reaches (feedEnv step) σ₁ σ₂ →
      Gets σ₁.world.store σ₂.world.store posted.id answer → ∃ got, answer = .run 200 got ∧ got.Same posted) ↔
    ∃ records, parseSettlementCsv fromisoformat rt.repr body = .ok records ∧ InCents records := by
  obtain ⟨records, hparse, hcall⟩ := endpoint_call hcall
  obtain ⟨runId, result, rfl, hposted, hvalid⟩ := answer_created hposted
  obtain ⟨clock, hreach⟩ := h
  have hwf := reaches_wellFormed hreach
  -- the commit of the request, and what it has reported
  have hidem : (calls i).idempotent = false := by
    rw [← hcall]
    rfl
  obtain ⟨tx, hown, hcommits⟩ := hwf.returned_commits hidem (result_ok.mp hr)
  obtain ⟨c, hc, -, rfl⟩ := mem_of_ownOf (by rw [hown]; exact List.mem_singleton_self _ : tx ∈ ownOf i σ.world.log)
  rw [← hcall] at hcommits
  obtain ⟨v, hv, hpath⟩ := hcommits
  obtain ⟨hid, hres⟩ := Value.run.inj hv
  have hsplit : v = (runId, result) := Prod.ext hid.symm hres.symm
  rw [hsplit] at hpath
  have hreported := path_runReconciliationBlock hpath
  obtain ⟨settled, hresult, hsettled⟩ := hwf.settled_read h₀ hc hreported
  have hplain : ∀ b ∈ result.breaks, Plainly records b :=
    fun b hb => plainly_of_match hresult hsettled (parseSettlementCsv_stripped hparse) hb (hvalid b hb)
  -- what is on file when the request has been answered, and after
  have onFile {σ' : Config postgres ι Value} (hσ' : Reaches (D := postgres) (feedEnv step) σ σ') :
      σ'.world.store.reconciliationRuns.find runId =
          some ⟨runId, batchId, result.matchedCount, result.breakCount, "completed"⟩ ∧
        List.Forall₂ (fun b row => ReconciliationBreakRow.new runId b = .ok row) result.breaks
          (σ'.world.store.breaksOf runId) :=
    (reaches_wellFormed (Relation.ReflTransGen.trans hreach hσ')).report_kept hfiled
      ((reaches_log hσ').subset hc) hreported
  have hget {σ₁ σ₂ : Config postgres ι Value} (hσ₁ : Reaches (D := postgres) (feedEnv step) σ σ₁)
    (hσ₂ : Reaches (D := postgres) (feedEnv step) σ σ₂)
      {breaks : List ReconciliationBreakRow} (hperm : breaks.Perm (σ₂.world.store.breaksOf runId)) :
      getReconciliationRun (σ₁.world.store.reconciliationRuns.find runId) breaks = .run 200
        ⟨runId, batchId, result.matchedCount, result.breakCount, "completed",
          breaks.map ReconciliationBreakRow.toDomain⟩ := by
    rw [(onFile hσ₁).1]
    apply respond_run.mpr
    refine ⟨rfl, rfl, ?_⟩
    intro b hb
    obtain ⟨row, hrow, rfl⟩ := List.mem_map.mp hb
    exact (told_all (onFile hσ₂).2 hplain).1 row (hperm.mem_iff.mp hrow)
  rw [← hposted]
  constructor
  · intro hall
    refine ⟨records, hparse, ?_⟩
    obtain ⟨got, hgot, hsame⟩ := hall σ σ _ .refl .refl ⟨_, List.Perm.refl _, rfl⟩
    rw [hget .refl .refl (List.Perm.refl _)] at hgot
    cases hgot
    intro ref record hlast
    rcases matchRecords_shown hresult hlast with ⟨p, hp, heq⟩ | ⟨b, hb, hshown⟩
    · obtain ⟨n, -, hn⟩ := (hsettled p hp).amount
      rw [hn] at heq
      obtain ⟨z, hz⟩ := wholeCents_cents n
      exact ⟨z, (Decimal.toRat_eq heq).2.trans hz⟩
    · have htold := hsame.breaks.mem_iff.mpr (List.mem_map_of_mem hb)
      obtain ⟨b', hb', hsame'⟩ := List.mem_map.mp htold
      obtain ⟨row, -, rfl⟩ := List.mem_map.mp hb'
      exact told_cents hsame' record.amount hshown
  · rintro ⟨records', hparse', hcents⟩ σ₁ σ₂ answer hσ₁ hσ₂ ⟨breaks, hperm, rfl⟩
    obtain rfl := Except.ok.inj (hparse.symm.trans hparse')
    refine ⟨_, hget hσ₁ (Relation.ReflTransGen.trans hσ₁ hσ₂) hperm, rfl, rfl, rfl, rfl, rfl, ?_, ?_, rfl⟩
    · have hrows := onFile (Relation.ReflTransGen.trans hσ₁ hσ₂)
      rw [← (told_all hrows.2 hplain).2 hcents]
      exact (hperm.map _).map _
    · rw [List.length_map, hperm.length_eq, ← (onFile (Relation.ReflTransGen.trans hσ₁ hσ₂)).2.length_eq]
      rfl

end Runs

section Samples

/-- The row of a payment that the ledger does not have. -/
def reportLine (amount : Decimal) : SettlementLine := plainLine ⟨0, "REF", amount, "EUR"⟩

def reportBody (amount : Decimal) : String := settlementFile false [reportLine amount]

def reportRecords (amount : Decimal) : List SettlementRecord := [(reportLine amount).record sampleRuntime.repr 0]

def reportCalls (amount : Decimal) : Fin 1 → Call := fun _ => .runReconciliation 50 (reportRecords amount) 0 1

def reportEnd (amount : Decimal) : Option (Config postgres (Fin 1) Value) :=
  (System sampleRuntime sampleStore 0 (reportCalls amount)).run (List.replicate 6 (0, { id := 60 }))

/-- The break that reports the row. -/
def reportBreak (amount : Decimal) : ReconciliationBreak where
  breakType := .missingInLedger
  externalRef := "REF"
  paymentId := none
  ledgerAmount := none
  settlementAmount := some amount
  details := "settlement file reference 'REF' has no matching settled payment in the ledger"

def reportResponse (amount : Decimal) : ReconciliationRunResponse :=
  ⟨60, 50, 0, 1, "completed", [reportBreak amount]⟩

theorem sampleStore_filed : sampleStore.Filed := by
  intro row hrow
  cases hrow

/-- The sample row is parsed, reported and answered. -/
structure ReportSample (amount : Decimal) : Prop where
  call : parseSettlementCsv everyTimestamp sampleRuntime.repr (reportBody amount) = .ok (reportRecords amount)
  result : ((reportEnd amount).bind fun σ => (σ.session 0).result) = some (.ok (.run 60 ⟨0, [reportBreak amount]⟩))
  valid : (reportBreak amount).Valid

theorem tenEuros_sample : ReportSample (cents 1000) := ⟨by decide +kernel, by decide +kernel, by decide⟩

theorem halfCent_sample : ReportSample (.finite false 10005 (-3)) :=
  ⟨by decide +kernel, by decide +kernel, by decide⟩

section ReportSample

variable {amount : Decimal}

theorem ReportSample.reached (h : ReportSample amount) : ∃ σ, reportEnd amount = some σ ∧
    (σ.session 0).result = some (.ok (.run 60 ⟨0, [reportBreak amount]⟩)) :=
  Option.bind_eq_some_iff.mp h.result

theorem ReportSample.endpoint (h : ReportSample amount) :
    runReconciliationEndpoint everyTimestamp sampleRuntime (reportBody amount) 50 0 1 =
      .ok (reportCalls amount 0) := by
  rw [runReconciliationEndpoint, h.call]
  rfl

theorem ReportSample.answer (h : ReportSample amount) :
    runReconciliationAnswer 50 (.ok (.run 60 ⟨0, [reportBreak amount]⟩)) = .run 201 (reportResponse amount) :=
  respond_run.mpr ⟨rfl, rfl, List.forall_mem_singleton.mpr h.valid⟩

end ReportSample

theorem report_read_back_tenEuros : ∃ σ, reportEnd (cents 1000) = some σ ∧
    ∀ σ₁ σ₂ answer, Reaches (D := postgres) (feedEnv fun _ _ => True) σ σ₁ →
    Reaches (D := postgres) (feedEnv fun _ _ => True) σ₁ σ₂ →
      Gets σ₁.world.store σ₂.world.store 60 answer → ∃ got, answer = .run 200 got ∧
      got.Same (reportResponse (cents 1000)) := by
  obtain ⟨σ, hend, hresult⟩ := tenEuros_sample.reached
  refine ⟨σ, hend, ?_⟩
  apply (report_read_back_iff sampleStore_fresh sampleStore_filed (reachable_of_run hend)
    tenEuros_sample.endpoint hresult
    tenEuros_sample.answer).mpr
  refine ⟨_, tenEuros_sample.call, ?_⟩
  intro ref record hlast
  obtain ⟨hmem, -⟩ := mem_of_lastByRef hlast
  obtain rfl := List.mem_singleton.mp hmem
  exact wholeCents_cents 1000

/-- Ten euros and half a cent are answered, and read back as ten euros and a cent. -/
theorem halfCent_read_back : Fresh sampleStore ∧ sampleStore.Filed ∧ ∃ σ,
    reportEnd (.finite false 10005 (-3)) = some σ ∧
    Reachable sampleRuntime (fun _ _ => False) sampleStore (reportCalls (.finite false 10005 (-3))) σ ∧
    runReconciliationEndpoint everyTimestamp sampleRuntime (reportBody (.finite false 10005 (-3))) 50 0 1 =
      .ok (reportCalls (.finite false 10005 (-3)) 0) ∧
    ∃ r, (σ.session 0).result = some r ∧
      runReconciliationAnswer 50 r = .run 201 (reportResponse (.finite false 10005 (-3))) ∧
      Gets σ.world.store σ.world.store 60 (.run 200 (reportResponse (cents 1001))) ∧
      ¬(reportResponse (cents 1001)).Same (reportResponse (.finite false 10005 (-3))) := by
  obtain ⟨σ, hend, hresult⟩ := halfCent_sample.reached
  refine ⟨sampleStore_fresh, sampleStore_filed, σ, hend, reachable_of_run hend,
    halfCent_sample.endpoint, _, hresult, halfCent_sample.answer, ?_, ?_⟩
  · have hfiled : ((reportEnd (.finite false 10005 (-3))).map fun σ =>
        getReconciliationRun (σ.world.store.reconciliationRuns.find 60) (σ.world.store.breaksOf 60)) =
        some (.run 200 (reportResponse (cents 1001))) := by decide +kernel
    rw [hend] at hfiled
    exact ⟨_, List.Perm.refl _, (Option.some.inj hfiled).symm⟩
  · intro hsame
    have htold := List.perm_singleton.mp hsame.breaks
    simp [reportResponse, reportBreak, ReconciliationBreak.told, cents, Decimal.toRat] at htold
    norm_num at htold

end Samples
end PaymentLedger
