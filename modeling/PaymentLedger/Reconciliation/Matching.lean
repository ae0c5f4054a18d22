import PaymentLedger.Domain.Reconciliation

namespace PaymentLedger

def ReconciliationResult.count (r : ReconciliationResult) (t : BreakType) : ℕ :=
  r.breaks.countP fun b => b.breakType = t

theorem count_cons (n : ℕ) (b : ReconciliationBreak) (r : ReconciliationResult) (t : BreakType) :
    ReconciliationResult.count ⟨n, b :: r.breaks⟩ t = r.count t + if b.breakType = t then 1 else 0 := by
  simp [ReconciliationResult.count, List.countP_cons]

theorem count_matched (n : ℕ) (r : ReconciliationResult) (t : BreakType) :
    ReconciliationResult.count ⟨n, r.breaks⟩ t = r.count t := rfl

/-- A ledger payment and a settlement record that agree on reference, amount and currency. -/
structure Agree (p : LedgerSettledPayment) (s : SettlementRecord) : Prop where
  ref : p.externalRef = s.externalRef
  amount : Decimal.eq p.amount s.amount = .ok true
  currency : p.currency = s.currency

/-- The result accounts for each item of both sides exactly once, and counts as matched only items
that agree. -/
structure Accounts (ledger : List LedgerSettledPayment) (settlement : List SettlementRecord)
    (r : ReconciliationResult) : Prop where
  ledgerCount : r.matchedCount + r.count .missingInSettlement + r.count .amountMismatch = ledger.length
  settlementCount : r.matchedCount + r.count .missingInLedger + r.count .amountMismatch = settlement.length
  matched : ∃ pairs : List (LedgerSettledPayment × SettlementRecord), pairs.length = r.matchedCount ∧
    (pairs.map fun x => x.1.externalRef).Nodup ∧
    ∀ x ∈ pairs, x.1 ∈ ledger ∧ x.2 ∈ settlement ∧ Agree x.1 x.2

section LastByRef

variable {α : Type} {ref : α → String} {xs : List α} {k : String} {x : α}

theorem mem_of_lastByRef (h : lastByRef ref xs k = some x) : x ∈ xs ∧ ref x = k := by
  constructor
  · exact List.mem_reverse.mp (List.mem_of_find?_eq_some h)
  · simpa using List.find?_some h

theorem lastByRef_isSome : (lastByRef ref xs k).isSome = true ↔ k ∈ xs.map ref := by
  simp [lastByRef]

/-- Where no reference occurs twice, the last item with a reference is the only one. -/
theorem lastByRef_of_mem (hn : (xs.map ref).Nodup) (h : x ∈ xs) : lastByRef ref xs (ref x) = some x := by
  cases hl : lastByRef ref xs (ref x) with
  | none =>
    have hsome := lastByRef_isSome.mpr (List.mem_map_of_mem h : ref x ∈ xs.map ref)
    rw [hl] at hsome
    cases hsome
  | some y =>
    obtain ⟨hmem, href⟩ := mem_of_lastByRef hl
    rw [List.inj_on_of_nodup_map hn hmem h href]

end LastByRef

theorem Decimal.eq_ok_iff {x y : Decimal} :
    (∃ b, Decimal.eq x y = .ok b) ↔ x.isSignaling = false ∧ y.isSignaling = false := by
  constructor
  · intro h
    obtain ⟨b, hb⟩ := h
    by_contra hs
    have hor : (x.isSignaling || y.isSignaling) = true := by
      by_contra hno
      simp only [Bool.or_eq_true, not_or, Bool.not_eq_true] at hno
      exact hs hno
    unfold Decimal.eq at hb
    rw [if_pos hor] at hb
    cases hb
  · intro h
    obtain ⟨hx, hy⟩ := h
    simp only [Decimal.eq, hx, hy, Bool.or_false, Bool.false_eq_true, if_false]
    split
    · exact ⟨_, rfl⟩
    · exact ⟨_, rfl⟩
    · exact ⟨_, rfl⟩

section Verdicts

variable {repr : String → String} {ledger : List LedgerSettledPayment} {settlement : List SettlementRecord}
  {refs : List String} {r : ReconciliationResult}

theorem matchRefs_cons {ref : String} : matchRefs repr ledger settlement (ref :: refs) = .ok r ↔
    ∃ verdict rest, matchRef repr ref (lastByRef LedgerSettledPayment.externalRef ledger ref)
      (lastByRef SettlementRecord.externalRef settlement ref) = .ok verdict ∧
      matchRefs repr ledger settlement refs = .ok rest ∧
      r = match verdict with
        | none => ⟨rest.matchedCount + 1, rest.breaks⟩
        | some b => ⟨rest.matchedCount, b :: rest.breaks⟩ := by
  rw [matchRefs, except_bind_ok]
  apply exists_congr
  intro verdict
  rw [except_bind_ok]
  cases verdict <;> simp [eq_comm]

/-- The verdict on a reference: which break it is, and what a match has compared. -/
theorem matchRef_ok {ref : String} {p : Option LedgerSettledPayment} {s : Option SettlementRecord}
    {verdict : Option ReconciliationBreak} (h : matchRef repr ref p s = .ok verdict)
    (hsome : p.isSome = true ∨ s.isSome = true) :
    (∃ x, p = some x ∧ s = none ∧ verdict.map ReconciliationBreak.breakType = some .missingInSettlement) ∨
    (∃ y, p = none ∧ s = some y ∧ verdict.map ReconciliationBreak.breakType = some .missingInLedger) ∨
    ∃ x y, p = some x ∧ s = some y ∧
      (verdict.map ReconciliationBreak.breakType = some .amountMismatch ∨
        (verdict = none ∧ Decimal.eq x.amount y.amount = .ok true ∧ x.currency = y.currency)) := by
  cases p with
  | none =>
    cases s with
    | none => simp at hsome
    | some y =>
      cases h
      exact .inr (.inl ⟨y, rfl, rfl, rfl⟩)
  | some x =>
    cases s with
    | none =>
      cases h
      exact .inl ⟨x, rfl, rfl, rfl⟩
    | some y =>
      refine .inr (.inr ⟨x, y, rfl, rfl, ?_⟩)
      rw [matchRef] at h
      cases heq : Decimal.eq x.amount y.amount with
      | error e =>
        simp only [heq] at h
        cases h
      | ok amountsMatch =>
        simp only [heq] at h
        split at h
        · rename_i hboth
          simp only [Bool.and_eq_true, decide_eq_true_eq] at hboth
          cases h
          exact .inr ⟨rfl, by rw [hboth.1], hboth.2⟩
        · cases h
          exact .inl rfl

/-- What the verdicts on a list of references count. -/
theorem matchRefs_counts (h : matchRefs repr ledger settlement refs = .ok r)
    (hrefs : ∀ ref ∈ refs, ref ∈ ledger.map LedgerSettledPayment.externalRef ∨
      ref ∈ settlement.map SettlementRecord.externalRef) :
    r.matchedCount + r.count .missingInSettlement + r.count .amountMismatch =
      refs.countP (fun ref => ref ∈ ledger.map LedgerSettledPayment.externalRef) ∧
    r.matchedCount + r.count .missingInLedger + r.count .amountMismatch =
      refs.countP (fun ref => ref ∈ settlement.map SettlementRecord.externalRef) ∧
    ∃ pairs : List (LedgerSettledPayment × SettlementRecord), pairs.length = r.matchedCount ∧
      (pairs.map fun x => x.1.externalRef).Sublist refs ∧
      ∀ x ∈ pairs, x.1 ∈ ledger ∧ x.2 ∈ settlement ∧ Agree x.1 x.2 := by
  induction refs generalizing r with
  | nil =>
    cases h
    exact ⟨rfl, rfl, [], rfl, .slnil, by simp⟩
  | cons ref refs ih =>
    obtain ⟨verdict, rest, hverdict, hrest, rfl⟩ := matchRefs_cons.mp h
    obtain ⟨hl, hs, pairs, hlen, hsub, hpairs⟩ := ih hrest fun x hx => hrefs x (List.mem_cons_of_mem _ hx)
    have hsome : (lastByRef LedgerSettledPayment.externalRef ledger ref).isSome = true ∨
        (lastByRef SettlementRecord.externalRef settlement ref).isSome = true := by
      rw [lastByRef_isSome, lastByRef_isSome]
      exact hrefs ref List.mem_cons_self
    have hledger : ref ∈ ledger.map LedgerSettledPayment.externalRef ↔
        (lastByRef LedgerSettledPayment.externalRef ledger ref).isSome = true := lastByRef_isSome.symm
    have hsettlement : ref ∈ settlement.map SettlementRecord.externalRef ↔
        (lastByRef SettlementRecord.externalRef settlement ref).isSome = true := lastByRef_isSome.symm
    simp only [List.countP_cons, hledger, hsettlement, ← hl, ← hs]
    rcases matchRef_ok hverdict hsome with ⟨x, hx, hy, hb⟩ | ⟨y, hx, hy, hb⟩ | ⟨x, y, hx, hy, hcase⟩
    · obtain ⟨b, rfl, hbreak⟩ := Option.map_eq_some_iff.mp hb
      refine ⟨?_, ?_, pairs, hlen, hsub.cons ref, hpairs⟩
      · simp [count_cons, hbreak, hx]
        omega
      · simp [count_cons, hbreak, hy]
    · obtain ⟨b, rfl, hbreak⟩ := Option.map_eq_some_iff.mp hb
      refine ⟨?_, ?_, pairs, hlen, hsub.cons ref, hpairs⟩
      · simp [count_cons, hbreak, hx]
      · simp [count_cons, hbreak, hy]
        omega
    · rcases hcase with hb | ⟨rfl, heq, hcur⟩
      · obtain ⟨b, rfl, hbreak⟩ := Option.map_eq_some_iff.mp hb
        refine ⟨?_, ?_, pairs, hlen, hsub.cons ref, hpairs⟩
        · simp [count_cons, hbreak, hx]
          omega
        · simp [count_cons, hbreak, hy]
          omega
      · obtain ⟨hxmem, hxref⟩ := mem_of_lastByRef hx
        obtain ⟨hymem, hyref⟩ := mem_of_lastByRef hy
        refine ⟨?_, ?_, (x, y) :: pairs, by simp [hlen], ?_, ?_⟩
        · simp [count_matched, hx]
          omega
        · simp [count_matched, hy]
          omega
        · rw [List.map_cons, hxref]
          exact hsub.cons_cons ref
        · intro z hz
          rcases List.mem_cons.mp hz with rfl | hz
          · exact ⟨hxmem, hymem, hxref.trans hyref.symm, heq, hcur⟩
          · exact hpairs z hz

theorem matchRefs_total (h : ∀ ref ∈ refs, ∃ verdict, matchRef repr ref
    (lastByRef LedgerSettledPayment.externalRef ledger ref)
    (lastByRef SettlementRecord.externalRef settlement ref) = .ok verdict) :
    ∃ r, matchRefs repr ledger settlement refs = .ok r := by
  induction refs with
  | nil => exact ⟨_, rfl⟩
  | cons ref refs ih =>
    obtain ⟨verdict, hverdict⟩ := h ref List.mem_cons_self
    obtain ⟨rest, hrest⟩ := ih fun x hx => h x (List.mem_cons_of_mem _ hx)
    exact ⟨_, matchRefs_cons.mpr ⟨verdict, rest, hverdict, hrest, rfl⟩⟩

theorem matchRefs_verdict (h : matchRefs repr ledger settlement refs = .ok r) {ref : String} (href : ref ∈ refs) :
    ∃ verdict, matchRef repr ref (lastByRef LedgerSettledPayment.externalRef ledger ref)
      (lastByRef SettlementRecord.externalRef settlement ref) = .ok verdict := by
  induction refs generalizing r with
  | nil => cases href
  | cons ref' refs ih =>
    obtain ⟨verdict, rest, hverdict, hrest, -⟩ := matchRefs_cons.mp h
    rcases List.mem_cons.mp href with rfl | href
    · exact ⟨verdict, hverdict⟩
    · exact ih hrest href

/-- A result without breaks has matched every reference. -/
theorem matchRefs_unbroken {n : ℕ} : matchRefs repr ledger settlement refs = .ok ⟨n, []⟩ ↔
    n = refs.length ∧ ∀ ref ∈ refs, matchRef repr ref (lastByRef LedgerSettledPayment.externalRef ledger ref)
      (lastByRef SettlementRecord.externalRef settlement ref) = .ok none := by
  induction refs generalizing n with
  | nil => simp [matchRefs, eq_comm]
  | cons ref refs ih =>
    rw [matchRefs_cons]
    constructor
    · rintro ⟨verdict, rest, hverdict, hrest, hr⟩
      cases verdict with
      | some b => cases hr
      | none =>
        obtain ⟨m, breaks⟩ := rest
        obtain ⟨rfl, rfl⟩ := ReconciliationResult.mk.inj hr
        obtain ⟨rfl, hall⟩ := ih.mp hrest
        exact ⟨rfl, List.forall_mem_cons.mpr ⟨hverdict, hall⟩⟩
    · rintro ⟨rfl, hall⟩
      obtain ⟨hverdict, hall⟩ := List.forall_mem_cons.mp hall
      exact ⟨none, ⟨refs.length, []⟩, hverdict, ih.mpr ⟨rfl, hall⟩, rfl⟩

/-- A pair without a verdict has been compared and agrees. -/
theorem matchRef_none {ref : String} {x : LedgerSettledPayment} {s : Option SettlementRecord} :
    matchRef repr ref (some x) s = .ok none ↔
      ∃ y, s = some y ∧ Decimal.eq x.amount y.amount = .ok true ∧ x.currency = y.currency := by
  cases s with
  | none => simp [matchRef]
  | some y =>
    cases heq : Decimal.eq x.amount y.amount with
    | error e => simp [matchRef, heq]
    | ok b => cases b <;> simp [matchRef, heq]

end Verdicts

section SortedRefs

variable {a b : List String}

theorem mem_sortedRefs {ref : String} : ref ∈ sortedRefs a b ↔ ref ∈ a ∨ ref ∈ b := by
  simp [sortedRefs]

theorem nodup_sortedRefs : (sortedRefs a b).Nodup :=
  (List.perm_insertionSort _ _).nodup_iff.mpr (List.nodup_dedup _)

/-- The references of one side, counted among those of both. -/
theorem countP_sortedRefs {c : List String} (hc : ∀ ref ∈ c, ref ∈ a ∨ ref ∈ b) :
    (sortedRefs a b).countP (fun ref => ref ∈ c) = c.dedup.length := by
  rw [List.countP_eq_length_filter]
  apply List.Perm.length_eq
  rw [List.perm_ext_iff_of_nodup (nodup_sortedRefs.filter _) (List.nodup_dedup _)]
  intro ref
  simp only [List.mem_filter, mem_sortedRefs, decide_eq_true_eq, List.mem_dedup]
  constructor
  · intro h
    exact h.2
  · intro h
    exact ⟨hc ref h, h⟩

theorem dedup_length_eq {c : List String} : c.dedup.length = c.length ↔ c.Nodup := by
  constructor
  · intro h
    rw [← List.dedup_eq_self]
    exact (List.dedup_sublist c).eq_of_length h
  · intro h
    rw [h.dedup]

end SortedRefs

/-- Two settlement records under one reference, and the payment they report. -/
def doubleReport : List LedgerSettledPayment × List SettlementRecord :=
  ([⟨10, "ref", .finite false 1000 (-2), "EUR"⟩],
   [⟨"ref", .finite false 1000 (-2), "EUR", 0, ""⟩, ⟨"ref", .finite false 1000 (-2), "EUR", 1, ""⟩])

theorem matchRecords_loses_double_report : ¬∃ r, matchRecords id doubleReport.1 doubleReport.2 = .ok r ∧
    Accounts doubleReport.1 doubleReport.2 r := by
  rintro ⟨r, hr, ha⟩
  have hresult : matchRecords id doubleReport.1 doubleReport.2 = .ok ⟨1, []⟩ := by decide +kernel
  obtain rfl := Except.ok.inj (hr.symm.trans hresult)
  exact absurd ha.settlementCount (by decide)

/-- Reconciliation accounts for every item iff no reference occurs twice on one side and no signaling
NaN is compared. -/
theorem matchRecords_accounts_iff (repr : String → String) (ledger : List LedgerSettledPayment)
    (settlement : List SettlementRecord) :
    (∃ r, matchRecords repr ledger settlement = .ok r ∧ Accounts ledger settlement r) ↔
      (ledger.map LedgerSettledPayment.externalRef).Nodup ∧
      (settlement.map SettlementRecord.externalRef).Nodup ∧
      ∀ p ∈ ledger, ∀ s ∈ settlement, p.externalRef = s.externalRef →
        p.amount.isSignaling = false ∧ s.amount.isSignaling = false := by
  have hrefs : ∀ ref ∈ sortedRefs (ledger.map LedgerSettledPayment.externalRef)
      (settlement.map SettlementRecord.externalRef), ref ∈ ledger.map LedgerSettledPayment.externalRef ∨
        ref ∈ settlement.map SettlementRecord.externalRef := fun ref h => mem_sortedRefs.mp h
  constructor
  · rintro ⟨r, hr, ha⟩
    obtain ⟨hl, hs, -⟩ := matchRefs_counts hr hrefs
    rw [countP_sortedRefs fun ref h => .inl h, ha.ledgerCount,
      ← List.length_map LedgerSettledPayment.externalRef] at hl
    rw [countP_sortedRefs fun ref h => .inr h, ha.settlementCount,
      ← List.length_map SettlementRecord.externalRef] at hs
    have hln := dedup_length_eq.mp hl.symm
    have hsn := dedup_length_eq.mp hs.symm
    refine ⟨hln, hsn, ?_⟩
    intro p hp s hs href
    have hmem : p.externalRef ∈ sortedRefs (ledger.map LedgerSettledPayment.externalRef)
        (settlement.map SettlementRecord.externalRef) := mem_sortedRefs.mpr (.inl (List.mem_map_of_mem hp))
    obtain ⟨verdict, hverdict⟩ := matchRefs_verdict hr hmem
    rw [lastByRef_of_mem hln hp, href, lastByRef_of_mem hsn hs] at hverdict
    apply Decimal.eq_ok_iff.mp
    cases heq : Decimal.eq p.amount s.amount with
    | ok b => exact ⟨b, rfl⟩
    | error e => simp [matchRef, heq] at hverdict
  · rintro ⟨hln, hsn, hcomparable⟩
    have htotal : ∃ r, matchRecords repr ledger settlement = .ok r := by
      apply matchRefs_total
      intro ref _
      cases hp : lastByRef LedgerSettledPayment.externalRef ledger ref with
      | none => cases lastByRef SettlementRecord.externalRef settlement ref <;> exact ⟨_, rfl⟩
      | some p =>
        cases hs : lastByRef SettlementRecord.externalRef settlement ref with
        | none => exact ⟨_, rfl⟩
        | some s =>
          obtain ⟨hpmem, hpref⟩ := mem_of_lastByRef hp
          obtain ⟨hsmem, hsref⟩ := mem_of_lastByRef hs
          obtain ⟨b, hb⟩ := Decimal.eq_ok_iff.mpr (hcomparable p hpmem s hsmem (hpref.trans hsref.symm))
          rw [matchRef]
          simp only [hb]
          split <;> exact ⟨_, rfl⟩
    obtain ⟨r, hr⟩ := htotal
    obtain ⟨hl, hs, pairs, hlen, hsub, hpairs⟩ := matchRefs_counts hr hrefs
    rw [countP_sortedRefs fun ref h => .inl h, hln.dedup, List.length_map] at hl
    rw [countP_sortedRefs fun ref h => .inr h, hsn.dedup, List.length_map] at hs
    exact ⟨r, hr, hl, hs, pairs, hlen, hsub.nodup nodup_sortedRefs, hpairs⟩

end PaymentLedger
