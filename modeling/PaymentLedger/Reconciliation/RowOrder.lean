import PaymentLedger.Reconciliation.Matching

namespace PaymentLedger

section Last

variable {α : Type} {ref : α → String} {xs ys : List α} {k : String} {x : α}

theorem lastByRef_append : lastByRef ref (xs ++ ys) k = (lastByRef ref ys k).or (lastByRef ref xs k) := by
  simp [lastByRef, List.find?_append]

/-- Any item may be the last one under its reference. -/
theorem exists_perm_last (h : x ∈ xs) : ∃ xs', xs.Perm xs' ∧ lastByRef ref xs' (ref x) = some x := by
  obtain ⟨a, b, rfl⟩ := List.append_of_mem h
  refine ⟨a ++ b ++ [x], ?_, ?_⟩
  · have hmiddle : (a ++ x :: b).Perm (x :: (a ++ b)) := List.perm_middle
    exact hmiddle.trans (List.perm_append_singleton x (a ++ b)).symm
  · simp [lastByRef]

/-- The items that satisfy `p` put last: under every reference that has such an item, one of them is the last. -/
theorem lastByRef_chosen (p : α → Bool) (hx : lastByRef ref (xs.filter (fun x => !p x) ++ xs.filter p) k = some x)
    (h : ∃ y ∈ xs, ref y = k ∧ p y = true) : p x = true := by
  obtain ⟨y, hy, hk, hp⟩ := h
  have hmem : k ∈ (xs.filter p).map ref := by
    rw [← hk]
    exact List.mem_map_of_mem (List.mem_filter.mpr ⟨hy, hp⟩)
  obtain ⟨z, hz⟩ := Option.isSome_iff_exists.mp (lastByRef_isSome.mpr hmem)
  rw [lastByRef_append, hz, Option.some_or] at hx
  obtain rfl := Option.some.inj hx
  exact (List.mem_filter.mp (mem_of_lastByRef hz).1).2

theorem perm_chosen (p : α → Bool) (xs : List α) : xs.Perm (xs.filter (fun x => !p x) ++ xs.filter p) :=
  (List.filter_append_perm (fun x => !p x) xs).symm.trans (by simp)

end Last

theorem sortedRefs_perm {a a' b b' : List String} (ha : a.Perm a') (hb : b.Perm b') :
    sortedRefs a b = sortedRefs a' b' := by
  have hperm : (sortedRefs a b).Perm (sortedRefs a' b') :=
    (List.perm_insertionSort _ _).trans (((ha.append hb).dedup).trans (List.perm_insertionSort _ _).symm)
  exact hperm.eq_of_pairwise' (List.pairwise_insertionSort _ _) (List.pairwise_insertionSort _ _)

section Orders

variable {repr : String → String} {ledger ledger' : List LedgerSettledPayment}
  {settlement settlement' : List SettlementRecord} {refs : List String} {r : ReconciliationResult}

/-- What is reported under a reference does not depend on which of the items under it is the last: the two sides
have one each, up to what a report does not show, or every pair agrees. -/
def Interchangeable (ledger : List LedgerSettledPayment) (settlement : List SettlementRecord)
    (ref : String) : Prop :=
  ((∃ p ∈ ledger, p.externalRef = ref) ∧ (∃ s ∈ settlement, s.externalRef = ref) ∧
    ∀ p ∈ ledger, p.externalRef = ref → ∀ s ∈ settlement, s.externalRef = ref → Agree p s) ∨
  ((∀ p ∈ ledger, p.externalRef = ref → ∀ p' ∈ ledger, p'.externalRef = ref → p.paymentId = p'.paymentId ∧
      p.amount = p'.amount ∧ ((∃ s ∈ settlement, s.externalRef = ref) → p.currency = p'.currency)) ∧
    ∀ s ∈ settlement, s.externalRef = ref → ∀ s' ∈ settlement, s'.externalRef = ref →
      s.amount = s'.amount ∧ ((∃ p ∈ ledger, p.externalRef = ref) → s.currency = s'.currency))

/-- Under some reference every comparison raises. -/
def AlwaysSignals (ledger : List LedgerSettledPayment) (settlement : List SettlementRecord) : Prop :=
  ∃ ref, (∃ p ∈ ledger, p.externalRef = ref) ∧ (∃ s ∈ settlement, s.externalRef = ref) ∧
    ((∀ p ∈ ledger, p.externalRef = ref → p.amount.isSignaling = true) ∨
      ∀ s ∈ settlement, s.externalRef = ref → s.amount.isSignaling = true)

theorem AlwaysSignals.perm (h : AlwaysSignals ledger settlement) (hl : ledger.Perm ledger')
    (hs : settlement.Perm settlement') : AlwaysSignals ledger' settlement' := by
  unfold AlwaysSignals at h ⊢
  simpa only [hl.mem_iff, hs.mem_iff] using h

theorem matchRefs_congr (h : ∀ ref ∈ refs, matchRef repr ref (lastByRef LedgerSettledPayment.externalRef ledger ref)
      (lastByRef SettlementRecord.externalRef settlement ref) =
    matchRef repr ref (lastByRef LedgerSettledPayment.externalRef ledger' ref)
      (lastByRef SettlementRecord.externalRef settlement' ref)) :
    matchRefs repr ledger settlement refs = matchRefs repr ledger' settlement' refs := by
  induction refs with
  | nil => rfl
  | cons ref refs ih =>
    rw [matchRefs, matchRefs, h ref List.mem_cons_self, ih fun x hx => h x (List.mem_cons_of_mem _ hx)]

theorem matchRef_signal {ref : String} {p : Option LedgerSettledPayment}
    {s : Option SettlementRecord} {e : DecimalSignal} :
    matchRef repr ref p s = .error e ↔
      e = .invalidOperation ∧ ∃ x y, p = some x ∧ s = some y ∧
      (x.amount.isSignaling || y.amount.isSignaling) = true := by
  cases p with
  | none => cases s <;> simp [matchRef]
  | some x =>
    cases s with
    | none => simp [matchRef]
    | some y =>
      by_cases hsignal : (x.amount.isSignaling || y.amount.isSignaling) = true
      · have heq : Decimal.eq x.amount y.amount = .error .invalidOperation := by
          unfold Decimal.eq
          rw [if_pos hsignal]
        simp only [matchRef, heq, Except.error.injEq, Option.some.injEq]
        constructor
        · rintro rfl
          exact ⟨rfl, x, y, rfl, rfl, hsignal⟩
        · rintro ⟨rfl, -⟩
          rfl
      · have hcomparable : x.amount.isSignaling = false ∧ y.amount.isSignaling = false := by simpa using hsignal
        obtain ⟨b, hb⟩ := Decimal.eq_ok_iff.mpr hcomparable
        simp only [matchRef, hb, Option.some.injEq]
        constructor
        · intro h
          split at h <;> cases h
        · rintro ⟨-, x', y', rfl, rfl, h⟩
          exact absurd h hsignal

theorem matchRefs_signal
    (h : ∃ ref ∈ refs, ∃ e, matchRef repr ref (lastByRef LedgerSettledPayment.externalRef ledger ref)
      (lastByRef SettlementRecord.externalRef settlement ref) = .error e) :
    matchRefs repr ledger settlement refs = .error .invalidOperation := by
  cases hr : matchRefs repr ledger settlement refs with
  | ok r =>
    obtain ⟨ref, href, e, he⟩ := h
    obtain ⟨verdict, hverdict⟩ := matchRefs_verdict hr href
    rw [he] at hverdict
    cases hverdict
  | error e =>
    clear h
    induction refs with
    | nil => cases hr
    | cons ref refs ih =>
      rw [matchRefs] at hr
      cases hv : matchRef repr ref (lastByRef LedgerSettledPayment.externalRef ledger ref)
          (lastByRef SettlementRecord.externalRef settlement ref) with
      | error e' =>
        obtain ⟨rfl, -⟩ := matchRef_signal.mp hv
        rw [hv] at hr
        cases hr
        rfl
      | ok verdict =>
        cases hrest : matchRefs repr ledger settlement refs with
        | error e' =>
          rw [hv, hrest] at hr
          cases hr
          exact ih hrest
        | ok rest =>
          rw [hv, hrest] at hr
          cases verdict <;> cases hr

theorem matchRecords_signals (h : AlwaysSignals ledger settlement) :
    matchRecords repr ledger settlement = .error .invalidOperation := by
  obtain ⟨ref, ⟨p, hp, hpref⟩, ⟨s, hs, hsref⟩, hsignal⟩ := h
  apply matchRefs_signal
  have hpmem : ref ∈ ledger.map LedgerSettledPayment.externalRef := hpref ▸ List.mem_map_of_mem hp
  have hsmem : ref ∈ settlement.map SettlementRecord.externalRef := hsref ▸ List.mem_map_of_mem hs
  refine ⟨ref, mem_sortedRefs.mpr (.inl hpmem), .invalidOperation, matchRef_signal.mpr ⟨rfl, ?_⟩⟩
  obtain ⟨x, hx⟩ := Option.isSome_iff_exists.mp (lastByRef_isSome.mpr hpmem)
  obtain ⟨y, hy⟩ := Option.isSome_iff_exists.mp (lastByRef_isSome.mpr hsmem)
  refine ⟨x, y, hx, hy, ?_⟩
  rw [Bool.or_eq_true]
  exact hsignal.imp (fun h => h x (mem_of_lastByRef hx).1 (mem_of_lastByRef hx).2)
    fun h => h y (mem_of_lastByRef hy).1 (mem_of_lastByRef hy).2

theorem matchRef_ref {ref : String} {p : Option LedgerSettledPayment} {s : Option SettlementRecord}
    {b : ReconciliationBreak} (h : matchRef repr ref p s = .ok (some b)) : b.externalRef = ref := by
  cases p with
  | none =>
    cases s with
    | none => cases h
    | some y =>
      cases h
      rfl
  | some x =>
    cases s with
    | none =>
      cases h
      rfl
    | some y =>
      rw [matchRef] at h
      cases heq : Decimal.eq x.amount y.amount with
      | error e =>
        simp only [heq] at h
        cases h
      | ok amountsMatch =>
        simp only [heq] at h
        split at h
        · cases h
        · cases h
          rfl

/-- A verdict can be read off the result. -/
theorem matchRefs_find (h : matchRefs repr ledger settlement refs = .ok r) (hn : refs.Nodup)
    {ref : String} (href : ref ∈ refs) :
    matchRef repr ref (lastByRef LedgerSettledPayment.externalRef ledger ref)
      (lastByRef SettlementRecord.externalRef settlement ref) =
        .ok (r.breaks.find? fun b => decide (b.externalRef = ref)) := by
  -- no break is under a reference that was not looked at
  have other {refs : List String} {r : ReconciliationResult} (h : matchRefs repr ledger settlement refs = .ok r) :
      ∀ b ∈ r.breaks, b.externalRef ∈ refs := by
    induction refs generalizing r with
    | nil =>
      cases h
      simp
    | cons ref refs ih =>
      obtain ⟨verdict, rest, hverdict, hrest, rfl⟩ := matchRefs_cons.mp h
      intro b hb
      cases verdict with
      | none => exact List.mem_cons_of_mem _ (ih hrest b hb)
      | some b' =>
        rcases List.mem_cons.mp hb with rfl | hb
        · rw [matchRef_ref hverdict]
          exact List.mem_cons_self
        · exact List.mem_cons_of_mem _ (ih hrest b hb)
  induction refs generalizing r with
  | nil => cases href
  | cons ref' refs ih =>
    obtain ⟨verdict, rest, hverdict, hrest, rfl⟩ := matchRefs_cons.mp h
    obtain ⟨hnotin, hn⟩ := List.nodup_cons.mp hn
    rcases List.mem_cons.mp href with rfl | href
    · cases verdict with
      | none =>
        have hnone : rest.breaks.find? (fun b => decide (b.externalRef = ref)) = none := by
          rw [List.find?_eq_none]
          intro b hb heq
          rw [decide_eq_true_eq] at heq
          exact hnotin (heq ▸ other hrest b hb)
        rw [hverdict]
        exact congrArg Except.ok hnone.symm
      | some b =>
        rw [hverdict, List.find?_cons_of_pos (by simpa using matchRef_ref hverdict)]
    · have hne : ref' ≠ ref := by
        rintro rfl
        exact hnotin href
      have hfind := ih hrest hn href
      cases verdict with
      | none => exact hfind
      | some b =>
        rw [List.find?_cons_of_neg (by simpa [matchRef_ref hverdict] using hne)]
        exact hfind

theorem lastByRef_perm_none {α : Type} {ref : α → String} {xs ys : List α} (h : xs.Perm ys) (k : String) :
    lastByRef ref xs k = none ↔ lastByRef ref ys k = none := by
  rw [← Option.not_isSome_iff_eq_none, ← Option.not_isSome_iff_eq_none, lastByRef_isSome, lastByRef_isSome,
    (h.map ref).mem_iff]

/-- Under an interchangeable reference the verdict stays. -/
theorem Interchangeable.verdict {ref : String} (h : Interchangeable ledger settlement ref)
    (hl : ledger.Perm ledger')
    (hs : settlement.Perm settlement') :
    matchRef repr ref (lastByRef LedgerSettledPayment.externalRef ledger' ref)
      (lastByRef SettlementRecord.externalRef settlement' ref) =
    matchRef repr ref (lastByRef LedgerSettledPayment.externalRef ledger ref)
      (lastByRef SettlementRecord.externalRef settlement ref) := by
  have hlnone := @lastByRef_perm_none _ LedgerSettledPayment.externalRef _ _ hl ref
  have hsnone := @lastByRef_perm_none _ SettlementRecord.externalRef _ _ hs ref
  have ledgerMem {x : LedgerSettledPayment} (hx : lastByRef LedgerSettledPayment.externalRef ledger' ref = some x) :
      x ∈ ledger ∧ x.externalRef = ref := by
    obtain ⟨hmem, href⟩ := mem_of_lastByRef hx
    exact ⟨hl.mem_iff.mpr hmem, href⟩
  have settlementMem {y : SettlementRecord} (hy : lastByRef SettlementRecord.externalRef settlement' ref = some y) :
      y ∈ settlement ∧ y.externalRef = ref := by
    obtain ⟨hmem, href⟩ := mem_of_lastByRef hy
    exact ⟨hs.mem_iff.mpr hmem, href⟩
  cases hp : lastByRef LedgerSettledPayment.externalRef ledger ref with
  | none =>
    rw [hlnone.mp hp]
    cases hy : lastByRef SettlementRecord.externalRef settlement ref with
    | none => rw [hsnone.mp hy]
    | some y =>
      cases hy' : lastByRef SettlementRecord.externalRef settlement' ref with
      | none =>
        rw [hsnone.mpr hy'] at hy
        cases hy
      | some y' =>
        rcases h with ⟨⟨p, hpmem, hpref⟩, -⟩ | ⟨-, hsame⟩
        · have hsome :=
            lastByRef_isSome.mpr
              (hpref ▸ List.mem_map_of_mem hpmem : ref ∈ ledger.map LedgerSettledPayment.externalRef)
          rw [hp] at hsome
          cases hsome
        · obtain ⟨hamount, -⟩ :=
            hsame y' (settlementMem hy').1 (settlementMem hy').2 y (mem_of_lastByRef hy).1 (mem_of_lastByRef hy).2
          rw [matchRef, matchRef, hamount]
  | some x =>
    cases hx' : lastByRef LedgerSettledPayment.externalRef ledger' ref with
    | none =>
      rw [hlnone.mpr hx'] at hp
      cases hp
    | some x' =>
      obtain ⟨hxmem, hxref⟩ := mem_of_lastByRef hp
      obtain ⟨hxmem', hxref'⟩ := ledgerMem hx'
      cases hy : lastByRef SettlementRecord.externalRef settlement ref with
      | none =>
        rw [hsnone.mp hy]
        rcases h with ⟨-, ⟨s, hsmem, hsref⟩, -⟩ | ⟨hsame, -⟩
        · have hsome :=
            lastByRef_isSome.mpr
              (hsref ▸ List.mem_map_of_mem hsmem : ref ∈ settlement.map SettlementRecord.externalRef)
          rw [hy] at hsome
          cases hsome
        · obtain ⟨hid, hamount, -⟩ := hsame x' hxmem' hxref' x hxmem hxref
          rw [matchRef, matchRef, hid, hamount]
      | some y =>
        cases hy' : lastByRef SettlementRecord.externalRef settlement' ref with
        | none =>
          rw [hsnone.mpr hy'] at hy
          cases hy
        | some y' =>
          obtain ⟨hymem, hyref⟩ := mem_of_lastByRef hy
          obtain ⟨hymem', hyref'⟩ := settlementMem hy'
          rcases h with ⟨-, -, hagree⟩ | ⟨hpsame, hssame⟩
          · have hold := hagree x hxmem hxref y hymem hyref
            have hnew := hagree x' hxmem' hxref' y' hymem' hyref'
            rw [matchRef_none.mpr ⟨y, rfl, hold.amount, hold.currency⟩,
              matchRef_none.mpr ⟨y', rfl, hnew.amount, hnew.currency⟩]
          · obtain ⟨hid, hamount, hcurrency⟩ := hpsame x' hxmem' hxref' x hxmem hxref
            obtain ⟨hsamount, hscurrency⟩ := hssame y' hymem' hyref' y hymem hyref
            rw [matchRef, matchRef, hid, hamount, hcurrency ⟨y, hymem, hyref⟩, hsamount,
              hscurrency ⟨x, hxmem, hxref⟩]

/-- Where something can be compared under every reference, some order of the rows gives a result: the comparable
items last. -/
theorem exists_order_ok (h : ¬AlwaysSignals ledger settlement) :
    ∃ ledger' settlement' r, ledger.Perm ledger' ∧ settlement.Perm settlement' ∧
      matchRecords repr ledger' settlement' = .ok r := by
  have hl := perm_chosen (fun p : LedgerSettledPayment => !p.amount.isSignaling) ledger
  have hs := perm_chosen (fun s : SettlementRecord => !s.amount.isSignaling) settlement
  suffices htotal : ∃ r, matchRecords repr _ _ = .ok r by
    obtain ⟨r, hr⟩ := htotal
    exact ⟨_, _, r, hl, hs, hr⟩
  apply matchRefs_total
  intro ref _
  cases hv : matchRef repr ref _ _ with
  | ok verdict => exact ⟨verdict, rfl⟩
  | error e =>
    obtain ⟨-, x, y, hx, hy, hsignal⟩ := matchRef_signal.mp hv
    exfalso
    apply h
    obtain ⟨hxmem, hxref⟩ := mem_of_lastByRef hx
    obtain ⟨hymem, hyref⟩ := mem_of_lastByRef hy
    rw [← hl.mem_iff] at hxmem
    rw [← hs.mem_iff] at hymem
    refine ⟨ref, ⟨x, hxmem, hxref⟩, ⟨y, hymem, hyref⟩, ?_⟩
    by_contra hcomparable
    push Not at hcomparable
    obtain ⟨⟨p, hp, hpref, hpsignal⟩, s, hs, hsref, hssignal⟩ := hcomparable
    have hxlast := lastByRef_chosen _ hx ⟨p, hp, hpref, by simpa using hpsignal⟩
    have hylast := lastByRef_chosen _ hy ⟨s, hs, hsref, by simpa using hssignal⟩
    simp only [Bool.not_eq_true'] at hxlast hylast
    rw [hxlast, hylast] at hsignal
    cases hsignal

/-- What an amount mismatch shows. -/
theorem matchRef_mismatch {ref : String} {p : LedgerSettledPayment} {s : SettlementRecord} {b : ReconciliationBreak}
    (h : matchRef repr ref (some p) (some s) = .ok (some b)) : b.paymentId = some p.paymentId ∧
      b.ledgerAmount = some p.amount ∧ b.settlementAmount = some s.amount ∧
      b.details = "ledger shows " ++ p.amount.str ++ " " ++ p.currency ++ ", " ++
        "settlement file shows " ++ s.amount.str ++ " " ++ s.currency := by
  rw [matchRef] at h
  cases heq : Decimal.eq p.amount s.amount with
  | error e =>
    simp only [heq] at h
    cases h
  | ok amountsMatch =>
    simp only [heq] at h
    split at h
    · cases h
    · cases h
      exact ⟨rfl, rfl, rfl, rfl⟩

/-- Pairs that all get one verdict are interchangeable. -/
theorem interchangeable_of_pairs {ref : String} {verdict : Option ReconciliationBreak}
    (hledger : ∃ p ∈ ledger, p.externalRef = ref) (hsettlement : ∃ s ∈ settlement, s.externalRef = ref)
    (h : ∀ p ∈ ledger, p.externalRef = ref → ∀ s ∈ settlement, s.externalRef = ref →
      matchRef repr ref (some p) (some s) = .ok verdict) : Interchangeable ledger settlement ref := by
  cases verdict with
  | none =>
    left
    refine ⟨hledger, hsettlement, ?_⟩
    intro p hp hpref s hs hsref
    obtain ⟨y, hy, hamount, hcurrency⟩ := matchRef_none.mp (h p hp hpref s hs hsref)
    obtain rfl := Option.some.inj hy
    exact ⟨hpref.trans hsref.symm, hamount, hcurrency⟩
  | some b =>
    right
    obtain ⟨p₀, hp₀, hpref₀⟩ := hledger
    obtain ⟨s₀, hs₀, hsref₀⟩ := hsettlement
    constructor
    · intro p hp hpref p' hp' hpref'
      obtain ⟨hid, hamount, -, hdetails⟩ := matchRef_mismatch (h p hp hpref s₀ hs₀ hsref₀)
      obtain ⟨hid', hamount', -, hdetails'⟩ := matchRef_mismatch (h p' hp' hpref' s₀ hs₀ hsref₀)
      have hsameAmount := Option.some.inj (hamount.symm.trans hamount')
      refine ⟨Option.some.inj (hid.symm.trans hid'), hsameAmount, fun _ => ?_⟩
      have htext := hdetails.symm.trans hdetails'
      rw [hsameAmount] at htext
      simpa only [String.append_left_inj, String.append_right_inj] using htext
    · intro s hs hsref s' hs' hsref'
      obtain ⟨-, -, hamount, hdetails⟩ := matchRef_mismatch (h p₀ hp₀ hpref₀ s hs hsref)
      obtain ⟨-, -, hamount', hdetails'⟩ := matchRef_mismatch (h p₀ hp₀ hpref₀ s' hs' hsref')
      have hsameAmount := Option.some.inj (hamount.symm.trans hamount')
      refine ⟨hsameAmount, fun _ => ?_⟩
      have htext := hdetails.symm.trans hdetails'
      rw [hsameAmount] at htext
      simpa only [String.append_left_inj, String.append_right_inj] using htext

theorem lastByRef_eq_none {α : Type} {ref : α → String} {xs : List α} {k : String} (h : ¬∃ x ∈ xs, ref x = k) :
    lastByRef ref xs k = none := by
  rw [← Option.not_isSome_iff_eq_none, lastByRef_isSome]
  intro hmem
  obtain ⟨x, hx, hk⟩ := List.mem_map.mp hmem
  exact h ⟨x, hx, hk⟩

/-- The result is the same in every order of the rows iff every comparison under some reference raises, or what is
reported under each reference does not depend on which item is the last. -/
theorem matchRecords_order_iff (repr : String → String) (ledger : List LedgerSettledPayment)
    (settlement : List SettlementRecord) :
    (∀ ledger' settlement', ledger.Perm ledger' → settlement.Perm settlement' →
      matchRecords repr ledger' settlement' = matchRecords repr ledger settlement) ↔
      AlwaysSignals ledger settlement ∨ ∀ ref, Interchangeable ledger settlement ref := by
  constructor
  · intro hsame
    by_cases hsignals : AlwaysSignals ledger settlement
    · exact .inl hsignals
    right
    obtain ⟨ledger₀, settlement₀, r, hl₀, hs₀, hr₀⟩ := @exists_order_ok repr _ _ hsignals
    have hr := (hsame _ _ hl₀ hs₀).symm.trans hr₀
    -- the verdict on a reference, whichever items are last
    have verdict {ref : String} (p : Option LedgerSettledPayment) (s : Option SettlementRecord)
        (hp : ∃ ledger', ledger.Perm ledger' ∧ lastByRef LedgerSettledPayment.externalRef ledger' ref = p)
        (hs : ∃ settlement', settlement.Perm settlement' ∧
          lastByRef SettlementRecord.externalRef settlement' ref = s)
        (href : ref ∈ ledger.map LedgerSettledPayment.externalRef ∨
          ref ∈ settlement.map SettlementRecord.externalRef) :
        matchRef repr ref p s = .ok (r.breaks.find? fun b => decide (b.externalRef = ref)) := by
      obtain ⟨ledger', hl, rfl⟩ := hp
      obtain ⟨settlement', hs, rfl⟩ := hs
      refine matchRefs_find ((hsame _ _ hl hs).trans hr) nodup_sortedRefs (mem_sortedRefs.mpr ?_)
      rw [← (hl.map _).mem_iff, ← (hs.map _).mem_iff]
      exact href
    have anyPayment {p : LedgerSettledPayment} (hp : p ∈ ledger) : ∃ ledger', ledger.Perm ledger' ∧
        lastByRef LedgerSettledPayment.externalRef ledger' p.externalRef = some p := exists_perm_last hp
    have anyRecord {s : SettlementRecord} (hs : s ∈ settlement) : ∃ settlement', settlement.Perm settlement' ∧
        lastByRef SettlementRecord.externalRef settlement' s.externalRef = some s := exists_perm_last hs
    intro ref
    by_cases hledger : ∃ p ∈ ledger, p.externalRef = ref
    · by_cases hsettlement : ∃ s ∈ settlement, s.externalRef = ref
      · apply @interchangeable_of_pairs repr _ _ ref (r.breaks.find? fun b => decide (b.externalRef = ref))
          hledger hsettlement
        intro p hp hpref s hs hsref
        subst hpref
        exact verdict _ _ (anyPayment hp) (hsref ▸ anyRecord hs) (.inl (List.mem_map_of_mem hp))
      · have hnone : lastByRef SettlementRecord.externalRef settlement ref = none := lastByRef_eq_none hsettlement
        right
        constructor
        · intro p hp hpref p' hp' hpref'
          subst hpref
          have hv := verdict (some p) none (anyPayment hp) ⟨_, .refl _, hnone⟩ (.inl (List.mem_map_of_mem hp))
          have hv' := verdict (some p') none (hpref' ▸ anyPayment hp') ⟨_, .refl _, hnone⟩
            (.inl (List.mem_map_of_mem hp))
          have hsameBreak := hv.trans hv'.symm
          simp only [matchRef, Except.ok.injEq, Option.some.injEq, ReconciliationBreak.mk.injEq] at hsameBreak
          exact ⟨hsameBreak.2.2.1, hsameBreak.2.2.2.1, fun h => absurd h hsettlement⟩
        · intro s hs hsref
          exact absurd ⟨s, hs, hsref⟩ hsettlement
    · have hnone : lastByRef LedgerSettledPayment.externalRef ledger ref = none := lastByRef_eq_none hledger
      right
      constructor
      · intro p hp hpref
        exact absurd ⟨p, hp, hpref⟩ hledger
      · intro s hs hsref s' hs' hsref'
        subst hsref
        have hv := verdict none (some s) ⟨_, .refl _, hnone⟩ (anyRecord hs) (.inr (List.mem_map_of_mem hs))
        have hv' := verdict none (some s') ⟨_, .refl _, hnone⟩ (hsref' ▸ anyRecord hs')
          (.inr (List.mem_map_of_mem hs))
        have hsameBreak := hv.trans hv'.symm
        simp only [matchRef, Except.ok.injEq, Option.some.injEq, ReconciliationBreak.mk.injEq] at hsameBreak
        exact ⟨hsameBreak.2.2.2.2.1, fun h => absurd h hledger⟩
  · rintro hcase ledger' settlement' hl hs
    rcases hcase with hsignals | hall
    · rw [matchRecords_signals hsignals, matchRecords_signals (hsignals.perm hl hs)]
    · rw [matchRecords, matchRecords, sortedRefs_perm (hl.map _).symm (hs.map _).symm]
      exact matchRefs_congr fun ref _ => (hall ref).verdict hl hs

/-- Two payments under one reference, of which the settlement record reports the second. -/
def sharedReference : List LedgerSettledPayment × List SettlementRecord :=
  ([⟨10, "ref", .finite false 1000 (-2), "EUR"⟩, ⟨11, "ref", .finite false 2000 (-2), "EUR"⟩],
   [⟨"ref", .finite false 2000 (-2), "EUR", 0, ""⟩])

theorem matchRecords_order_matters : ¬∀ ledger' settlement', sharedReference.1.Perm ledger' →
    sharedReference.2.Perm settlement' →
      matchRecords id ledger' settlement' = matchRecords id sharedReference.1 sharedReference.2 := by
  intro h
  have hsame := h sharedReference.1.reverse sharedReference.2 (List.reverse_perm _).symm (.refl _)
  exact absurd hsame (by decide +kernel)

end Orders
end PaymentLedger
