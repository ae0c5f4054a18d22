import PaymentLedger.Ledger.Amounts
import PaymentLedger.Math.Rounding

namespace PaymentLedger

open Decimal (Fits)

namespace Decimal

/-- A sum is a number of at most 28 digits, whatever is added. -/
theorem add_fits {x y z : Decimal} (h : add defaultContext x y = .ok z) (hz : z.IsFinite) :
    Fits defaultContext z.toRat := by
  unfold add at h
  split at h
  · cases h
  · split at h
    · cases h
      exact hz.elim
    · cases h
      exact hz.elim
    · split at h
      · cases h
        exact hz.elim
      · cases h
    · cases h
      exact hz.elim
    · cases h
      exact hz.elim
    · exact fix_fits (by decide) (by decide) h

theorem positive_of_toRat {d : Decimal} (hd : d.IsFinite) (h : 0 < d.toRat) : d.nonPositive = .ok false := by
  cases d with
  | finite s c e =>
    have hp : (0 : ℚ) < 10 ^ e := by positivity
    cases s with
    | true =>
      have hneg : (finite true c e).toRat ≤ 0 := by
        rw [toRat_finite, if_pos rfl]
        exact mul_nonpos_of_nonpos_of_nonneg (by simp) hp.le
      exact absurd h hneg.not_gt
    | false =>
      have hc : c ≠ 0 := by
        rintro rfl
        simp [toRat] at h
      simp [nonPositive, hc]
  | infinity s => exact hd.elim
  | nan s => exact hd.elim

end Decimal

/-- The exact credits equal the exact debits in every currency. -/
def NetsToZero (lines : List JournalLine) : Prop := ∀ ccy, netRat lines ccy = 0

/-- The map has the unbalanced currencies as its keys, each with its exact net. -/
structure ReportsNets (lines : List JournalLine) (net : List (String × Decimal)) : Prop where
  keys : (net.map Prod.fst).Nodup
  unbalanced : ∀ ccy, ccy ∈ net.map Prod.fst ↔ netRat lines ccy ≠ 0
  exact : ∀ p ∈ net, p.2.IsFinite ∧ p.2.toRat = netRat lines p.1

/-- Balance is decided exactly: balanced lines pass, the others are refused with the exact nets, and the order of
the lines does not matter. -/
structure DecidesExactly (lines : List JournalLine) : Prop where
  passes : NetsToZero lines → validateJournalEntry lines = .ok ()
  refuses : ¬NetsToZero lines → ∃ net, validateJournalEntry lines = .error (.unbalancedEntry net) ∧
    ReportsNets lines net
  permuted : ∀ lines', lines'.Perm lines →
    (validateJournalEntry lines' = .ok () ↔ validateJournalEntry lines = .ok ())

/-- Whichever of the lines are added up, their exact nets are numbers of at most 28 digits. -/
def PartsFit (lines : List JournalLine) : Prop := ∀ part, part.Subperm lines →
    ∀ ccy, Fits defaultContext (netRat part ccy)

section Verdict

variable {lines : List JournalLine} {net : List (String × Decimal)}

/-- The entries of the map that are not zero. -/
def unbalancedOf (net : List (String × Decimal)) : List (String × Decimal) :=
  net.filter fun entry => !entry.2.isZero

theorem validateJournalEntry_net (hne : lines ≠ []) (hpos : ∀ line ∈ lines, line.amount.nonPositive = .ok false)
    (hnet : netByCurrency lines = .ok net) : validateJournalEntry lines =
      if (unbalancedOf net).isEmpty then .ok () else .error (.unbalancedEntry (unbalancedOf net)) := by
  cases lines with
  | nil => exact absurd rfl hne
  | cons line rest =>
    have hforM : (line :: rest).forM assertPositive = .ok () := forM_assertPositive_ok.mpr hpos
    show ((line :: rest).forM assertPositive >>= fun _ => _) = _
    rw [hforM]
    simp only [bind, Except.bind, hnet, unbalancedOf]
    rfl

theorem validateJournalEntry_signal {s : DecimalSignal} (hne : lines ≠ [])
    (hpos : ∀ line ∈ lines, line.amount.nonPositive = .ok false) (hnet : netByCurrency lines = .error s) :
    validateJournalEntry lines = .error (.signal s) := by
  cases lines with
  | nil => exact absurd rfl hne
  | cons line rest =>
    have hforM : (line :: rest).forM assertPositive = .ok () := forM_assertPositive_ok.mpr hpos
    show ((line :: rest).forM assertPositive >>= fun _ => _) = _
    rw [hforM]
    simp only [bind, Except.bind, hnet]
    rfl

theorem netValue_of_mem (h : (net.map Prod.fst).Nodup) {p : String × Decimal} (hp : p ∈ net) :
    netValue net p.1 = p.2.toRat := by
  rw [netValue, lookup_of_mem h hp]
  rfl

theorem mem_of_netValue {ccy : String} (h : netValue net ccy ≠ 0) :
    ∃ n, (ccy, n) ∈ net ∧ n.toRat = netValue net ccy := by
  cases hl : net.lookup ccy with
  | none =>
    rw [netValue, hl] at h
    exact absurd rfl h
  | some n =>
    obtain ⟨l₁, l₂, rfl, -⟩ := List.lookup_eq_some_iff.mp hl
    refine ⟨n, by simp, ?_⟩
    rw [netValue, hl]
    rfl

/-- Exact running nets give the exact report. -/
theorem unbalancedOf_reports (hnodup : (net.map Prod.fst).Nodup) (hfin : ∀ p ∈ net, p.2.IsFinite)
    (hval : ∀ ccy, netValue net ccy = netRat lines ccy) : ReportsNets lines (unbalancedOf net) := by
  have hmem {p : String × Decimal} : p ∈ unbalancedOf net ↔ p ∈ net ∧ p.2.toRat ≠ 0 := by
    rw [unbalancedOf, List.mem_filter]
    refine and_congr_right fun hp => ?_
    rw [ne_eq, ← Decimal.isZero_iff (hfin p hp)]
    simp
  refine ⟨hnodup.sublist (List.filter_sublist.map _), ?_, ?_⟩
  · intro ccy
    rw [List.mem_map]
    constructor
    · rintro ⟨p, hp, rfl⟩
      obtain ⟨hin, hne⟩ := hmem.mp hp
      rwa [← hval, netValue_of_mem hnodup hin]
    · intro hne
      rw [← hval] at hne
      obtain ⟨n, hn, hvalue⟩ := mem_of_netValue hne
      refine ⟨(ccy, n), hmem.mpr ⟨hn, ?_⟩, rfl⟩
      rw [hvalue]
      exact hne
  · intro p hp
    obtain ⟨hin, -⟩ := hmem.mp hp
    exact ⟨hfin p hin, by rw [← hval, netValue_of_mem hnodup hin]⟩

theorem reports_empty_iff (h : ReportsNets lines net) : net = [] ↔ NetsToZero lines := by
  constructor
  · intro hnil ccy
    by_contra hne
    have hkey := (h.unbalanced ccy).mpr hne
    rw [hnil] at hkey
    cases hkey
  · intro hbalanced
    apply List.eq_nil_iff_forall_not_mem.mpr
    intro p hp
    exact (h.unbalanced p.1).mp (List.mem_map_of_mem hp) (hbalanced p.1)

/-- Without rounding balanced lines pass and the others are refused with their exact nets. -/
theorem Unrounded.verdict (h : Unrounded lines) (hne : lines ≠ [])
    (hpos : ∀ line ∈ lines, line.amount.IsFinite ∧ 0 < line.amount.toRat) :
    (NetsToZero lines → validateJournalEntry lines = .ok ()) ∧ (¬NetsToZero lines →
      ∃ net, validateJournalEntry lines = .error (.unbalancedEntry net) ∧ ReportsNets lines net) := by
  obtain ⟨net, hnet, hfin, hval⟩ := netByCurrency_exact (fun line hline => (hpos line hline).1) h
  have hreports := unbalancedOf_reports (netByCurrency_nodup hnet) hfin hval
  have hverdict := validateJournalEntry_net hne
    (fun line hline => Decimal.positive_of_toRat (hpos line hline).1 (hpos line hline).2) hnet
  have hempty := reports_empty_iff hreports
  constructor
  · intro hbalanced
    rw [hverdict, hempty.mpr hbalanced]
    rfl
  · intro hunbalanced
    have hsome : (unbalancedOf net).isEmpty = false := by
      rw [Bool.eq_false_iff, ne_eq, List.isEmpty_iff, hempty]
      exact hunbalanced
    refine ⟨unbalancedOf net, ?_, hreports⟩
    rw [hverdict, hsome]
    rfl

theorem Unrounded.passes_iff (h : Unrounded lines) (hne : lines ≠ [])
    (hpos : ∀ line ∈ lines, line.amount.IsFinite ∧ 0 < line.amount.toRat) :
    validateJournalEntry lines = .ok () ↔ NetsToZero lines := by
  obtain ⟨hpasses, hrefuses⟩ := h.verdict hne hpos
  refine ⟨?_, hpasses⟩
  intro hok
  by_contra hunbalanced
  obtain ⟨net, herror, -⟩ := hrefuses hunbalanced
  rw [hok] at herror
  cases herror

theorem netRat_perm {lines' : List JournalLine} (h : lines'.Perm lines) (ccy : String) :
    netRat lines' ccy = netRat lines ccy := ((h.filter _).map _).sum_eq

/-- In whatever order the lines stand, no sum of them is rounded. -/
theorem PartsFit.unrounded {lines' : List JournalLine} (h : PartsFit lines) (hperm : lines'.Perm lines) :
    Unrounded lines' := by
  constructor
  · intro line hline hd
    have hfits := h [line] (List.singleton_subperm_iff.mpr (hperm.mem_iff.mp hline)) line.currency
    have hsigned : line.signedRat = -line.amount.toRat := by rw [JournalLine.signedRat, hd]
    rw [netRat_singleton, if_pos rfl, hsigned] at hfits
    simpa using hfits.neg
  · intro pre hpre
    exact h pre (hpre.sublist.subperm.trans hperm.subperm)

theorem PartsFit.decidesExactly (h : PartsFit lines) (hne : lines ≠ [])
    (hpos : ∀ line ∈ lines, line.amount.IsFinite ∧ 0 < line.amount.toRat) : DecidesExactly lines := by
  have hunrounded := h.unrounded (List.Perm.refl lines)
  obtain ⟨hpasses, hrefuses⟩ := hunrounded.verdict hne hpos
  refine ⟨hpasses, hrefuses, ?_⟩
  intro lines' hperm
  have hne' : lines' ≠ [] := fun hnil => hne (List.nil_perm.mp (hnil ▸ hperm))
  have hpos' : ∀ line ∈ lines', line.amount.IsFinite ∧ 0 < line.amount.toRat :=
    fun line hline => hpos line (hperm.mem_iff.mp hline)
  rw [(h.unrounded hperm).passes_iff hne' hpos', hunrounded.passes_iff hne hpos]
  simp only [NetsToZero, netRat_perm hperm]

/-- Whole cents that are small together fit, whichever are added up. -/
theorem partsFit_cents (hcents : ∀ line ∈ lines, ∃ z : ℤ, line.amount.toRat = z / 100)
    (hsum : (lines.map fun line => |line.amount.toRat|).sum < 10 ^ 26) : PartsFit lines := by
  intro part hpart
  obtain ⟨chosen, hperm, hsub⟩ := hpart
  have hle : (part.map fun line => |line.amount.toRat|).sum ≤ (lines.map fun line => |line.amount.toRat|).sum := by
    rw [← (hperm.map fun line => |line.amount.toRat|).sum_eq]
    apply (hsub.map _).sum_le_sum
    intro x hx
    obtain ⟨line, -, rfl⟩ := List.mem_map.mp hx
    exact abs_nonneg _
  have hunrounded : Unrounded part :=
    unrounded_cents (fun line hline => hcents line (hsub.subset (hperm.mem_iff.mpr hline))) (hle.trans_lt hsum)
  exact hunrounded.nets part List.prefix_rfl

end Verdict

section Necessity

variable {lines : List JournalLine}

theorem addToNet_fits {ccy : String} {x : Decimal} {net net' : List (String × Decimal)}
    (hn : ∀ p ∈ net, p.2.IsFinite → Fits defaultContext p.2.toRat) (h : addToNet ccy x net = .ok net') :
    ∀ p ∈ net', p.2.IsFinite → Fits defaultContext p.2.toRat := by
  induction net generalizing net' with
  | nil =>
    obtain ⟨n, hadd, hn'⟩ := except_bind_ok.mp h
    cases hn'
    simpa using Decimal.add_fits hadd
  | cons q rest ih =>
    obtain ⟨c, n⟩ := q
    simp only [List.mem_cons, forall_eq_or_imp] at hn
    rw [addToNet] at h
    by_cases hc : c = ccy
    · rw [if_pos hc] at h
      obtain ⟨n', hadd, hn'⟩ := except_bind_ok.mp h
      cases hn'
      simp only [List.mem_cons, forall_eq_or_imp]
      exact ⟨Decimal.add_fits hadd, hn.2⟩
    · rw [if_neg hc] at h
      obtain ⟨rest', hrest, hn'⟩ := except_bind_ok.mp h
      cases hn'
      simp only [List.mem_cons, forall_eq_or_imp]
      exact ⟨hn.1, ih hn.2 hrest⟩

/-- Every finite net that the loop ends with has at most 28 digits. -/
theorem netByCurrency_fits {net : List (String × Decimal)} (h : netByCurrency lines = .ok net) :
    ∀ p ∈ net, p.2.IsFinite → Fits defaultContext p.2.toRat := by
  induction lines using List.reverseRecOn generalizing net with
  | nil =>
    cases h
    simp
  | append_singleton lines line ih =>
    rw [netByCurrency, List.foldlM_append] at h
    obtain ⟨before, hbefore, hlast⟩ := except_bind_ok.mp h
    obtain ⟨after, hafter, hnil⟩ := except_bind_ok.mp hlast
    obtain ⟨x, -, hadd⟩ := except_bind_ok.mp hafter
    obtain rfl : net = after := except_pure_ok.mp hnil
    exact addToNet_fits (ih hbefore) hadd

theorem fits_zero : Fits defaultContext 0 := ⟨0, 0, by decide, by decide, by decide, by simp⟩

/-- Exact nets are numbers of at most 28 digits: the report could not hold others. -/
theorem DecidesExactly.fits (h : DecidesExactly lines) (hne : lines ≠ [])
    (hpos : ∀ line ∈ lines, line.amount.IsFinite ∧ 0 < line.amount.toRat) (ccy : String) :
    Fits defaultContext (netRat lines ccy) := by
  by_cases hzero : netRat lines ccy = 0
  · rw [hzero]
    exact fits_zero
  have hunbalanced : ¬NetsToZero lines := fun hbalanced => hzero (hbalanced ccy)
  obtain ⟨net, hverdict, hreports⟩ := h.refuses hunbalanced
  obtain ⟨p, hp, rfl⟩ := List.mem_map.mp ((hreports.unbalanced ccy).mpr hzero)
  obtain ⟨hfin, hvalue⟩ := hreports.exact p hp
  have hpositive (line : JournalLine) (hline : line ∈ lines) : line.amount.nonPositive = .ok false :=
    Decimal.positive_of_toRat (hpos line hline).1 (hpos line hline).2
  rw [← hvalue]
  cases hnet : netByCurrency lines with
  | error s =>
    rw [validateJournalEntry_signal hne hpositive hnet] at hverdict
    cases hverdict
  | ok full =>
    rw [validateJournalEntry_net hne hpositive hnet] at hverdict
    split at hverdict
    · cases hverdict
    · cases hverdict
      exact netByCurrency_fits hnet p (List.mem_of_mem_filter hp) hfin

end Necessity

/-- Balance is decided exactly, and in every order alike, where no sum of some of the lines has to be rounded to 28
digits; and no other lines have all their parts decided exactly. -/
theorem decidesExactly_parts (lines : List JournalLine) (hne : lines ≠ [])
    (hpos : ∀ line ∈ lines, line.amount.IsFinite ∧ 0 < line.amount.toRat) :
    (PartsFit lines → DecidesExactly lines) ∧
      ((∀ part, part ≠ [] → part.Subperm lines → DecidesExactly part) → PartsFit lines) := by
  refine ⟨fun h => h.decidesExactly hne hpos, ?_⟩
  intro hparts part hpart ccy
  by_cases hnil : part = []
  · subst hnil
    exact fits_zero
  · exact (hparts part hnil hpart).fits hnil (fun line hline => hpos line (hpart.subset hline)) ccy

/-- A line of this many times ten to the power `e` in EUR. -/
def euroLine (direction : Direction) (n : ℕ) (e : ℤ) : JournalLine where
  accountId := 1
  direction := direction
  amount := .finite false n e
  currency := "EUR"

theorem decidesExactly_tenEuros : DecidesExactly [euroLine .debit 1000 (-2), euroLine .credit 1000 (-2)] := by
  have hfit : PartsFit [euroLine .debit 1000 (-2), euroLine .credit 1000 (-2)] := by
    apply partsFit_cents
    · simp only [List.mem_cons, List.not_mem_nil, or_false, forall_eq_or_imp, forall_eq]
      constructor <;> exact ⟨1000, by norm_num [euroLine, Decimal.toRat]⟩
    · norm_num [euroLine, Decimal.toRat]
  apply (decidesExactly_parts [euroLine .debit 1000 (-2), euroLine .credit 1000 (-2)] (by simp) ?_).1 hfit
  simp [euroLine, Decimal.IsFinite, Decimal.toRat]

/-- A rounded sum loses a credit of 1: the lines pass, and in another order they are refused. -/
theorem roundedSum_passes :
    let lines := [euroLine .credit 1 28, euroLine .credit 1 0, euroLine .debit 1 28]
    let reordered := [euroLine .credit 1 28, euroLine .debit 1 28, euroLine .credit 1 0]
    (∀ line ∈ lines, line.amount.IsFinite ∧ 0 < line.amount.toRat) ∧ netRat lines "EUR" = 1 ∧
      validateJournalEntry lines = .ok () ∧ lines.Perm reordered ∧
      validateJournalEntry reordered = .error (.unbalancedEntry [("EUR", .finite false 1 0)]) ∧
      ¬DecidesExactly lines := by
  intro lines reordered
  have hnet : netRat lines "EUR" = 1 := by
    norm_num [lines, netRat, euroLine, JournalLine.signedRat, Decimal.toRat]
  have hpass : validateJournalEntry lines = .ok () := by decide +kernel
  refine ⟨?_, hnet, hpass, ?_, by decide +kernel, ?_⟩
  · simp [lines, euroLine, Decimal.IsFinite, Decimal.toRat]
  · exact (List.Perm.swap _ _ _).cons _
  · intro h
    have hunbalanced : ¬NetsToZero lines := by
      intro hzero
      rw [hzero] at hnet
      exact absurd hnet (by norm_num)
    obtain ⟨net, hrefused, -⟩ := h.refuses hunbalanced
    rw [hpass] at hrefused
    cases hrefused

end PaymentLedger
