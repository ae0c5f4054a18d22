import PaymentLedger.Ledger.ZeroSum

namespace PaymentLedger

/-- An amount that a line stores as it is: a positive number of cents within the column. -/
def Decimal.IsAmount (d : Decimal) : Prop := ∃ n, 0 < n ∧ n < 10 ^ 18 ∧ d = .finite false n (-2)

namespace Decimal.IsAmount

variable {d : Decimal}

theorem positive (h : d.IsAmount) : d.nonPositive = .ok false := by
  obtain ⟨n, hn, -, rfl⟩ := h
  have hne : n ≠ 0 := by omega
  simp [Decimal.nonPositive, hne]

theorem stored (h : d.IsAmount) : ∃ n : Numeric 2, Numeric.ofDecimal 2 d = .ok n ∧
    n.Positive ∧ n.toDecimal = d := by
  obtain ⟨n, hn, hlt, rfl⟩ := h
  have hr : Decimal.rescaleHalfUp n (-2) (-2) = n := by simp [Decimal.rescaleHalfUp]
  have hof : Numeric.ofDecimal 2 (.finite false n (-2)) = .ok (.num n (by simpa using hlt)) := by
    have hlt' : n < 1000000000000000000 := hlt
    simp [Numeric.ofDecimal, hr, hlt']
  refine ⟨_, hof, ?_, Numeric.toDecimal_ofDecimal hof⟩
  show (0 : ℤ) < n
  exact_mod_cast hn

theorem toRat (h : d.IsAmount) : ∃ n : ℕ, n < 10 ^ 18 ∧ d.toRat = n / 100 := by
  obtain ⟨n, -, hlt, rfl⟩ := h
  refine ⟨n, hlt, ?_⟩
  simp only [Decimal.toRat, Bool.false_eq_true, if_false]
  norm_num
  ring

end Decimal.IsAmount

section Keys

theorem addToNet_keys {ccy : String} {x : Decimal} {net net' : List (String × Decimal)}
    (h : addToNet ccy x net = .ok net') :
    net'.map Prod.fst = if ccy ∈ net.map Prod.fst then net.map Prod.fst else net.map Prod.fst ++ [ccy] := by
  induction net generalizing net' with
  | nil =>
    obtain ⟨n, -, hn⟩ := except_bind_ok.mp h
    cases hn
    rfl
  | cons p rest ih =>
    obtain ⟨c, n⟩ := p
    rw [addToNet] at h
    by_cases hc : c = ccy
    · rw [if_pos hc] at h
      obtain ⟨n', -, hn⟩ := except_bind_ok.mp h
      cases hn
      simp [hc]
    · rw [if_neg hc] at h
      obtain ⟨rest', hrest, hn⟩ := except_bind_ok.mp h
      cases hn
      have hkeys := ih hrest
      have hne : ccy ≠ c := Ne.symm hc
      rw [List.map_cons, hkeys]
      by_cases hmem : ccy ∈ rest.map Prod.fst
      · have hin : ccy ∈ ((c, n) :: rest).map Prod.fst := List.mem_cons_of_mem _ hmem
        rw [if_pos hmem, if_pos hin]
        rfl
      · have hnone : ccy ∉ ((c, n) :: rest).map Prod.fst := by
          intro hin
          rcases List.mem_cons.mp hin with heq | hin
          · exact hne heq
          · exact hmem hin
        rw [if_neg hmem, if_neg hnone]
        rfl

theorem netByCurrency_nodup {lines : List JournalLine} {net : List (String × Decimal)}
    (h : netByCurrency lines = .ok net) : (net.map Prod.fst).Nodup := by
  induction lines using List.reverseRecOn generalizing net with
  | nil =>
    cases h
    exact List.nodup_nil
  | append_singleton lines line ih =>
    rw [netByCurrency, List.foldlM_append] at h
    obtain ⟨before, hbefore, hlast⟩ := except_bind_ok.mp h
    obtain ⟨after, hafter, hnil⟩ := except_bind_ok.mp hlast
    obtain ⟨x, -, hadd⟩ := except_bind_ok.mp hafter
    obtain rfl : net = after := except_pure_ok.mp hnil
    have hnodup := ih hbefore
    rw [addToNet_keys hadd]
    split
    · exact hnodup
    · rename_i hfresh
      exact hnodup.append (List.nodup_singleton _) (List.disjoint_singleton.mpr hfresh)

theorem lookup_of_mem {net : List (String × Decimal)} (h : (net.map Prod.fst).Nodup)
    {p : String × Decimal} (hp : p ∈ net) :
    net.lookup p.1 = some p.2 := by
  obtain ⟨l₁, l₂, rfl⟩ := List.append_of_mem hp
  refine List.lookup_eq_some_iff.mpr ⟨l₁, l₂, rfl, ?_⟩
  intro q hq
  rw [List.map_append, List.map_cons] at h
  have hne : p.1 ≠ q.1 := by
    intro heq
    exact (List.nodup_append.mp h).2.2 q.1 (List.mem_map_of_mem hq) p.1 List.mem_cons_self heq.symm
  simpa using hne

end Keys

theorem JournalLine.storable {line : JournalLine} (ha : line.amount.IsAmount)
    (hc : varchar 3 line.currency = .ok line.currency) (entryId : Uuid) :
    ∃ row, JournalLineRow.new entryId line = .ok row := by
  obtain ⟨n, hn, hpos, -⟩ := ha.stored
  exact ⟨_, JournalLineRow.new_ok.mpr ⟨⟨n, hpos⟩, Amount.ofDecimal_ok.mpr hn, _, hc, rfl⟩⟩

/-- Validation accepts lines with such amounts that net to zero in every currency. -/
theorem validateJournalEntry_balanced {lines : List JournalLine} (hne : lines ≠ []) (hlen : lines.length < 10 ^ 10)
    (ha : ∀ line ∈ lines, line.amount.IsAmount) (hnet : ∀ ccy, netRat lines ccy = 0) :
    validateJournalEntry lines = .ok () := by
  have hcents : ∀ line ∈ lines, ∃ z : ℤ, line.amount.toRat = z / 100 := by
    intro line hline
    obtain ⟨n, -, hn⟩ := (ha line hline).toRat
    exact ⟨n, by rw [hn]; rfl⟩
  have hbound : ∀ line ∈ lines, |line.amount.toRat| ≤ 10 ^ 16 := by
    intro line hline
    obtain ⟨n, hlt, hn⟩ := (ha line hline).toRat
    have hle : (n : ℚ) ≤ 10 ^ 18 := by exact_mod_cast hlt.le
    rw [hn, abs_of_nonneg (by positivity)]
    linarith
  have hsum : (lines.map fun line => |line.amount.toRat|).sum < 10 ^ 26 := by
    have hle : (lines.map fun line => |line.amount.toRat|).sum ≤ lines.length • (10 ^ 16 : ℚ) := by
      have hcard := List.sum_le_card_nsmul (lines.map fun line => |line.amount.toRat|) (10 ^ 16) (by
        intro x hx
        obtain ⟨line, hline, rfl⟩ := List.mem_map.mp hx
        exact hbound line hline)
      rwa [List.length_map] at hcard
    have hshort : (lines.length : ℚ) < 10 ^ 10 := by exact_mod_cast hlen
    rw [nsmul_eq_mul] at hle
    linarith
  have hfinite : ∀ line ∈ lines, line.amount.IsFinite := by
    intro line hline
    obtain ⟨n, -, -, hn⟩ := ha line hline
    rw [hn]
    trivial
  obtain ⟨net, hnets, hfin, hval⟩ := netByCurrency_exact hfinite (unrounded_cents hcents hsum)
  refine validateJournalEntry_ok.mpr ⟨hne, fun line hline => (ha line hline).positive, net, hnets, ?_⟩
  intro entry hentry
  apply (Decimal.isZero_iff (hfin entry hentry)).mpr
  have hlookup := lookup_of_mem (netByCurrency_nodup hnets) hentry
  have hvalue := hval entry.1
  rw [netValue, hlookup, hnet] at hvalue
  exact hvalue

end PaymentLedger
