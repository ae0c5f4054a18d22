import PaymentLedger.Domain.Ledger
import PaymentLedger.Math.DecimalExact

namespace PaymentLedger

/-- The exact amount of a line, positive for a credit. -/
def JournalLine.signedRat (line : JournalLine) : ℚ :=
  match line.direction with
  | .credit => line.amount.toRat
  | .debit => -line.amount.toRat

/-- The exact net of the lines in one currency. -/
def netRat (lines : List JournalLine) (ccy : String) : ℚ :=
  ((lines.filter fun line => line.currency = ccy).map JournalLine.signedRat).sum

/-- The value that a running net has for a currency. -/
def netValue (net : List (String × Decimal)) (ccy : String) : ℚ := ((net.lookup ccy).map Decimal.toRat).getD 0

theorem netRat_append (l l' : List JournalLine) (ccy : String) :
    netRat (l ++ l') ccy = netRat l ccy + netRat l' ccy := by
  simp [netRat, List.filter_append]

theorem netRat_singleton (line : JournalLine) (ccy : String) :
    netRat [line] ccy = if line.currency = ccy then line.signedRat else 0 := by
  by_cases h : line.currency = ccy <;> simp [netRat, h]

namespace Decimal

theorem fix_exact {d : Decimal} (hd : d.IsFinite) (h : Fits defaultContext d.toRat) :
    ∃ z, fix defaultContext d = .ok z ∧ z.IsFinite ∧ z.toRat = d.toRat := by
  cases d with
  | finite s c e =>
    obtain ⟨c', e', hfix, hval⟩ := fix_of_fits defaultContext (by decide) s c e h
    exact ⟨.finite s c' e', hfix, trivial, hval⟩
  | infinity s => exact hd.elim
  | nan s => exact hd.elim

/-- An addition whose exact result fits the context is exact. -/
theorem add_of_fits {x y : Decimal} (hx : x.IsFinite) (hy : y.IsFinite)
    (h : Fits defaultContext (x.toRat + y.toRat)) :
    ∃ z, Decimal.add defaultContext x y = .ok z ∧ z.IsFinite ∧ z.toRat = x.toRat + y.toRat := by
  cases x with
  | finite s c e =>
    cases y with
    | finite t d f =>
      rw [← addExact_toRat] at h
      obtain ⟨z, hfix, hfin, hval⟩ := fix_exact (d := addExact s c e t d f) trivial h
      refine ⟨z, ?_, hfin, ?_⟩
      · simp only [add, isSignaling, Bool.or_false, Bool.false_eq_true, if_false]
        exact hfix
      · rw [hval, addExact_toRat]
    | infinity t => exact hy.elim
    | nan t => exact hy.elim
  | infinity s => exact hx.elim
  | nan s => exact hx.elim

theorem Fits.neg {q : ℚ} (h : Fits defaultContext q) : Fits defaultContext (-q) := by
  obtain ⟨m, x, hm, hlo, hhi, rfl⟩ := h
  exact ⟨-m, x, by rwa [Int.natAbs_neg], hlo, hhi, by push_cast; ring⟩

theorem neg_of_fits {x : Decimal} (hx : x.IsFinite) (h : Fits defaultContext x.toRat) :
    ∃ z, x.neg defaultContext = .ok z ∧ z.IsFinite ∧ z.toRat = -x.toRat := by
  cases x with
  | finite s c e =>
    have hneg : (finite (!s && decide (c ≠ 0)) c e).toRat = -(finite s c e).toRat := by
      by_cases hc : c = 0
      · simp [hc, toRat]
      · cases s <;> simp [hc, toRat]
    have hfit := h.neg
    rw [← hneg] at hfit
    obtain ⟨z, hfix, hfin, hval⟩ := fix_exact (d := .finite (!s && decide (c ≠ 0)) c e) trivial hfit
    exact ⟨z, hfix, hfin, hval.trans hneg⟩
  | infinity s => exact hx.elim
  | nan s => exact hx.elim

theorem isZero_iff {x : Decimal} (hx : x.IsFinite) : x.isZero = true ↔ x.toRat = 0 := by
  cases x with
  | finite s c e =>
    have hp : (10 : ℚ) ^ e ≠ 0 := by positivity
    cases s <;> simp [isZero, toRat, hp]
  | infinity s => exact hx.elim
  | nan s => exact hx.elim

end Decimal

open Decimal (Fits)

section Net

variable {net : List (String × Decimal)}

theorem addToNet_exact (hn : ∀ x ∈ net, x.2.IsFinite) {ccy : String} {x : Decimal} (hx : x.IsFinite)
    (h : Fits defaultContext (netValue net ccy + x.toRat)) :
    ∃ net', addToNet ccy x net = .ok net' ∧ (∀ y ∈ net', y.2.IsFinite) ∧
      ∀ c, netValue net' c = netValue net c + if c = ccy then x.toRat else 0 := by
  induction net with
  | nil =>
    have hfit : Fits defaultContext ((Decimal.finite false 0 0).toRat + x.toRat) := by
      rw [Decimal.toRat_zero]
      exact h
    obtain ⟨z, hz, hfin, hval⟩ := Decimal.add_of_fits (x := .finite false 0 0) trivial hx hfit
    refine ⟨[(ccy, z)], ?_, ?_, ?_⟩
    · simp [addToNet, hz, bind, Except.bind, pure, Except.pure]
    · intro y hy
      obtain rfl := List.mem_singleton.mp hy
      exact hfin
    · intro c
      by_cases hc : c = ccy
      · simp [netValue, hc, hval, Decimal.toRat_zero]
      · have hne : (c == ccy) = false := by simp [hc]
        simp [netValue, List.lookup_cons, hne, hc]
  | cons p rest ih =>
    obtain ⟨c₀, n⟩ := p
    by_cases hc₀ : c₀ = ccy
    · have hvalue : netValue ((c₀, n) :: rest) ccy = n.toRat := by simp [netValue, hc₀]
      rw [hvalue] at h
      obtain ⟨z, hz, hfin, hval⟩ := Decimal.add_of_fits (hn _ List.mem_cons_self) hx h
      refine ⟨(c₀, z) :: rest, ?_, ?_, ?_⟩
      · simp [addToNet, hc₀, hz, bind, Except.bind, pure, Except.pure]
      · intro y hy
        rcases List.mem_cons.mp hy with rfl | hy
        · exact hfin
        · exact hn y (List.mem_cons_of_mem _ hy)
      · intro c
        by_cases hc : c = ccy
        · simp [netValue, hc, hc₀, hval]
        · have hne : (c == c₀) = false := by simp [hc₀, hc]
          simp [netValue, List.lookup_cons, hne, hc]
    · have hvalue (c : String) : netValue ((c₀, n) :: rest) c = if c = c₀ then n.toRat else netValue rest c := by
        by_cases hc : c = c₀
        · simp [netValue, hc]
        · have hne : (c == c₀) = false := by simp [hc]
          simp [netValue, List.lookup_cons, hne, hc]
      rw [hvalue, if_neg (Ne.symm hc₀)] at h
      obtain ⟨rest', hrest, hfin, hval⟩ := ih (fun y hy => hn y (List.mem_cons_of_mem _ hy)) h
      refine ⟨(c₀, n) :: rest', ?_, ?_, ?_⟩
      · simp [addToNet, hc₀, hrest, bind, Except.bind, pure, Except.pure]
      · intro y hy
        rcases List.mem_cons.mp hy with rfl | hy
        · exact hn _ List.mem_cons_self
        · exact hfin y hy
      · intro c
        have hvalue' : netValue ((c₀, n) :: rest') c = if c = c₀ then n.toRat else netValue rest' c := by
          by_cases hc : c = c₀
          · simp [netValue, hc]
          · have hne : (c == c₀) = false := by simp [hc]
            simp [netValue, List.lookup_cons, hne, hc]
        rw [hvalue', hvalue]
        by_cases hc : c = c₀
        · simp [hc, hc₀]
        · rw [if_neg hc, if_neg hc, hval]

theorem signedAmount_exact {line : JournalLine} (hf : line.amount.IsFinite)
    (h : line.direction = .debit → Fits defaultContext line.amount.toRat) :
    ∃ x, line.signedAmount = .ok x ∧ x.IsFinite ∧ x.toRat = line.signedRat := by
  unfold JournalLine.signedAmount JournalLine.signedRat
  cases hd : line.direction with
  | credit => exact ⟨line.amount, rfl, hf, rfl⟩
  | debit => exact Decimal.neg_of_fits hf (h hd)

/-- No debit and no running net of the lines has to be rounded. -/
structure Unrounded (lines : List JournalLine) : Prop where
  debits : ∀ line ∈ lines, line.direction = .debit → Fits defaultContext line.amount.toRat
  nets : ∀ pre, pre <+: lines → ∀ ccy, Fits defaultContext (netRat pre ccy)

theorem Unrounded.mono {lines pre : List JournalLine} (h : Unrounded lines) (hpre : pre <+: lines) :
    Unrounded pre :=
  ⟨fun line hline => h.debits line (hpre.subset hline), fun pre' hpre' => h.nets pre' (hpre'.trans hpre)⟩

/-- Without rounding the nets are the exact ones. -/
theorem netByCurrency_exact {lines : List JournalLine} (hf : ∀ line ∈ lines, line.amount.IsFinite)
    (h : Unrounded lines) :
    ∃ net, netByCurrency lines = .ok net ∧ (∀ x ∈ net, x.2.IsFinite) ∧ ∀ ccy,
    netValue net ccy = netRat lines ccy := by
  induction lines using List.reverseRecOn with
  | nil => exact ⟨[], rfl, by simp, fun ccy => rfl⟩
  | append_singleton lines line ih =>
    have hmem : line ∈ lines ++ [line] := by simp
    obtain ⟨net, hnet, hfin, hval⟩ := ih (fun l hl => hf l (List.mem_append_left _ hl))
      (h.mono (List.prefix_append _ _))
    obtain ⟨x, hx, hxfin, hxval⟩ := signedAmount_exact (hf line hmem) (h.debits line hmem)
    have hsum (ccy : String) : netRat (lines ++ [line]) ccy =
        netValue net ccy + if ccy = line.currency then x.toRat else 0 := by
      rw [netRat_append, netRat_singleton, hval, hxval]
      by_cases hc : line.currency = ccy
      · rw [if_pos hc, if_pos hc.symm]
      · rw [if_neg hc, if_neg (Ne.symm hc)]
    have hfit := h.nets _ (List.prefix_refl _) line.currency
    rw [hsum, if_pos rfl] at hfit
    obtain ⟨net', hnet', hfin', hval'⟩ := addToNet_exact hfin hxfin hfit
    refine ⟨net', ?_, hfin', ?_⟩
    · rw [netByCurrency] at hnet
      rw [netByCurrency, List.foldlM_append, hnet]
      simp [hx, hnet', bind, Except.bind, pure, Except.pure]
    · intro ccy
      rw [hval', hsum]

/-- What validation accepts nets to zero exactly. -/
theorem validateJournalEntry_exact {lines : List JournalLine} (hf : ∀ line ∈ lines, line.amount.IsFinite)
    (h : Unrounded lines)
    (hv : validateJournalEntry lines = .ok ()) (ccy : String) : netRat lines ccy = 0 := by
  obtain ⟨-, -, net, hnet, hzero⟩ := validateJournalEntry_ok.mp hv
  obtain ⟨net', hnet', hfin, hval⟩ := netByCurrency_exact hf h
  obtain rfl := Except.ok.inj (hnet.symm.trans hnet')
  rw [← hval, netValue]
  cases hl : net.lookup ccy with
  | none => rfl
  | some n =>
    obtain ⟨l₁, l₂, hnet₀, -⟩ := List.lookup_eq_some_iff.mp hl
    have hmem : (ccy, n) ∈ net := by simp [hnet₀]
    exact (Decimal.isZero_iff (hfin _ hmem)).mp (hzero _ hmem)

end Net
end PaymentLedger
