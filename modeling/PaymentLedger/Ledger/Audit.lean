import PaymentLedger.Payments.Lifecycle

namespace PaymentLedger

/-- One state of a payment comes after another: its terms are the same, its status has followed allowed edges, each
of them with a new version, and FX details that were set are the same. -/
structure Succeeds (row row' : PaymentRow) : Prop where
  debtor : row'.debtorAccountId = row.debtorAccountId
  creditor : row'.creditorAccountId = row.creditorAccountId
  amount : row'.amount = row.amount
  currency : row'.currency = row.currency
  endToEndId : row'.endToEndId = row.endToEndId
  status : Relation.ReflTransGen (fun s t => t ∈ allowedTransitions s) row.status row'.status
  version : row.version ≤ row'.version
  moved : row'.version = row.version → row' = row
  fx : row.creditorAmount.isSome = true → row'.fx = row.fx

/-- Nothing that the one store records is changed or missing in the other. -/
structure Preserved (st st' : Store) : Prop where
  entries : st.journalEntries.rows <+: st'.journalEntries.rows
  lines : st.journalLines <+: st'.journalLines
  history : st.statusHistory <+: st'.statusHistory
  deliveries : st.webhookDeliveries.rows <+: st'.webhookDeliveries.rows
  payments : ∀ id row, st.payments.find id = some row → ∃ row', st'.payments.find id = some row' ∧ Succeeds row row'

section Preservation

variable {row row' row'' : PaymentRow} {st st' st'' : Store}

theorem Succeeds.refl (row : PaymentRow) : Succeeds row row :=
  ⟨rfl, rfl, rfl, rfl, rfl, .refl, le_refl _, fun _ => rfl, fun _ => rfl⟩

theorem Succeeds.trans (h : Succeeds row row') (h' : Succeeds row' row'') : Succeeds row row'' where
  debtor := h'.debtor.trans h.debtor
  creditor := h'.creditor.trans h.creditor
  amount := h'.amount.trans h.amount
  currency := h'.currency.trans h.currency
  endToEndId := h'.endToEndId.trans h.endToEndId
  status := h.status.trans h'.status
  version := h.version.trans h'.version
  moved := by
    intro heq
    have hle := h.version
    have hle' := h'.version
    rw [h'.moved (by omega), h.moved (by omega)]
  fx := by
    intro hsome
    have hfx := h.fx hsome
    have hsome' : row'.creditorAmount.isSome = true := by
      rw [show row'.creditorAmount = row.creditorAmount from congrArg Prod.snd hfx]
      exact hsome
    rw [h'.fx hsome', hfx]

theorem Preserved.refl (st : Store) : Preserved st st :=
  ⟨List.prefix_refl _, List.prefix_refl _, List.prefix_refl _, List.prefix_refl _,
    fun _ row hrow => ⟨row, hrow, .refl row⟩⟩

theorem Preserved.trans (h : Preserved st st') (h' : Preserved st' st'') : Preserved st st'' where
  entries := h.entries.trans h'.entries
  lines := h.lines.trans h'.lines
  history := h.history.trans h'.history
  deliveries := h.deliveries.trans h'.deliveries
  payments := by
    intro id row hrow
    obtain ⟨row', hrow', hs⟩ := h.payments id row hrow
    obtain ⟨row'', hrow'', hs'⟩ := h'.payments id row' hrow'
    exact ⟨row'', hrow'', hs.trans hs'⟩

/-- A transition succeeds the state that it has found. -/
theorem Transition.succeeds {rt : Runtime} {now : ℕ} {toStatus : PaymentStatus} {fx : Option (Uuid × Numeric 2)}
    {posting : Option (JournalEntry × Posting)} {subs : List WebhookSubscription} {ds : List WebhookDeliveryRow}
    (h : Transition rt st now row toStatus fx posting subs ds) (hl : Lifecycle st) :
    Succeeds row (row.moved toStatus fx) := by
  refine ⟨moved_debtor _ _ _, moved_creditor _ _ _, moved_amount _ _ _, moved_currency _ _ _,
    moved_endToEndId _ _ _, ?_, ?_, ?_, ?_⟩
  · rw [moved_status]
    exact .single h.allowed
  · rw [moved_version]
    exact Nat.le_succ _
  · rw [moved_version]
    intro heq
    omega
  · intro hsome
    rcases h.fx with hsame | ⟨hfrom, rfl⟩
    · exact hsame
    · have hunset : row.fx = (none, none) := by
        apply (hl.payments _ row h.found).unset
        rw [hfrom]
        decide
      rw [show row.creditorAmount = none from congrArg Prod.snd hunset] at hsome
      cases hsome

/-- Every transaction preserves what was recorded before it. -/
theorem Deed.preserves {rt : Runtime} {now : ℕ} {d : Deed} (h : d.Legal rt st now) (hl : Lifecycle st) :
    Preserved st (st.after (d.writes now)) where
  entries := by
    rw [Deed.entries_effect h]
    exact List.prefix_append _ _
  lines := by
    rw [Deed.lines_effect h]
    exact List.prefix_append _ _
  history := by
    rw [Deed.history_effect h]
    exact List.prefix_append _ _
  deliveries := by
    rw [Deed.deliveries_effect h]
    exact List.prefix_append _ _
  payments := by
    intro id row hrow
    rw [Deed.payment_effect h, hrow]
    cases d with
    | initiate row' subs ds completion =>
      obtain ⟨⟨req, hi⟩, -⟩ := h
      have hother : row'.id ≠ id := by
        rintro rfl
        rw [hi.fresh] at hrow
        cases hrow
      exact ⟨row, if_neg hother, .refl row⟩
    | transition row' toStatus reason fx posting subs ds =>
      by_cases hid : row'.id = id
      · subst hid
        have hfound : st.payments.find row'.id = some row' := Transition.found h
        rw [hfound] at hrow
        obtain rfl := Option.some.inj hrow
        exact ⟨_, if_pos rfl, Transition.succeeds h hl⟩
      · exact ⟨row, if_neg hid, .refl row⟩
    | post entry posting => exact ⟨row, rfl, .refl row⟩
    | claim key => exact ⟨row, rfl, .refl row⟩
    | reconcile ws => exact ⟨row, rfl, .refl row⟩

end Preservation

section Run

variable {ι : Type} [DecidableEq ι] {rt : Runtime} {step : Feed → Feed → Prop} {st₀ : Store}
  {calls : ι → Call} {σ : Config postgres ι Value}

/-- Nothing recorded is ever rewritten: each commit only adds to what it has found, and at any later moment all that
it has left is there as it was, but for the payments, which have gone on along allowed edges. -/
theorem nothing_rewritten (h₀ : Fresh st₀) (h : Reachable rt step st₀ calls σ) :
    ∀ c ∈ σ.world.log, Preserved c.before c.after ∧ Preserved c.after σ.world.store := by
  obtain ⟨clock, hr⟩ := h
  have hwf := reaches_wellFormed hr
  have commits {l l' : List (Commit postgres ι)} {c : Commit postgres ι} (hl : σ.world.log = l ++ c :: l') :
      Preserved c.before c.after := by
    have hc : c ∈ σ.world.log := by
      rw [hl]
      simp
    obtain ⟨v, d, hd⟩ := hwf.does hc
    have hbefore : Lifecycle c.before := by
      apply hwf.lifecycle h₀ _ (hwf.committed l c l' hl).1
      rw [hl]
      exact List.prefix_append _ _
    have hafter : c.after = c.before.after (d.writes c.began) := by
      rw [← hd.writes]
      rfl
    rw [hafter]
    exact Deed.preserves hd.deed.legal hbefore
  intro c hc
  obtain ⟨l, l', hl⟩ := List.append_of_mem hc
  refine ⟨commits hl, ?_⟩
  apply (hwf.committed l c l' hl).2.2.invariant fun _ st => Preserved c.after st
  · exact .refl _
  · intro _ st st' hP he
    obtain ⟨f, -, rfl⟩ := he
    exact ⟨hP.entries, hP.lines, hP.history, hP.deliveries, hP.payments⟩
  · intro m c' m' hm hP
    have hlog : σ.world.log = (l ++ c :: m) ++ c' :: m' := by
      rw [hl, hm]
      simp
    exact hP.trans (commits hlog)

theorem sample_preserved : Fresh sampleStore ∧ sampleEnd.world.log.length = 3 ∧
    ∀ c ∈ sampleEnd.world.log, Preserved c.before c.after ∧ Preserved c.after sampleEnd.world.store :=
  ⟨sampleStore_fresh, by decide +kernel, nothing_rewritten sampleStore_fresh (sampleEnd_reachable Eq)⟩

end Run
end PaymentLedger
