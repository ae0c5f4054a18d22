import PaymentLedger.Transaction.History

namespace PaymentLedger

variable {D : Dbms} {ι α : Type} [DecidableEq ι] {env : D.Store → D.Store → Prop} {σ₁ σ : Config D ι α}

theorem set_events {Q : Event D → Prop} {i j : ι} {s : Session D α} (h : ∀ e ∈ (σ.session i).tx, Q e)
    (hs : i = j → ∀ e ∈ s.tx, Q e) : ∀ e ∈ ((σ.set j s).session i).tx, Q e := by
  by_cases hj : i = j
  · subst hj
    rw [set_self]
    exact hs rfl
  · rwa [set_of_ne _ _ hj]

/-- What holds of every statement that runs after `σ₁` holds of the statements, open and committed since
then, of a caller that had no transaction open in `σ₁`. -/
theorem Reaches.since {Q : Event D → Prop} (h : Reaches env σ₁ σ)
    (hq : ∀ σ', Reaches env σ₁ σ' → ∀ i c s r ws, D.eval s (σ'.view i) (σ'.start i) c = some (.ok (r, ws)) →
      Q ⟨s, r, ws, σ'.world.log.length⟩) {i : ι} (hi : (σ₁.session i).tx = []) :
    (∀ e ∈ (σ.session i).tx, Q e) ∧
      ∀ c ∈ σ.world.log.drop σ₁.world.log.length, c.caller = i → ∀ e ∈ c.tx, Q e := by
  induction h with
  | refl =>
    rw [hi, List.drop_length]
    exact ⟨by simp, by simp⟩
  | @tail σ σ' hr hs ih =>
    obtain ⟨hopen, hdone⟩ := ih
    have hclosed : ∀ e ∈ ([] : List (Event D)), Q e := by simp
    cases hs with
    | @exec j s k r ws c hp he hf =>
      refine ⟨set_events hopen ?_, hdone⟩
      rintro rfl e hmem
      rcases List.mem_append.mp hmem with hmem | hmem
      · exact hopen e hmem
      · rw [List.mem_singleton.mp hmem]
        exact hq _ hr i c s r ws he
    | @fail j s k e c hp he =>
      refine ⟨set_events hopen ?_, hdone⟩
      rintro rfl
      exact hopen
    | @commit j k hp =>
      refine ⟨set_events hopen fun _ => hclosed, ?_⟩
      rw [set_world]
      simp only [World.commit]
      rw [List.drop_append_of_le_length (reaches_log hr).length_le]
      intro c hc hcaller
      rcases List.mem_append.mp hc with hc | hc
      · exact hdone c hc hcaller
      · rw [List.mem_singleton] at hc
        rw [hc] at hcaller ⊢
        obtain rfl : j = i := hcaller
        exact hopen
    | @rollback j k hp => exact ⟨set_events hopen fun _ => hclosed, hdone⟩
    | crash j => exact ⟨set_events hopen fun _ => hclosed, hdone⟩
    | tick ht => exact ⟨hopen, hdone⟩
    | env he => exact ⟨hopen, hdone⟩

end PaymentLedger
