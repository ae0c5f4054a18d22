import PaymentLedger.Services.Runs
import PaymentLedger.Transaction.Attempts

namespace PaymentLedger

section Retry

variable {α β : Type} {ok : List (Event postgres) → Event postgres → Prop}
  {bad : List (Event postgres) → Stmt → AppError → Prop}

/-- The traces of attempts that met a conflict: each of them, and the empty transaction after it. -/
def undone (failed : List (List (Event postgres))) : List (Attempt postgres) :=
  failed.flatMap fun t => [⟨t, false⟩, ⟨[], false⟩]

/-- How far a loop of attempts has come: the attempts that met a conflict, what is behind it of one
more attempt, and why it has raised. -/
structure RetryState (ok : List (Event postgres) → Event postgres → Prop)
    (bad : List (Event postgres) → Stmt → AppError → Prop) (attempt : App (Option β)) (exhausted : AppError)
    (n : ℕ) (failed : List (List (Event postgres))) (rest : List (Attempt postgres))
    (tx : List (Event postgres)) (p : App α) : Prop where
  conflicts : ∀ t ∈ failed, Path attempt t (.rollback (.ret none)) ∧ Each ok [] t
  bound : failed.length ≤ n
  last : (attemptsOf (rest.map Attempt.tx ++ [tx])).length ≤ 1
  raised : ∀ e, p = .raise e → (e = exhausted ∧ failed.length = n ∧ rest = []) ∨
    ∃ t, rest = [⟨t, false⟩] ∧ Each ok [] t ∧ Fails bad attempt t e

theorem attemptsOf_singleton_le (t : List (Event postgres)) : (attemptsOf [t]).length ≤ 1 := by
  rw [attemptsOf]
  exact List.length_filter_le _ _

theorem attemptsOf_cons_nil (txs : List (List (Event postgres))) : attemptsOf ([] :: txs) = attemptsOf txs := rfl

theorem attemptsOf_pair_le (t : List (Event postgres)) : (attemptsOf [t, []]).length ≤ 1 := by
  have hsplit : attemptsOf [t, []] = attemptsOf [t] ++ attemptsOf [[]] := attemptsOf_append [t] [[]]
  rw [hsplit, attemptsOf_cons_nil, List.length_append]
  exact attemptsOf_singleton_le t

/-- What a loop of attempts can have lived through. -/
theorem lived_retry {attempt : App (Option β)} (hcl : Closes (·.isSome) (· = none) attempt) (exhausted : AppError)
    (wrap : β → α) (n : ℕ) {done : List (Attempt postgres)} {tx : List (Event postgres)} {p : App α}
    (h : Lived ok bad ((retry attempt exhausted n).bind fun v => .ret (wrap v)) done tx p) :
    ∃ failed rest, done = undone failed ++ rest ∧ RetryState ok bad attempt exhausted n failed rest tx p := by
  induction n generalizing done tx p with
  | zero =>
    obtain ⟨rfl, rfl, rfl⟩ := lived_raise h
    refine ⟨[], [], rfl, by simp, le_rfl, by simp [attemptsOf], ?_⟩
    intro e he
    cases he
    exact .inl ⟨rfl, rfl, rfl⟩
  | succ n ih =>
    rw [retry, Prog.bind_eq, Prog.bind_assoc] at h
    cases h.block hcl with
    | @inside tx q hp hok =>
      refine ⟨[], [], rfl, by simp, Nat.zero_le _, attemptsOf_singleton_le tx, ?_⟩
      intro e he
      cases q with
      | ret a => exact (hcl.path hp).elim
      | _ => cases he
    | refused hp hok =>
      refine ⟨[], [], rfl, by simp, Nat.zero_le _, attemptsOf_singleton_le _, ?_⟩
      intro e he
      cases he
    | @raised t e hp hok =>
      refine ⟨[], [⟨t, false⟩], rfl, by simp, Nat.zero_le _, attemptsOf_pair_le t, ?_⟩
      intro e' he
      cases he
      exact .inr ⟨t, rfl, hok, hp⟩
    | @ended t v b hp hok =>
      refine ⟨[], [⟨t, b⟩], rfl, by simp, Nat.zero_le _, attemptsOf_pair_le t, ?_⟩
      intro e he
      cases he
    | @after t tx v b done p hp hok h =>
      cases b with
      | true =>
        obtain ⟨w, hw, hsome⟩ := hcl.path hp
        obtain rfl : v = w := by cases hw; rfl
        obtain ⟨u, rfl⟩ := Option.isSome_iff_exists.mp hsome
        obtain ⟨rfl, rfl, rfl⟩ := lived_ret h
        refine ⟨[], [⟨t, true⟩, ⟨[], false⟩], rfl, by simp, Nat.zero_le _, ?_, ?_⟩
        · exact attemptsOf_pair_le t
        · intro e he
          cases he
      | false =>
        obtain ⟨w, hw, rfl⟩ := hcl.path hp
        obtain rfl : v = none := by cases hw; rfl
        obtain ⟨failed, rest, rfl, hstate⟩ := ih h
        refine ⟨t :: failed, rest, rfl, ?_, ?_, hstate.last, ?_⟩
        · intro t' ht'
          rcases List.mem_cons.mp ht' with rfl | ht'
          · exact ⟨hp, hok⟩
          · exact hstate.conflicts t' ht'
        · have hbound := hstate.bound
          rw [List.length_cons]
          omega
        · intro e he
          rcases hstate.raised e he with ⟨hex, hlen, hrest⟩ | hother
          · refine .inl ⟨hex, ?_, hrest⟩
            rw [List.length_cons, hlen]
          · exact .inr hother

end Retry

section Raises

variable {P : AppError → Prop}

theorem raises_query (s : Stmt) : Raises P (query s) := fun _ => trivial

theorem raises_ofExcept {ε α : Type} {f : ε → AppError} (h : ∀ e, P (f e)) (x : Except ε α) :
    Raises P (Prog.ofExcept f x : App α) := Queries.raises (queries_ofExcept h x)

theorem raises_getPayment {id : Uuid} (h : P (.paymentNotFound id)) : Raises P (getPayment id) :=
  Queries.raises (queries_getPayment trivial h)

theorem raises_getAccountVersions {rt : Runtime} {ids : List Uuid} (h : ∀ id, P (.accountNotFound (.inl id))) :
    Raises P (getAccountVersions rt ids) := Queries.raises (queries_getAccountVersions trivial h)

theorem raises_insertJournalEntry (entry : JournalEntry) : Raises P (insertJournalEntry entry) :=
  Queries.raises (queries_insertJournalEntry trivial fun _ _ => trivial)

theorem raises_bumpAccounts {versions : List (Uuid × ℕ)} (h : ∀ id, P (.keyError id)) (ids : List Uuid) :
    Raises P (bumpAccounts versions ids) := Queries.raises (queries_bumpAccounts (fun _ _ => trivial) h ids)

theorem raises_enqueuePaymentWebhookEvent (id : Uuid) (eventType : String) (payload : PyDict) :
    Raises P (enqueuePaymentWebhookEvent id eventType payload) :=
  Queries.raises (queries_enqueuePaymentWebhookEvent trivial fun _ => trivial)

theorem raises_transitionStatusOnlyAttempt {id : Uuid} {toStatus : PaymentStatus} {reason : Option PyStr}
    (hp : P (.paymentNotFound id)) (ht : ∀ e, P (.invalidTransition e)) :
    Raises P (transitionStatusOnlyAttempt id toStatus reason) := by
  apply (raises_getPayment hp).bind
  intro payment
  apply (raises_ofExcept ht _).bind
  intro _
  apply (raises_query _).bind
  intro bumped
  cases bumped
  · trivial
  · apply (raises_query _).bind
    intro _
    apply (raises_enqueuePaymentWebhookEvent _ _ _).bind
    intro _
    trivial

theorem raises_postJournalEntryAttempt {rt : Runtime} {entry : JournalEntry}
    (ha : ∀ id, P (.accountNotFound (.inl id))) (hk : ∀ id, P (.keyError id)) :
    Raises P (postJournalEntryAttempt rt entry) := by
  apply (raises_getAccountVersions ha).bind
  intro versions
  apply (raises_insertJournalEntry entry).bind
  intro entryId
  apply (raises_bumpAccounts hk _).bind
  intro bumped
  cases bumped <;> trivial

theorem raises_settlementLines {p : Payment} (ha : ∀ x, P (.accountNotFound x))
    (hr : ∀ base quote, P (.fxRateNotFound base quote)) (hs : ∀ s, P (.signal s)) : Raises P (settlementLines p) :=
  Queries.raises (queries_settlementLines (fun _ => trivial) (fun _ _ => trivial) (fun _ => trivial)
    (fun _ _ _ => trivial) ha hr hs)

theorem raises_reversalLines {p : Payment} (ha : ∀ x, P (.accountNotFound x)) : Raises P (reversalLines p) :=
  Queries.raises (queries_reversalLines (fun _ => trivial) (fun _ => trivial) ha)

theorem raises_transitionWithLedgerEntryAttempt {rt : Runtime} {id : Uuid} {toStatus : PaymentStatus}
    {buildLines : Payment → App BuildLinesResult} (hb : ∀ p, Raises P (buildLines p))
    (hp : P (.paymentNotFound id)) (ht : ∀ e, P (.invalidTransition e)) (hl : ∀ e, P (.ledger e))
    (ha : ∀ x, P (.accountNotFound x)) (hk : ∀ id, P (.keyError id)) :
    Raises P (transitionWithLedgerEntryAttempt rt id toStatus buildLines) := by
  apply (raises_getPayment hp).bind
  intro payment
  apply (raises_ofExcept ht _).bind
  intro _
  apply (hb payment).bind
  intro built
  apply (raises_ofExcept hl _).bind
  intro _
  apply (raises_getAccountVersions fun id => ha (.inl id)).bind
  intro versions
  apply (raises_insertJournalEntry _).bind
  intro entryId
  apply (raises_bumpAccounts hk _).bind
  intro bumped
  have finish (moved : Bool) : Raises P
      (if moved then
        recordStatusTransition id (some payment.status) toStatus none >>= fun _ =>
          enqueuePaymentWebhookEvent id ("payment." ++ toStatus.value)
            (paymentResponseDict (payment.moved toStatus built.2.2)) >>= fun _ =>
            Prog.commitTx >>= fun _ => (return some (payment.moved toStatus built.2.2) : App (Option Payment))
      else Prog.rollbackTx >>= fun _ => return none) := by
    cases moved
    · trivial
    · apply (raises_query _).bind
      intro _
      apply (raises_enqueuePaymentWebhookEvent _ _ _).bind
      intro _
      trivial
  cases bumped
  · exact finish false
  · apply (raises_query _).bind
    intro moved
    exact finish moved

end Raises
end PaymentLedger
