import PaymentLedger.Ledger.Bookings
import PaymentLedger.Math.Machine

namespace PaymentLedger

/-- A payment as the bank knows it; amounts are in cents. -/
structure BankPayment where
  id : Uuid
  debtor : Uuid
  creditor : Uuid
  amount : ℤ
  currency : String
  endToEndId : Option String
  status : PaymentStatus
  converted : Option ℤ

/-- What the service is for, without statements, transactions and versions: payments and the balances they move. -/
@[ext] structure Bank where
  currencyOf : Uuid → Option String
  suspense : Option Uuid
  payments : Table BankPayment.id
  balance : Uuid → String → ℤ

/-- What can happen to a bank. A line posted by hand has an account, a currency and signed cents. -/
inductive BankEvent where
  | initiate (p : BankPayment)
  | authorise (id : Uuid)
  | settle (id : Uuid) (converted : Option ℤ)
  | reverse (id : Uuid)
  | fail (id : Uuid)
  | post (lines : List (Uuid × String × ℤ))
  | aside

namespace Bank

variable (b : Bank)

/-- What a settled payment has moved: its amount from debtor to creditor, in two currencies through the
suspense account. -/
def movement (p : BankPayment) (a : Uuid) (ccy : String) : ℤ :=
  match p.converted with
  | none =>
    amountOn (some p.debtor) (some p.currency) (-p.amount) a ccy +
      amountOn (some p.creditor) (some p.currency) p.amount a ccy
  | some n =>
    amountOn (some p.debtor) (some p.currency) (-p.amount) a ccy +
      amountOn b.suspense (some p.currency) p.amount a ccy +
      amountOn b.suspense (b.currencyOf p.creditor) (-n) a ccy +
      amountOn (some p.creditor) (b.currencyOf p.creditor) n a ccy

/-- What lines posted by hand move. -/
def postedOn (lines : List (Uuid × String × ℤ)) (a : Uuid) (ccy : String) : ℤ :=
  (lines.map fun l => amountOn (some l.1) (some l.2.1) l.2.2 a ccy).sum

def move (id : Uuid) (status : PaymentStatus) (converted : Option ℤ) (moved : Uuid → String → ℤ) : Bank :=
  { b with
    payments := b.payments.modify id (fun p => { p with status, converted }) fun _ => rfl
    balance := fun a ccy => b.balance a ccy + moved a ccy }

/-- The rules of the bank. -/
inductive Step : Bank → BankEvent → Bank → Prop
  | initiate {b : Bank} {p : BankPayment} (fresh : b.payments.find p.id = none) (positive : 0 < p.amount)
      (parties : p.debtor ≠ p.creditor) (debtor : b.currencyOf p.debtor = some p.currency)
      (creditor : (b.currencyOf p.creditor).isSome = true) (status : p.status = .initiated)
      (new : p.converted = none) :
      Step b (.initiate p) { b with payments := b.payments.insert p }
  | authorise {b : Bank} {p : BankPayment} (found : b.payments.find p.id = some p)
      (status : p.status = .initiated) :
      Step b (.authorise p.id) (b.move p.id .authorised p.converted 0)
  | transfer {b : Bank} {p : BankPayment} (found : b.payments.find p.id = some p) (status : p.status = .authorised)
      (same : b.currencyOf p.creditor = some p.currency) :
      Step b (.settle p.id none) (b.move p.id .settled none (b.movement { p with converted := none }))
  | convert {b : Bank} {p : BankPayment} {n : ℤ} {currency : String} (found : b.payments.find p.id = some p)
      (status : p.status = .authorised) (creditor : b.currencyOf p.creditor = some currency)
      (differ : currency ≠ p.currency) (positive : 0 < n) (suspense : b.suspense.isSome = true) :
      Step b (.settle p.id (some n)) (b.move p.id .settled (some n) (b.movement { p with converted := some n }))
  | reverse {b : Bank} {p : BankPayment} (found : b.payments.find p.id = some p) (status : p.status = .settled) :
      Step b (.reverse p.id) (b.move p.id .reversed p.converted (-b.movement p))
  | fail {b : Bank} {p : BankPayment} (found : b.payments.find p.id = some p)
      (status : p.status = .initiated ∨ p.status = .authorised) :
      Step b (.fail p.id) (b.move p.id .failed p.converted 0)
  | post {b : Bank} (lines : List (Uuid × String × ℤ)) :
      Step b (.post lines) { b with balance := fun a ccy => b.balance a ccy + postedOn lines a ccy }
  | aside {b : Bank} : Step b .aside b

/-- The bank as a machine. -/
def machine : Machine Bank BankEvent := ⟨Step⟩

/-- No payment has been made and no account moved. -/
structure Opening : Prop where
  payments : b.payments.rows = []
  balance : ∀ a ccy, b.balance a ccy = 0

/-- A payment that keeps to the currencies of its accounts. -/
structure Sound (p : BankPayment) : Prop where
  debtor : b.currencyOf p.debtor = some p.currency
  unconverted : p.status = .initiated ∨ p.status = .authorised → p.converted = none
  direct : p.status = .settled → p.converted = none → b.currencyOf p.creditor = some p.currency

/-- What the settled payments have moved together. -/
def position (a : Uuid) (ccy : String) : ℤ :=
  (b.payments.rows.map fun p => if p.status = .settled then b.movement p a ccy else 0).sum

end Bank

/-- What all lines posted by hand have moved. -/
def postedBy (es : List BankEvent) (a : Uuid) (ccy : String) : ℤ :=
  (es.map fun e => match e with
    | .post lines => Bank.postedOn lines a ccy
    | _ => 0).sum

namespace Bank

variable {b b' : Bank} {e : BankEvent} {es : List BankEvent}

theorem movement_currency {p : BankPayment} {a : Uuid} {ccy : String} (h : b.Sound p) (hs : p.status = .settled)
    (ha : b.suspense ≠ some a) (hc : b.currencyOf a ≠ some ccy) : b.movement p a ccy = 0 := by
  have away {x : Uuid} {cur : Option String} (hcur : x = a → b.currencyOf a = cur) (z : ℤ) :
      amountOn (some x) cur z a ccy = 0 := by
    rw [amountOn, if_neg]
    rintro ⟨hx, hccy⟩
    exact hc ((hcur (Option.some.inj hx)).trans hccy)
  have hdebtor : p.debtor = a → b.currencyOf a = some p.currency := fun heq => heq ▸ h.debtor
  cases hn : p.converted with
  | none =>
    have hcreditor : p.creditor = a → b.currencyOf a = some p.currency := fun heq => heq ▸ h.direct hs hn
    simp only [movement, hn, away hdebtor, away hcreditor, add_zero]
  | some n =>
    have hcreditor : p.creditor = a → b.currencyOf a = b.currencyOf p.creditor := fun heq => heq ▸ rfl
    have hsuspense (cur : Option String) (z : ℤ) : amountOn b.suspense cur z a ccy = 0 := by
      rw [amountOn, if_neg]
      rintro ⟨hsus, -⟩
      exact ha hsus
    simp only [movement, hn, away hdebtor, away hcreditor, hsuspense, add_zero]

theorem postedBy_snoc (a : Uuid) (ccy : String) : postedBy (es ++ [e]) a ccy =
    postedBy es a ccy + postedBy [e] a ccy := by
  simp [postedBy]

theorem movement_congr (hc : b'.currencyOf = b.currencyOf) (hs : b'.suspense = b.suspense) (p : BankPayment) :
    b'.movement p = b.movement p := by
  funext a ccy
  simp only [movement, hc, hs]

/-- A payment that is rewritten changes the position by what it moves more than before. -/
theorem position_move {p : BankPayment} (found : b.payments.find p.id = some p) (status : PaymentStatus)
    (converted : Option ℤ) (moved : Uuid → String → ℤ) (a : Uuid) (ccy : String) :
    (b.move p.id status converted moved).position a ccy = b.position a ccy +
      ((if status = .settled then b.movement { p with converted } a ccy else 0) -
        if p.status = .settled then b.movement p a ccy else 0) := by
  have hmovement : (b.move p.id status converted moved).movement = b.movement := by
    funext q
    exact movement_congr rfl rfl q
  simp only [position, hmovement]
  exact Table.sum_modify (fun q : BankPayment => if q.status = .settled then b.movement q a ccy else 0) found
    (fun q => { q with status, converted }) fun _ => rfl

/-- The books of a bank: every payment is sound, and the balances are the position and what was posted by hand. -/
structure Accounted (es : List BankEvent) (b : Bank) : Prop where
  sound : ∀ id p, b.payments.find id = some p → b.Sound p
  balance : ∀ a ccy, b.balance a ccy = b.position a ccy + postedBy es a ccy

theorem Opening.accounted (h : b.Opening) : Accounted [] b where
  sound := by
    intro id p hp
    have hmem := Table.mem_of_find hp
    rw [h.payments] at hmem
    cases hmem
  balance := by
    intro a ccy
    rw [h.balance, position, h.payments]
    rfl

theorem Sound.congr {p : BankPayment} (h : b.Sound p) (hc : b'.currencyOf = b.currencyOf) : b'.Sound p := by
  refine ⟨?_, h.unconverted, ?_⟩
  · rw [hc]
    exact h.debtor
  · rw [hc]
    exact h.direct

theorem sound_move {p : BankPayment} {status : PaymentStatus} {converted : Option ℤ} {moved : Uuid → String → ℤ}
    (h : ∀ id p, b.payments.find id = some p → b.Sound p) (hp : b.Sound { p with status, converted })
    (found : b.payments.find p.id = some p) :
    ∀ id q, (b.move p.id status converted moved).payments.find id = some q →
      (b.move p.id status converted moved).Sound q := by
  intro id q hq
  have hsound : b.Sound q := by
    rw [move, Table.find_modify] at hq
    obtain ⟨r, hr, rfl⟩ := Option.map_eq_some_iff.mp hq
    by_cases hid : id = p.id
    · subst hid
      rw [found] at hr
      cases hr
      rw [if_pos rfl]
      exact hp
    · rw [if_neg hid]
      exact h id r hr
  exact hsound.congr rfl

/-- Every event keeps the books. -/
theorem Accounted.step (h : Accounted es b) (hs : Step b e b') : Accounted (es ++ [e]) b' := by
  have quiet {p : BankPayment} {status : PaymentStatus} (found : b.payments.find p.id = some p)
    (he : postedBy [e] = 0)
      (hto : status ≠ .settled) (hfrom : p.status ≠ .settled)
      (hopen : status = .initiated ∨ status = .authorised → p.status = .initiated ∨ p.status = .authorised) :
      Accounted (es ++ [e]) (b.move p.id status p.converted 0) := by
    have hsound := h.sound _ p found
    refine ⟨sound_move h.sound ⟨hsound.debtor, fun hst => hsound.unconverted (hopen hst),
      fun hst => absurd hst hto⟩ found, ?_⟩
    intro a ccy
    rw [position_move found, if_neg hto, if_neg hfrom, postedBy_snoc, he]
    simpa [move] using h.balance a ccy
  cases hs with
  | @initiate p fresh positive parties debtor creditor status new =>
    refine ⟨?_, ?_⟩
    · intro id q hq
      have hsound : b.Sound q := by
        rw [Table.find_insert fresh] at hq
        split at hq
        · cases hq
          exact ⟨debtor, fun _ => new, fun hst => by rw [status] at hst; cases hst⟩
        · exact h.sound id q hq
      exact hsound.congr rfl
    · intro a ccy
      have hposition : position { b with payments := b.payments.insert p } a ccy = b.position a ccy := by
        have hsum :=
          Table.sum_insert (fun q : BankPayment => if q.status = .settled then b.movement q a ccy else 0) fresh
        rw [if_neg (by rw [status]; decide), add_zero] at hsum
        exact hsum
      rw [hposition, postedBy_snoc]
      simpa [postedBy] using h.balance a ccy
  | authorise found status =>
    exact quiet found rfl (by decide) (by rw [status]; decide) fun _ => .inl status
  | @transfer p found status same =>
    have hsound := h.sound _ p found
    refine ⟨sound_move h.sound ⟨hsound.debtor, fun hst => by simp at hst, fun _ _ => same⟩ found, ?_⟩
    intro a ccy
    rw [position_move found, if_pos rfl, if_neg (by rw [status]; decide), postedBy_snoc]
    simp only [move, h.balance a ccy, postedBy, List.map_cons, List.map_nil, List.sum_cons, List.sum_nil]
    ring
  | @convert p n currency found status creditor differ positive suspense =>
    have hsound := h.sound _ p found
    refine ⟨sound_move h.sound ⟨hsound.debtor, fun hst => by simp at hst, fun _ hn => by cases hn⟩ found, ?_⟩
    intro a ccy
    rw [position_move found, if_pos rfl, if_neg (by rw [status]; decide), postedBy_snoc]
    simp only [move, h.balance a ccy, postedBy, List.map_cons, List.map_nil, List.sum_cons, List.sum_nil]
    ring
  | @reverse p found status =>
    have hsound := h.sound _ p found
    refine ⟨sound_move h.sound ⟨hsound.debtor, fun hst => by simp at hst, fun hst => by cases hst⟩ found, ?_⟩
    intro a ccy
    rw [position_move found, if_neg (by decide), if_pos status, postedBy_snoc]
    simp only [move, h.balance a ccy, postedBy, List.map_cons, List.map_nil, List.sum_cons,
      List.sum_nil, Pi.neg_apply]
    ring
  | @fail p found status =>
    apply quiet found rfl (by decide)
    · rcases status with hst | hst <;> rw [hst] <;> decide
    · intro hst
      simp at hst
  | post lines =>
    refine ⟨fun id p hp => (h.sound id p hp).congr rfl, ?_⟩
    intro a ccy
    have hposition : position { b with balance := fun a ccy => b.balance a ccy + postedOn lines a ccy } a ccy =
        b.position a ccy := rfl
    rw [hposition, postedBy_snoc]
    simp only [h.balance a ccy, postedBy, List.map_cons, List.map_nil, List.sum_cons, List.sum_nil]
    ring
  | aside =>
    refine ⟨h.sound, ?_⟩
    intro a ccy
    rw [postedBy_snoc]
    simpa [postedBy] using h.balance a ccy

/-- The books of a bank from its opening on. -/
theorem Opening.runs (h : b.Opening) (hr : machine.Runs b es b') : Accounted es b' :=
  hr.invariant Accounted h.accounted fun _ _ _ _ ha hs => ha.step hs

/-- Beside what was posted by hand, an account other than suspense holds its own currency alone. -/
theorem Accounted.foreign (h : Accounted es b) {a : Uuid} {ccy : String} (ha : b.suspense ≠ some a)
    (hc : b.currencyOf a ≠ some ccy) : b.balance a ccy = postedBy es a ccy := by
  have hzero : b.position a ccy = 0 := by
    apply List.sum_eq_zero
    intro z hz
    obtain ⟨p, hp, rfl⟩ := List.mem_map.mp hz
    split
    · next hs => exact movement_currency (h.sound _ p (Table.find_of_mem hp)) hs ha hc
    · rfl
  rw [h.balance, hzero, zero_add]

end Bank
end PaymentLedger
