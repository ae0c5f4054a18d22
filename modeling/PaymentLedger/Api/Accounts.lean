import PaymentLedger.Services.Runs
import PaymentLedger.Text.Strings
import PaymentLedger.Transaction.Wp

namespace PaymentLedger

/-- What `POST /accounts` admits. -/
structure CreateAccountRequest where
  accountNumber : String
  ownerName : String
  accountType : String
  currency : String
  accountNumber_length : 1 ≤ accountNumber.length ∧ accountNumber.length ≤ 34
  ownerName_length : 1 ≤ ownerName.length ∧ ownerName.length ≤ 255
  accountType_length : 1 ≤ accountType.length ∧ accountType.length ≤ 20
  currency_length : currency.length = 3

inductive AccountError where
  | db (e : DbError)
  | uniqueViolation
  -- the row is gone when it is read back
  | notRefreshed
  deriving DecidableEq

/-- The keys of a row of `accounts` in its unique indexes. -/
inductive AccountKey where
  | id (id : Uuid)
  | accountNumber (accountNumber : String)
  deriving DecidableEq

/-- An insert enters its keys in the indexes; until it ends, other inserts of the same keys wait. -/
inductive AccountWrite where
  | enter (key : AccountKey)
  | insert (row : Account)

inductive AccountStmt where
  | insertAccount (accountNumber ownerName accountType currency : String)
  | selectAccount (id : Uuid)

@[reducible] def AccountStmt.Res : AccountStmt → Type
  | insertAccount _ _ _ _ => Uuid
  | selectAccount _ => Option Account

/-- A new row of `accounts`, with the defaults of its other columns. -/
def Account.new (id : Uuid) (accountNumber ownerName accountType currency : String) : Except DbError Account := do
  let accountNumber ← varchar 34 accountNumber
  let ownerName ← varchar 255 ownerName
  let accountType ← varchar 20 accountType
  let currency ← varchar 3 currency
  return ⟨id, accountNumber, ownerName, accountType, currency, "active", 0⟩

def AccountWrite.apply : AccountWrite → Store → Store
  | enter _, st => st
  | insert row, st => { st with accounts := st.accounts.insert row }

def AccountWrite.locked : AccountWrite → Option AccountKey
  | enter key => some key
  | insert _ => none

def Store.accountNumbers (st : Store) : List String := st.accounts.rows.map Account.accountNumber

/-- One statement on the rows it sees; the id of a new row is drawn by the session. -/
def AccountStmt.eval (st : Store) (id : Uuid) :
    (s : AccountStmt) → Option (Except AccountError (s.Res × List AccountWrite))
  | insertAccount accountNumber ownerName accountType currency =>
    if st.hasAccount id then none else some
      (match Account.new id accountNumber ownerName accountType currency with
      | .error e => .error (.db e)
      | .ok row =>
        if row.accountNumber ∈ st.accountNumbers then .error .uniqueViolation
        else .ok (id, [.enter (.id id), .enter (.accountNumber row.accountNumber), .insert row]))
  | selectAccount id => some (.ok (st.accounts.find id, []))

/-- The database under the accounts API. -/
@[reducible] def accountsDb : Dbms where
  Store := Store
  Write := AccountWrite
  Row := AccountKey
  Stmt := AccountStmt
  Res := AccountStmt.Res
  Err := AccountError
  Choice := Uuid
  apply := AccountWrite.apply
  locked := AccountWrite.locked
  eval := fun s st _ id => s.eval st id

section Endpoints

/-- `create_account` of the repository. -/
def createAccount (accountNumber ownerName accountType currency : String) : Prog accountsDb Account :=
  .exec (.insertAccount accountNumber ownerName accountType currency) fun id =>
    .exec (.selectAccount id) fun
      | some row => .ret row
      | none => .raise .notRefreshed

/-- `create_account` of the API. -/
def createAccountEndpoint (body : CreateAccountRequest) : Prog accountsDb Account := Prog.uow do
  let account ← createAccount body.accountNumber body.ownerName body.accountType (upper body.currency)
  Prog.commitTx
  return account

inductive AccountAnswer where
  | account (status : ℕ) (a : Account)
  | refused (status : ℕ) (detail : String)
  | unhandled
  deriving DecidableEq

def createAccountAnswer : Except AccountError Account → AccountAnswer
  | .ok account => .account 201 account
  | .error .uniqueViolation => .refused 409 "account_number already exists"
  | .error _ => .unhandled

/-- `get_account` of the API, on the store that it reads. -/
def getAccountEndpoint (st : Store) (accountId : Uuid) : AccountAnswer :=
  match st.accounts.find accountId with
  | some account => .account 200 account
  | none => .refused 404 "account not found"

end Endpoints

section Identities

/-- The row that a request asks for, under this id. -/
def CreateAccountRequest.row (body : CreateAccountRequest) (id : Uuid) : Except DbError Account :=
  Account.new id body.accountNumber body.ownerName body.accountType (upper body.currency)

/-- An account without its version, which postings raise. -/
def Account.identity (a : Account) : Account := { a with version := 0 }

def Store.identities (st : Store) : List Account := st.accounts.rows.map Account.identity

variable {st st' : Store} {row : Account}

theorem accountNumbers_eq : st.accountNumbers = st.identities.map Account.accountNumber := by
  rw [Store.identities, List.map_map]
  rfl

theorem findAccount_none {id : Uuid} : st.accounts.find id = none ↔ id ∉ st.identities.map Account.id := by
  have hids : st.identities.map Account.id = st.accounts.rows.map Account.id := by
    rw [Store.identities, List.map_map]
    rfl
  rw [hids, st.accounts.find_none_iff]

theorem hasAccount_iff {id : Uuid} : st.hasAccount id = false ↔ id ∉ st.identities.map Account.id := by
  rw [← findAccount_none, Store.hasAccount, Option.isSome_eq_false_iff, Option.isNone_iff_eq_none]

theorem Account.new_ok {id : Uuid} {accountNumber ownerName accountType currency : String} :
    Account.new id accountNumber ownerName accountType currency = .ok row ↔
      ∃ n, varchar 34 accountNumber = .ok n ∧ ∃ o, varchar 255 ownerName = .ok o ∧
        ∃ t, varchar 20 accountType = .ok t ∧ ∃ c, varchar 3 currency = .ok c ∧
          row = ⟨id, n, o, t, c, "active", 0⟩ := by
  simp only [Account.new, except_bind_ok, except_pure_ok]

theorem CreateAccountRequest.row_ok {body : CreateAccountRequest} {id : Uuid} (h : body.row id = .ok row) :
    row.id = id ∧ row.accountNumber = body.accountNumber ∧ row.identity = row ∧
    varchar 3 row.currency = .ok row.currency := by
  obtain ⟨n, hn, o, -, t, -, c, hc, rfl⟩ := Account.new_ok.mp h
  exact ⟨rfl, varchar_exact hn (.inl body.accountNumber_length.2), rfl, varchar_stored hc⟩

/-- Whether a row can be stored does not depend on its id. -/
theorem CreateAccountRequest.row_error {body : CreateAccountRequest} {id id' : Uuid} {e : DbError}
    (h : body.row id = .error e) : ¬∃ row, body.row id' = .ok row := by
  rintro ⟨row, hrow⟩
  obtain ⟨n, hn, o, ho, t, ht, c, hc, rfl⟩ := Account.new_ok.mp hrow
  have hok : body.row id = .ok ⟨id, n, o, t, c, "active", 0⟩ :=
    Account.new_ok.mpr ⟨n, hn, o, ho, t, ht, c, hc, rfl⟩
  rw [hok] at h
  cases h

/-- An insert takes its place after the accounts that are there. -/
theorem identities_insert (h : row.id ∉ st.identities.map Account.id) :
    ({ st with accounts := st.accounts.insert row } : Store).identities = st.identities ++ [row.identity] := by
  rw [Store.identities, Table.rows_insert (findAccount_none.mpr h), List.map_append]
  rfl

theorem identities_grow (ws : List AccountWrite) :
    st.identities ⊆ (applyAll (D := accountsDb) ws st).identities := by
  induction ws generalizing st with
  | nil => exact List.Subset.refl _
  | cons w ws ih =>
    refine List.Subset.trans ?_ ih
    cases w with
    | enter key => exact List.Subset.refl _
    | insert row =>
      intro a ha
      obtain ⟨x, hx, rfl⟩ := List.mem_map.mp ha
      exact List.mem_map_of_mem (Table.mem_insert_of_mem hx)

/-- A step of the payment service, in whatever configuration it is. -/
def ServiceStep (st st' : Store) : Prop :=
  ∃ (ι : Type) (_ : DecidableEq ι) (σ σ' : Config postgres ι Value), Step (feedEnv fun _ _ => True) σ σ' ∧
    σ.world.store = st ∧ σ'.world.store = st'

/-- The payment service changes nothing of an account but its version. -/
theorem ServiceStep.identities (h : ServiceStep st st') : st'.identities = st.identities := by
  obtain ⟨ι, _, σ, σ', hs, rfl, rfl⟩ := h
  cases hs with
  | @commit i k hp =>
    change (Store.after σ.world.store (writesOf (σ.session i).tx)).identities = _
    apply Store.after_eq
    intro w _ st
    cases w with
    | bumpAccount id =>
      exact st.accounts.map_rows_modify id (fun a => { a with version := a.version + 1 })
        (fun _ => rfl) Account.identity
        fun _ => rfl
    | _ => rfl
  | env he =>
    obtain ⟨f, -, rfl⟩ := he
    rfl
  | _ => rfl

end Identities

section Registry

/-- The accounts that a transaction has created. -/
def createdBy (tx : List (Event accountsDb)) : List Account :=
  (writesOf tx).filterMap fun
    | .insert row => some row
    | .enter _ => none

/-- What the creation of an account commits. -/
def Creates (body : CreateAccountRequest) (tx : List (Event accountsDb)) (row : Account) : Prop :=
  ∃ id ws n ws' n', tx =
    [⟨.insertAccount body.accountNumber body.ownerName body.accountType (upper body.currency), id, ws, n⟩,
      ⟨.selectAccount id, some row, ws', n'⟩]

theorem createAccountEndpoint_meets (body : CreateAccountRequest) :
    (Contract.once (fun _ _ => True) (Creates body)).Meets (createAccountEndpoint body) [] [] := by
  refine ⟨trivial, ?_, fun e => rfl⟩
  intro id ws n
  refine ⟨trivial, ?_, fun e => rfl⟩
  intro r ws' n'
  cases r with
  | none => exact rfl
  | some row => exact ⟨⟨rfl, row, id, ws, n, ws', n', rfl⟩, _, rfl, id, ws, n, ws', n', rfl⟩

theorem eval_insertAccount {st : Store} {choice : Uuid} {body : CreateAccountRequest} {id : Uuid}
    {ws : List AccountWrite} :
    AccountStmt.eval st choice
        (.insertAccount body.accountNumber body.ownerName body.accountType (upper body.currency)) =
          some (.ok (id, ws)) ↔
      ∃ row, body.row id = .ok row ∧ choice = id ∧ id ∉ st.identities.map Account.id ∧
        row.accountNumber ∉ st.accountNumbers ∧
        ws = [.enter (.id id), .enter (.accountNumber row.accountNumber), .insert row] := by
  rw [AccountStmt.eval, ← hasAccount_iff]
  by_cases hid : st.hasAccount choice = true
  · rw [if_pos hid]
    constructor
    · intro h
      cases h
    · rintro ⟨row, -, rfl, hfree, -⟩
      rw [hid] at hfree
      cases hfree
  · rw [if_neg hid, Bool.not_eq_true] at *
    cases hrow : Account.new choice body.accountNumber body.ownerName body.accountType (upper body.currency) with
    | error e =>
      constructor
      · intro h
        cases h
      · rintro ⟨row, hok, rfl, -⟩
        rw [CreateAccountRequest.row, hrow] at hok
        cases hok
    | ok row =>
      by_cases hn : row.accountNumber ∈ st.accountNumbers
      · simp only [hn, if_true]
        constructor
        · intro h
          cases h
        · rintro ⟨row', hok, rfl, -, hnew, -⟩
          rw [CreateAccountRequest.row, hrow] at hok
          cases hok
          exact absurd hn hnew
      · simp only [hn, if_false]
        constructor
        · intro h
          cases h
          exact ⟨row, hrow, rfl, hid, hn, rfl⟩
        · rintro ⟨row', hok, rfl, -, -, rfl⟩
          rw [CreateAccountRequest.row, hrow] at hok
          cases hok
          rfl

variable {ι : Type} [DecidableEq ι] {env : Store → Store → Prop} {st₀ : Store} {calls : ι → CreateAccountRequest}
  {σ : Config accountsDb ι Account} {l l' : List (Commit accountsDb ι)} {c : Commit accountsDb ι}

/-- The statements of a commit: the row is inserted and read back. -/
theorem WellFormed.inserted (h : WellFormed env st₀ (fun i => createAccountEndpoint (calls i)) σ)
    (hl : σ.world.log = l ++ c :: l') :
    ∃ row a n n', (calls c.caller).row row.id = .ok row ∧ c.tx =
      [⟨.insertAccount (calls c.caller).accountNumber (calls c.caller).ownerName (calls c.caller).accountType
          (upper (calls c.caller).currency), row.id,
          [.enter (.id row.id), .enter (.accountNumber row.accountNumber), .insert row], n⟩,
        ⟨.selectAccount row.id, some a, [], n'⟩] := by
  obtain ⟨done, tx, p, ht, hd, -⟩ := h.trace c.caller
  have hmem := mem_ownOf (by rw [hl]; simp : c ∈ σ.world.log)
  rw [← hd] at hmem
  obtain ⟨a, b, hab⟩ := mem_committedOf hmem
  obtain ⟨-, v, id, ws, n, ws', n', htx⟩ := Contract.commit_of_trace (createAccountEndpoint_meets _) ht hab
  obtain ⟨-, hrec, -⟩ := h.committed l c l' hl
  have hevaluated := hrec.evaluated
  rw [htx] at hevaluated
  obtain ⟨⟨st, hst⟩, ⟨st', hst'⟩, -⟩ := hevaluated
  obtain ⟨choice, heval⟩ := hst.eval
  obtain ⟨choice', heval'⟩ := hst'.eval
  obtain ⟨row, hrow, -, -, -, rfl⟩ := (@eval_insertAccount st choice (calls c.caller) id ws).mp heval
  obtain ⟨-, rfl⟩ := Prod.mk.inj (Except.ok.inj (Option.some.inj heval'))
  obtain ⟨rfl, -, -, -⟩ := CreateAccountRequest.row_ok hrow
  exact ⟨row, v, n, n', hrow, htx⟩

/-- The accounts are those before and the new row, if its id was not taken. -/
theorem identities_view {st : Store} {row : Account} {tx : List (Event accountsDb)}
    (h : writesOf tx = [.enter (.id row.id), .enter (.accountNumber row.accountNumber), .insert row]) :
    (view tx st).identities = if row.id ∈ st.identities.map Account.id then st.identities
      else st.identities ++ [row.identity] := by
  have hview : view tx st = { st with accounts := st.accounts.insert row } := by
    rw [view, h]
    rfl
  rw [hview]
  split
  · rename_i htaken
    have hfind : st.accounts.find row.id ≠ none := fun hnone => findAccount_none.mp hnone htaken
    rw [Store.identities, Table.insert, dif_neg hfind]
    rfl
  · rename_i hfree
    exact identities_insert hfree

variable {st st' : Store} {log : List (Commit accountsDb ι)}

omit [DecidableEq ι] in
theorem History.identities_grow (henv : ∀ st st', env st st' → st'.identities = st.identities)
    (h : History env st log st') : st.identities ⊆ st'.identities := by
  apply h.invariant (fun _ (s : Store) => st.identities ⊆ s.identities) (List.Subset.refl _)
  · intro _ s s' hs he
    rw [henv s s' he]
    exact hs
  · intro _ c _ _ hs
    exact List.Subset.trans hs (PaymentLedger.identities_grow _)

omit [DecidableEq ι] in
/-- Keys that no commit enters stay free. -/
theorem History.stays_free (henv : ∀ st st', env st st' → st'.identities = st.identities)
    (h : History env st log st') {id : Uuid} {number : String}
    (hlog : ∀ c ∈ log, ∃ row, row.id ≠ id ∧ row.accountNumber ≠ number ∧
      writesOf c.tx = [.enter (.id row.id), .enter (.accountNumber row.accountNumber), .insert row])
    (hid : id ∉ st.identities.map Account.id) (hn : number ∉ st.identities.map Account.accountNumber) :
    id ∉ st'.identities.map Account.id ∧ number ∉ st'.identities.map Account.accountNumber := by
  apply h.invariant (fun _ (s : Store) => id ∉ s.identities.map Account.id ∧
    number ∉ s.identities.map Account.accountNumber) ⟨hid, hn⟩
  · intro _ s s' hs he
    rwa [henv s s' he]
  · intro l c l' hl hs
    obtain ⟨row, hne, hne', hw⟩ := hlog c (by rw [hl]; simp)
    have hafter : c.after.identities = if row.id ∈ c.before.identities.map Account.id then c.before.identities
        else c.before.identities ++ [row.identity] := identities_view hw
    rw [hafter]
    split
    · exact hs
    · simpa using ⟨⟨by simpa using hs.1, hne.symm⟩, by simpa using hs.2, hne'.symm⟩

/-- A commit creates the account that was asked for, under an id and a number that are new. -/
theorem WellFormed.creates (h : WellFormed env st₀ (fun i => createAccountEndpoint (calls i)) σ)
    (henv : ∀ st st', env st st' → st'.identities = st.identities) (hl : σ.world.log = l ++ c :: l') :
    ∃ row, (calls c.caller).row row.id = .ok row ∧ createdBy c.tx = [row] ∧
      row.accountNumber ∉ c.before.accountNumbers ∧ c.after.identities = c.before.identities ++ [row] ∧
      Creates (calls c.caller) c.tx row := by
  obtain ⟨row, a, n, n', hrow, htx⟩ := h.inserted hl
  obtain ⟨-, hrec, -⟩ := h.committed l c l' hl
  have hevaluated := hrec.evaluated
  rw [htx] at hevaluated
  obtain ⟨⟨st, hst⟩, ⟨st', hst'⟩, -⟩ := hevaluated
  obtain ⟨choice, heval⟩ := hst.eval
  obtain ⟨choice', heval'⟩ := hst'.eval
  obtain ⟨row', hrow', -, hid, hnumber, hws⟩ := eval_insertAccount.mp heval
  obtain rfl := Except.ok.inj (hrow.symm.trans hrow')
  -- the keys were free when the row was inserted, and have been held since
  have hheld : ∀ c' ∈ l.drop n, ∃ row', row'.id ≠ row.id ∧ row'.accountNumber ≠ row.accountNumber ∧
      writesOf c'.tx = [.enter (.id row'.id), .enter (.accountNumber row'.accountNumber), .insert row'] := by
    intro c' hc'
    obtain ⟨k, k', hk⟩ := List.append_of_mem (List.mem_of_mem_drop hc')
    obtain ⟨row', a', m, m', -, htx'⟩ := h.inserted (by rw [hl, hk, List.append_assoc, List.cons_append] :
      σ.world.log = k ++ c' :: (k' ++ c :: l'))
    have hlocks := hst.held c' hc'
    rw [htx'] at hlocks ⊢
    refine ⟨row', ?_, ?_, rfl⟩
    · intro heq
      exact hlocks (.id row.id) (by simp [locksOf, writesOf, AccountWrite.locked])
        (by simp [locksOf, writesOf, AccountWrite.locked, heq])
    · intro heq
      exact hlocks (.accountNumber row.accountNumber) (by simp [locksOf, writesOf, AccountWrite.locked])
        (by simp [locksOf, writesOf, AccountWrite.locked, heq])
  rw [accountNumbers_eq] at hnumber
  obtain ⟨hid, hnumber⟩ := hst.since.stays_free henv hheld hid hnumber
  have hafter : c.after.identities = c.before.identities ++ [row] := by
    have hw : writesOf c.tx = [.enter (.id row.id), .enter (.accountNumber row.accountNumber), .insert row] := by
      rw [htx]
      rfl
    rw [Commit.after, identities_view hw, if_neg hid, (CreateAccountRequest.row_ok hrow).2.2.1]
  -- the row that is read back is the one inserted
  have hread : a = row := by
    have hfree : st'.accounts.find row.id = none :=
      findAccount_none.mpr fun hmem => hid (List.map_subset _ (hst'.since.identities_grow henv) hmem)
    have hfound : (st'.accounts.insert row).find row.id = some a :=
      (Prod.mk.inj (Except.ok.inj (Option.some.inj heval'))).1
    rw [Table.find_insert hfree, if_pos rfl] at hfound
    exact (Option.some.inj hfound).symm
  refine ⟨row, hrow, ?_, ?_, hafter, ?_⟩
  · rw [htx]
    rfl
  · rwa [accountNumbers_eq]
  · rw [htx, hread]
    exact ⟨_, _, _, _, _, rfl⟩

/-- The accounts are those of the start and, in commit order, those created since; no two share a number. -/
theorem WellFormed.registry (h : WellFormed env st₀ (fun i => createAccountEndpoint (calls i)) σ)
    (henv : ∀ st st', env st st' → st'.identities = st.identities) (hn : st₀.accountNumbers.Nodup) :
    σ.world.store.identities = st₀.identities ++ σ.world.log.flatMap (fun c => createdBy c.tx) ∧
      (σ.world.store.identities.map Account.accountNumber).Nodup := by
  apply h.history.invariant
    (fun l (s : Store) => s.identities = st₀.identities ++ l.flatMap (fun c => createdBy c.tx) ∧
    (s.identities.map Account.accountNumber).Nodup)
  · rw [← accountNumbers_eq]
    simpa using hn
  · intro l s s' hs he
    rwa [henv s s' he]
  · intro l c l' hl hs
    obtain ⟨row, -, hcreated, hnew, hafter, -⟩ := h.creates henv hl
    rw [hafter]
    constructor
    · rw [hs.1, List.flatMap_append, List.flatMap_singleton, hcreated, List.append_assoc]
    · rw [List.map_append, List.map_singleton]
      rw [accountNumbers_eq] at hnew
      exact hs.2.append (List.nodup_singleton _) (List.disjoint_singleton.mpr hnew)

/-- A call that returns has committed the account that it returns. -/
theorem WellFormed.account_returned (h : WellFormed env st₀ (fun i => createAccountEndpoint (calls i)) σ)
    (henv : ∀ st st', env st st' → st'.identities = st.identities) {i : ι} {a : Account}
    (hr : (σ.session i).result = some (.ok a)) :
    ∃ c ∈ σ.world.log, c.caller = i ∧ (calls i).row a.id = .ok a ∧ createdBy c.tx = [a] := by
  obtain ⟨done, ht, hd⟩ := h.live (result_ok.mp hr)
  obtain ⟨tx, htx, hcreates⟩ := Contract.meets_trace (createAccountEndpoint_meets _) ht
  obtain ⟨c, hc, rfl, rfl⟩ :=
    mem_of_ownOf (by rw [← hd, htx]; exact List.mem_singleton_self _ : tx ∈ ownOf i σ.world.log)
  obtain ⟨l, l', hl⟩ := List.append_of_mem hc
  obtain ⟨row, hrow, hcreated, -, -, hcreates'⟩ := h.creates henv hl
  obtain ⟨id, ws, n, ws', n', hx⟩ := hcreates
  obtain ⟨id', us, m, us', m', hy⟩ := hcreates'
  have hsame : a = row := by
    rw [hx] at hy
    cases hy
    rfl
  rw [hsame]
  exact ⟨c, hc, rfl, hrow, hcreated⟩

/-- A call that raises has committed nothing. -/
theorem WellFormed.account_raised (h : WellFormed env st₀ (fun i => createAccountEndpoint (calls i)) σ) {i : ι}
    {e : AccountError} (hr : (σ.session i).result = some (.error e)) : ownOf i σ.world.log = [] := by
  obtain ⟨done, ht, hd⟩ := h.live (result_error.mp hr)
  have hnone : committedOf done = [] := Contract.meets_trace (createAccountEndpoint_meets _) ht
  rw [← hd, hnone]

end Registry

section Refusals

/-- Accounts are not removed. -/
def accountsRely : Rely accountsDb where
  rel st st' := Store.identities st ⊆ Store.identities st'
  refl _ := List.Subset.refl _
  trans := List.Subset.trans

/-- Why a call has raised: its account number is taken, or its fields cannot be stored. -/
def Refusal (body : CreateAccountRequest) (r : Except AccountError Account) (st : Store) : Prop :=
  match r with
  | .ok _ => True
  | .error .uniqueViolation => body.accountNumber ∈ st.accountNumbers
  | .error (.db _) => ∀ id row, body.row id ≠ .ok row
  | .error .notRefreshed => False

theorem Refusal.later {body : CreateAccountRequest} {r : Except AccountError Account} {st st' : Store}
    (h : Refusal body r st) (hs : st.identities ⊆ st'.identities) : Refusal body r st' := by
  unfold Refusal at h ⊢
  split at h
  · trivial
  · rw [accountNumbers_eq] at h ⊢
    exact List.map_subset _ hs h
  · exact h
  · exact h

theorem eval_refusal {st : Store} {choice : Uuid} {body : CreateAccountRequest} {e : AccountError}
    (h : AccountStmt.eval st choice
      (.insertAccount body.accountNumber body.ownerName body.accountType (upper body.currency)) = some (.error e)) :
    Refusal body (.error e) st := by
  rw [AccountStmt.eval] at h
  split at h
  · cases h
  · cases hrow : body.row choice with
    | error e' =>
      rw [CreateAccountRequest.row] at hrow
      simp only [hrow, Option.some.injEq, Except.error.injEq] at h
      obtain rfl := h
      intro id row hok
      exact CreateAccountRequest.row_error hrow ⟨row, hok⟩
    | ok row =>
      obtain ⟨-, hnumber, -⟩ := CreateAccountRequest.row_ok hrow
      rw [CreateAccountRequest.row] at hrow
      simp only [hrow, Option.some.injEq] at h
      split at h
      · rename_i htaken
        cases h
        rwa [hnumber] at htaken
      · cases h

theorem wp_createAccountEndpoint (body : CreateAccountRequest) (st : Store) :
    (createAccountEndpoint body).wp False accountsRely (fun r st _ => Refusal body r st) st [] := by
  intro st₁ _
  refine ⟨False.elim, ?_, ?_⟩
  · intro now ch id ws hinsert st₂ hst₂
    refine ⟨False.elim, ?_, ?_⟩
    · intro now' ch' found ws' hselect
      obtain ⟨row, hrow, -, -, -, rfl⟩ := (@eval_insertAccount st₁ ch body id ws).mp hinsert
      obtain ⟨hfound, rfl⟩ := Prod.mk.inj (Except.ok.inj (Option.some.inj hselect))
      cases found with
      | some a => exact fun st₃ _ st₄ _ => trivial
      | none =>
        -- the row that was inserted is there
        have hid : row.id = id := (CreateAccountRequest.row_ok hrow).1
        have hview : row.id ∈ (Store.identities (applyAll (D := accountsDb)
            [.enter (.id id), .enter (.accountNumber row.accountNumber), .insert row] st₂)).map Account.id := by
          rw [show applyAll (D := accountsDb) [.enter (.id id), .enter (.accountNumber row.accountNumber),
            .insert row] st₂ =
            { st₂ with accounts := st₂.accounts.insert row } from rfl]
          by_cases htaken : row.id ∈ st₂.identities.map Account.id
          · exact List.map_subset _ (@identities_grow st₂ [.insert row]) htaken
          · rw [identities_insert htaken]
            simp [Account.identity]
        rw [hid] at hview
        exact absurd hview (findAccount_none.mp hfound)
    · intro now' ch' e hselect
      cases hselect
  · intro now ch e hinsert st₂ hst₂
    exact (eval_refusal hinsert).later hst₂

variable {ι : Type} [DecidableEq ι] {env : Store → Store → Prop} {σ σ' : Config accountsDb ι Account}

theorem Step.identities_grow (henv : ∀ st st', env st st' → st'.identities = st.identities) (hs : Step env σ σ') :
    σ.world.store.identities ⊆ σ'.world.store.identities := by
  cases hs with
  | commit hp => exact PaymentLedger.identities_grow _
  | env he =>
    rw [henv _ _ he]
    exact List.Subset.refl _
  | _ => exact List.Subset.refl _

theorem Reaches.identities_grow (henv : ∀ st st', env st st' → st'.identities = st.identities)
    (h : Reaches env σ σ') :
    σ.world.store.identities ⊆ σ'.world.store.identities := by
  induction h with
  | refl => exact List.Subset.refl _
  | tail _ hs ih => exact List.Subset.trans ih (Step.identities_grow henv hs)

/-- A call that has raised says why. -/
theorem Reaches.refusal (henv : ∀ st st', env st st' → st'.identities = st.identities) {st₀ : Store} {clock : ℕ}
    {calls : ι → CreateAccountRequest}
    (h : Reaches env (Config.init (D := accountsDb) st₀ clock fun i => createAccountEndpoint (calls i)) σ) {i : ι}
    {r : Except AccountError Account} (hr : (σ.session i).result = some r) : Refusal (calls i) r σ.world.store := by
  have hsat : σ.Satisfies False accountsRely (fun i r st _ => Refusal (calls i) r st) i := by
    clear hr
    induction h with
    | refl =>
      intro p hp
      obtain rfl := Option.some.inj hp
      exact wp_createAccountEndpoint (calls i) st₀
    | tail _ hs ih => exact hs.satisfies (fun _ => Step.identities_grow henv hs) ih
  exact hsat.result hr

end Refusals

section Results

variable {ι : Type} [DecidableEq ι] {st₀ : Store} {clock : ℕ} {calls : ι → CreateAccountRequest}
  {σ : Config accountsDb ι Account}

/-- The account is found under its id and its number, with whatever version. -/
structure Registered (st : Store) (a : Account) : Prop where
  byId : ∃ x, getAccountEndpoint st a.id = .account 200 x ∧ x.identity = a
  byNumber : ∃ x, (st.accounts.rows.find? fun x => decide (x.accountNumber = a.accountNumber)) = some x ∧
    x.identity = a

theorem registered_of_mem {st : Store} {a : Account} (hn : (st.identities.map Account.accountNumber).Nodup)
    (h : a ∈ st.identities) : Registered st a := by
  obtain ⟨x, hx, rfl⟩ := List.mem_map.mp h
  constructor
  · refine ⟨x, ?_, rfl⟩
    rw [getAccountEndpoint, show st.accounts.find x.identity.id = some x from Table.find_of_mem hx]
  · rw [← accountNumbers_eq] at hn
    have hfind : (⟨st.accounts.rows, hn⟩ : Table Account.accountNumber).find x.accountNumber = some x :=
      Table.find_of_mem hx
    exact ⟨x, hfind, rfl⟩

/-- Calls of `POST /accounts`, each by its own caller. -/
def AccountsSystem (st₀ : Store) (clock : ℕ) (calls : ι → CreateAccountRequest) : Config accountsDb ι Account :=
  Config.init (D := accountsDb) st₀ clock fun i => createAccountEndpoint (calls i)

/-- Beside the payment service, and in every order of their statements, the calls add to the accounts those that
they answer with 201, each under a number of its own, where they are found ever after; a call answered with 409 has
added none, and its number is taken. -/
theorem accounts_registered (hn : st₀.accountNumbers.Nodup)
    (h : Reaches ServiceStep (AccountsSystem st₀ clock calls) σ) :
    σ.world.store.accountNumbers.Nodup ∧
    σ.world.store.identities = st₀.identities ++ σ.world.log.flatMap (fun c => createdBy c.tx) ∧
    ∀ i r, (σ.session i).result = some r →
      (∃ a, createAccountAnswer r = .account 201 a ∧ (calls i).row a.id = .ok a ∧
        (∃ c ∈ σ.world.log, c.caller = i ∧ createdBy c.tx = [a]) ∧
        ∀ σ', Reaches ServiceStep σ σ' → Registered σ'.world.store a) ∨
      (createAccountAnswer r = .refused 409 "account_number already exists" ∧ ownOf i σ.world.log = [] ∧
        (calls i).accountNumber ∈ σ.world.store.accountNumbers) ∨
      (createAccountAnswer r = .unhandled ∧ ownOf i σ.world.log = [] ∧ ∀ id row, (calls i).row id ≠ .ok row) := by
  have henv : ∀ st st', ServiceStep st st' → st'.identities = st.identities := fun _ _ hs => hs.identities
  have hwf := reaches_wellFormed h
  obtain ⟨hstore, hnumbers⟩ := hwf.registry henv hn
  refine ⟨by rwa [accountNumbers_eq], hstore, ?_⟩
  intro i r hr
  cases r with
  | ok a =>
    obtain ⟨c, hc, hi, hrow, hcreated⟩ := hwf.account_returned henv hr
    refine .inl ⟨a, rfl, hrow, ⟨c, hc, hi, hcreated⟩, ?_⟩
    intro σ' hσ'
    have hmem : a ∈ σ.world.store.identities := by
      rw [hstore]
      exact List.mem_append_right _
        (List.mem_flatMap.mpr ⟨c, hc, by rw [hcreated]; exact List.mem_singleton_self _⟩)
    exact registered_of_mem ((reaches_wellFormed (Relation.ReflTransGen.trans h hσ')).registry henv hn).2
      (Reaches.identities_grow henv hσ' hmem)
  | error e =>
    have hnone := hwf.account_raised hr
    have hrefused := Reaches.refusal henv h hr
    cases e with
    | uniqueViolation => exact .inr (.inl ⟨rfl, hnone, hrefused⟩)
    | db e => exact .inr (.inr ⟨rfl, hnone, hrefused⟩)
    | notRefreshed => exact hrefused.elim

/-- From a database at its start, the creation of accounts leads to databases at their start. -/
theorem accounts_fresh {step : Feed → Feed → Prop} (h₀ : Fresh st₀)
    (h : Reaches (feedEnv step) (AccountsSystem st₀ clock calls) σ) : Fresh σ.world.store := by
  have hwf := reaches_wellFormed h
  apply hwf.history.invariant (fun _ (s : Store) => Fresh s) h₀
  · intro _ s s' hs he
    obtain ⟨f, -, rfl⟩ := he
    exact { hs with }
  · intro l c l' hl hs
    obtain ⟨row, a, n, n', hrow, htx⟩ := hwf.inserted hl
    have hafter : c.after = { c.before with accounts := (Store.accounts c.before).insert row } := by
      rw [Commit.after, htx]
      rfl
    rw [hafter]
    refine { hs with currencies := ?_ }
    intro x hx
    rcases Table.mem_insert hx with hx | rfl
    · exact hs.currencies x hx
    · exact (CreateAccountRequest.row_ok hrow).2.2.2

/-- Of the calls for one new account number that have all ended, without a crash and with fields that can be stored,
one has created the account and all others are told that it exists. -/
theorem account_number_race (hn : st₀.accountNumbers.Nodup)
    (h : Reaches ServiceStep (AccountsSystem st₀ clock calls) σ)
    {number : String} (hnew : number ∉ st₀.accountNumbers) (hcalled : ∃ i, (calls i).accountNumber = number)
    (hstorable : ∀ i, (calls i).accountNumber = number → ∃ id row, (calls i).row id = .ok row)
    (hover : ∀ i, (calls i).accountNumber = number → ((σ.session i).result).isSome = true) :
    ∃ i a, (calls i).accountNumber = number ∧ ((σ.session i).result).map createAccountAnswer =
      some (.account 201 a) ∧
      ∀ j, j ≠ i → (calls j).accountNumber = number →
        ((σ.session j).result).map createAccountAnswer = some (.refused 409 "account_number already exists") := by
  have henv : ∀ st st', ServiceStep st st' → st'.identities = st.identities := fun _ _ hs => hs.identities
  have hwf := reaches_wellFormed h
  obtain ⟨hstore, hnumbers⟩ := hwf.registry henv hn
  -- a call for the number has created its account, or the number is taken
  have hends {j : ι} (hj : (calls j).accountNumber = number) : (∃ a, (σ.session j).result = some (.ok a)) ∨
      ((σ.session j).result).map createAccountAnswer = some (.refused 409 "account_number already exists") ∧
        number ∈ σ.world.store.accountNumbers := by
    obtain ⟨r, hr⟩ := Option.isSome_iff_exists.mp (hover j hj)
    cases r with
    | ok a => exact .inl ⟨a, hr⟩
    | error e =>
      have hrefused := Reaches.refusal henv h hr
      cases e with
      | uniqueViolation =>
        rw [hr, ← hj]
        exact .inr ⟨rfl, hrefused⟩
      | db e =>
        obtain ⟨id, row, hrow⟩ := hstorable j hj
        exact absurd hrow (hrefused id row)
      | notRefreshed => exact hrefused.elim
  -- a number that is taken has been taken by a call that returned
  have htaken (hmem : number ∈ σ.world.store.accountNumbers) : ∃ i a, (calls i).accountNumber = number ∧
      (σ.session i).result = some (.ok a) := by
    rw [accountNumbers_eq, hstore, List.map_append, List.mem_append, ← accountNumbers_eq] at hmem
    obtain ⟨row, hrow, hnumber⟩ := List.mem_map.mp (hmem.resolve_left hnew)
    obtain ⟨c, hc, hcreated⟩ := List.mem_flatMap.mp hrow
    obtain ⟨l, l', hl⟩ := List.append_of_mem hc
    obtain ⟨row', hrow', hcreated', -⟩ := hwf.creates henv hl
    rw [hcreated', List.mem_singleton] at hcreated
    obtain rfl := hcreated
    have hcaller : (calls c.caller).accountNumber = number := by
      rw [← hnumber, (CreateAccountRequest.row_ok hrow').2.1]
    obtain ⟨r, hr⟩ := Option.isSome_iff_exists.mp (hover c.caller hcaller)
    cases r with
    | ok a => exact ⟨c.caller, a, hcaller, hr⟩
    | error e =>
      have hown := mem_ownOf hc
      rw [hwf.account_raised hr] at hown
      cases hown
  have hwinner : ∃ i a, (calls i).accountNumber = number ∧ (σ.session i).result = some (.ok a) := by
    obtain ⟨i, hi⟩ := hcalled
    rcases hends hi with ⟨a, ha⟩ | ⟨-, hmem⟩
    · exact ⟨i, a, hi, ha⟩
    · exact htaken hmem
  obtain ⟨i, a, hi, ha⟩ := hwinner
  refine ⟨i, a, hi, by rw [ha]; rfl, ?_⟩
  intro j hne hj
  rcases hends hj with ⟨b, hb⟩ | ⟨hrefused, -⟩
  · -- two accounts under one number
    obtain ⟨c, hc, rfl, hrow, hcreated⟩ := hwf.account_returned henv ha
    obtain ⟨c', hc', rfl, hrow', hcreated'⟩ := hwf.account_returned henv hb
    rw [hstore, List.map_append, List.map_flatMap] at hnumbers
    obtain ⟨-, hapart⟩ := List.nodup_flatMap.mp (List.nodup_append.mp hnumbers).2.1
    have hsymm : Std.Symm (Function.onFun List.Disjoint fun c : Commit accountsDb ι =>
        (createdBy c.tx).map Account.accountNumber) := ⟨fun _ _ hd => List.Disjoint.symm hd⟩
    have hdisjoint :
        ((createdBy c.tx).map Account.accountNumber).Disjoint ((createdBy c'.tx).map Account.accountNumber) :=
      hapart.forall hc hc' fun hsame => hne (congrArg Commit.caller hsame).symm
    rw [hcreated, hcreated', List.map_singleton, List.map_singleton, (CreateAccountRequest.row_ok hrow).2.1,
      (CreateAccountRequest.row_ok hrow').2.1, hi, hj] at hdisjoint
    exact absurd (List.mem_singleton_self number) (fun hmem => hdisjoint hmem hmem)
  · exact hrefused

end Results

section Sample

/-- A new account in euros. -/
def newAccount : CreateAccountRequest :=
  ⟨"DE99", "Owner", "customer", "eur", by decide, by decide, by decide, by decide⟩

/-- Two callers ask for the account, and the first is before the second. -/
def raceEnd : Option (Config accountsDb (Fin 2) Account) :=
  (AccountsSystem sampleStore 0 fun _ => newAccount).run [(0, 20), (0, 0), (0, 0), (1, 21), (1, 0), (0, 0)]

def raceWinner : Account := ⟨20, "DE99", "Owner", "customer", "EUR", "active", 0⟩

theorem race_reached : ∃ σ, raceEnd = some σ ∧
    Reaches (D := accountsDb) ServiceStep (AccountsSystem sampleStore 0 fun _ => newAccount) σ ∧
    (σ.session 0).result = some (.ok raceWinner) ∧ (σ.session 1).result = some (.error .uniqueViolation) := by
  have hend : (raceEnd.map fun σ => ((σ.session 0).result, (σ.session 1).result)) =
      some (some (.ok raceWinner), some (.error .uniqueViolation)) := by decide +kernel
  obtain ⟨σ, hσ, hresults⟩ := Option.map_eq_some_iff.mp hend
  obtain ⟨hwinner, hloser⟩ := Prod.mk.inj hresults
  exact ⟨σ, hσ, run_reaches _ _ hσ, hwinner, hloser⟩

theorem accounts_registered_race : ∃ σ, raceEnd = some σ ∧ σ.world.store.accountNumbers.Nodup ∧
    Registered σ.world.store raceWinner ∧ "DE99" ∈ σ.world.store.accountNumbers := by
  obtain ⟨σ, hσ, hreach, hwinner, hloser⟩ := race_reached
  obtain ⟨hnodup, -, hanswers⟩ := accounts_registered (by decide) hreach
  refine ⟨σ, hσ, hnodup, ?_, ?_⟩
  · rcases hanswers 0 _ hwinner with ⟨a, ha, -, -, hregistered⟩ | ⟨ha, -⟩ | ⟨ha, -⟩
    · cases ha
      exact hregistered σ .refl
    · cases ha
    · cases ha
  · rcases hanswers 1 _ hloser with ⟨a, ha, -⟩ | ⟨-, -, hmem⟩ | ⟨ha, -⟩
    · cases ha
    · exact hmem
    · cases ha

theorem account_number_race_sample : ∃ σ, raceEnd = some σ ∧ ∃ i a,
    ((σ.session i).result).map createAccountAnswer = some (.account 201 a) ∧
      ∀ j, j ≠ i → ((σ.session j).result).map createAccountAnswer =
        some (.refused 409 "account_number already exists") := by
  obtain ⟨σ, hσ, hreach, hwinner, hloser⟩ := race_reached
  have hover (i : Fin 2) : ((σ.session i).result).isSome = true := by
    match i with
    | 0 => rw [hwinner, Option.isSome_some]
    | 1 => rw [hloser, Option.isSome_some]
  obtain ⟨i, a, -, ha, hothers⟩ :=
    account_number_race (by decide) hreach (by decide : "DE99" ∉ sampleStore.accountNumbers)
    ⟨0, rfl⟩ (fun _ _ => ⟨20, raceWinner, by decide +kernel⟩) fun i _ => hover i
  exact ⟨σ, hσ, i, a, ha, fun j hj => hothers j hj rfl⟩

end Sample
end PaymentLedger
