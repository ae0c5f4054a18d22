import PaymentLedger.Text.Json
import PaymentLedger.Payments.Idempotency
import PaymentLedger.Payments.Outbox
import PaymentLedger.Payments.Requests
import PaymentLedger.Api.Initiation
import PaymentLedger.Webhooks.Dispatch

namespace PaymentLedger

/-- A value as `json.dumps` writes it with `default=str`. -/
def PyValue.scalar : PyValue → JsonScalar
  | .none => .null
  | .int n => .int n
  | .str s => .str s
  | .uuid u => .str u.str
  | .decimal d => .str d.str
  | .status s => .str s.value

def PyDict.members (d : PyDict) : JsonObject := d.map fun kv => (kv.1, kv.2.scalar)

/-- `json.dumps(d, sort_keys=True, default=str)`. -/
def PyDict.canonical (d : PyDict) : String := Json.dumps (Json.sortKeys d.members)

/-- `_encode_payload`. -/
def encodePayload (delivery : WebhookDelivery) : List UInt8 := utf8 delivery.payload.canonical.toList

/-- `hash_request_body`, for a hash of bytes. -/
def hashRequestBody (sha256 : List UInt8 → String) (body : PyDict) : String := sha256 (utf8 body.canonical.toList)

/-- What the receiver of a body reads. -/
def readBody (body : List UInt8) : Option JsonObject := Json.loads (String.ofList (asciiText body))

section Texts

/-- The number that hexadecimal digits write. -/
def hexNumber (l : List Char) : ℕ := l.foldl (fun n c => 16 * n + (Json.hexValue c).getD 0) 0

theorem hexNumber_concat (l : List Char) (c : Char) :
    hexNumber (l ++ [c]) = 16 * hexNumber l + (Json.hexValue c).getD 0 := by
  rw [hexNumber, List.foldl_append]
  rfl

theorem hexNumber_toDigits (n : ℕ) : hexNumber (Nat.toDigits 16 n) = n := by
  induction n using Nat.strong_induction_on with
  | h n ih =>
    rw [Nat.toDigits_eq_if (by decide)]
    split
    · next hlt =>
      have hdigit := hexNumber_concat [] (Nat.digitChar n)
      rw [Json.hexValue_digitChar hlt] at hdigit
      simpa [hexNumber] using hdigit
    · next hge =>
      rw [hexNumber_concat, ih (n / 16) (by omega), Json.hexValue_digitChar (Nat.mod_lt n (by decide)),
        Option.getD_some]
      omega

theorem hexNumber_zeros (k : ℕ) (l : List Char) : hexNumber (List.replicate k '0' ++ l) = hexNumber l := by
  induction k with
  | zero => rfl
  | succ k ih =>
    rw [← ih]
    rfl

/-- The text of a UUID determines it. -/
theorem Uuid.str_injective : Function.Injective Uuid.str := by
  have hlength (u : Uuid) :
      (List.replicate (32 - (Nat.toDigits 16 u.toNat).length) '0' ++ Nat.toDigits 16 u.toNat).length = 32 := by
    have hdigits : (Nat.toDigits 16 u.toNat).length ≤ 32 := Nat.toDigits_length 16 u.toNat 32 (by decide) u.isLt
    rw [List.length_append, List.length_replicate]
    omega
  have hgroups {l l' : List Char} (hl : l.length = 32) (hl' : l'.length = 32)
      (h : l.take 8 ++ '-' :: (l.drop 8).take 4 ++ '-' :: (l.drop 12).take 4 ++ '-' :: (l.drop 16).take 4 ++
          '-' :: l.drop 20 =
        l'.take 8 ++ '-' :: (l'.drop 8).take 4 ++ '-' :: (l'.drop 12).take 4 ++ '-' :: (l'.drop 16).take 4 ++
          '-' :: l'.drop 20) : l = l' := by
    have hsplit (x : List Char) :
        x.take 8 ++ ((x.drop 8).take 4 ++ ((x.drop 12).take 4 ++ ((x.drop 16).take 4 ++ x.drop 20))) = x := by
      have h8 := List.take_append_drop 8 x
      have h12 := List.take_append_drop 4 (x.drop 8)
      have h16 := List.take_append_drop 4 (x.drop 12)
      have h20 := List.take_append_drop 4 (x.drop 16)
      rw [List.drop_drop] at h12 h16 h20
      rw [h20, h16, h12, h8]
    obtain ⟨h, h₅⟩ := List.append_inj h (by simp [hl, hl'])
    obtain ⟨h, h₄⟩ := List.append_inj h (by simp [hl, hl'])
    obtain ⟨h, h₃⟩ := List.append_inj h (by simp [hl, hl'])
    obtain ⟨h₁, h₂⟩ := List.append_inj h (by simp [hl, hl'])
    rw [← hsplit l, h₁, List.tail_eq_of_cons_eq h₂, List.tail_eq_of_cons_eq h₃, List.tail_eq_of_cons_eq h₄,
      List.tail_eq_of_cons_eq h₅, hsplit l']
  intro u v h
  have hlist := congrArg String.toList h
  simp only [Uuid.str, String.toList_ofList] at hlist
  have hsame := hgroups (hlength u) (hlength v) hlist
  have hnumber := congrArg hexNumber hsame
  rw [hexNumber_zeros, hexNumber_zeros, hexNumber_toDigits, hexNumber_toDigits] at hnumber
  exact BitVec.eq_of_toNat_eq hnumber

theorem PaymentStatus.value_injective : Function.Injective PaymentStatus.value := by
  intro s t h
  cases s <;> cases t <;> first | rfl | exact absurd h (by decide)

/-- A decimal that its own text gives back. -/
def Decimal.Readable (d : Decimal) : Prop := Decimal.ofString d.str = some d

theorem Decimal.Readable.inj {d d' : Decimal} (h : d.Readable) (h' : d'.Readable)
    (hs : d.str = d'.str) : d = d' := by
  have hread := h
  rw [Readable, hs, h'] at hread
  exact (Option.some.inj hread).symm

theorem Numeric.readable (n : Numeric 2) : n.toDecimal.Readable := by
  cases n with
  | nan =>
    show Decimal.ofString "NaN" = some (.nan false)
    decide +kernel
  | num z lt =>
    have hdigits : digitCount z.natAbs ≤ 18 := (digitCount_le_iff _ 18 (by decide)).mpr lt
    apply Decimal.ofString_str
    · decide
    · rw [Decimal.maxEmax]
      omega

theorem members_json (d : PyDict) : d.json.members = d.members := by
  have hvalue (v : PyValue) : v.json.scalar = v.scalar := by cases v <;> rfl
  simp [PyDict.json, PyDict.members, hvalue]

theorem canonical_ascii (d : PyDict) : ∀ c ∈ d.canonical.toList, c.toNat < 128 := Json.dumps_ascii _

/-- The receiver reads the members of the payload, in the order of their names. -/
theorem readBody_encodePayload (delivery : WebhookDelivery) :
    readBody (encodePayload delivery) = some (Json.sortKeys delivery.payload.members) := by
  rw [readBody, encodePayload, asciiText_utf8 (canonical_ascii _), String.ofList_toList,
    PyDict.canonical, Json.loads_dumps]

theorem decimal_scalar {d d' : Decimal} (h : d.Readable) (h' : d'.Readable)
    (hs : (PyValue.decimal d).scalar = (PyValue.decimal d').scalar) : d = d' :=
  h.inj h' (JsonScalar.str.inj hs)

theorem uuid_scalar {u v : Uuid} (h : (PyValue.uuid u).scalar = (PyValue.uuid v).scalar) : u = v :=
  Uuid.str_injective (JsonScalar.str.inj h)

/-- An optional value is determined by its scalar if the value is. -/
theorem option_scalar {α : Type} {f : α → PyValue} {a b : Option α}
    (hf : ∀ x ∈ a, ∀ y ∈ b, (f x).scalar = (f y).scalar → x = y) (hn : ∀ x, (f x).scalar ≠ .null)
    (h : (PyValue.ofOption f a).scalar = (PyValue.ofOption f b).scalar) : a = b := by
  cases a with
  | none =>
    cases b with
    | none => rfl
    | some y => exact absurd h.symm (hn y)
  | some x =>
    cases b with
    | none => exact absurd h (hn x)
    | some y => rw [hf x rfl y rfl h]

theorem response_names (p : Payment) : (paymentResponseDict p).members.map Prod.fst =
    ["id", "debtor_account_id", "creditor_account_id", "amount", "currency", "status", "version", "end_to_end_id",
      "fx_rate_id", "creditor_amount"] := rfl

/-- The amounts of the payment are read back from their texts. -/
structure Payment.Readable (p : Payment) : Prop where
  amount : p.amount.Readable
  creditorAmount : ∀ d ∈ p.creditorAmount, d.Readable

theorem PaymentRow.readable (row : PaymentRow) : row.toDomain.Readable where
  amount := row.amount.value.readable
  creditorAmount := by
    intro d hd
    obtain ⟨n, -, rfl⟩ := Option.map_eq_some_iff.mp hd
    exact n.readable

/-- A response determines the payment. -/
theorem response_members {p q : Payment} (hp : p.Readable) (hq : q.Readable)
    (h : (paymentResponseDict p).members.Perm (paymentResponseDict q).members) : p = q := by
  have hnodup : ((paymentResponseDict p).members.map Prod.fst).Nodup := by
    rw [response_names]
    decide
  have heq := Json.eq_of_perm hnodup (by rw [response_names, response_names]) h
  simp only [PyDict.members, paymentResponseDict, List.map_cons, List.map_nil, List.cons.injEq,
    Prod.mk.injEq, true_and, and_true] at heq
  obtain ⟨hid, hdebtor, hcreditor, hamount, hcurrency, hstatus, hversion, href, hrate, hconverted⟩ := heq
  have hstatus' := PaymentStatus.value_injective (JsonScalar.str.inj hstatus)
  have hversion' : p.version = q.version := by
    have hint := JsonScalar.int.inj hversion
    exact_mod_cast hint
  have href' := option_scalar (f := .str) (fun x _ y _ hxy => JsonScalar.str.inj hxy) (fun _ => nofun) href
  have hrate' := option_scalar (f := .uuid) (fun x _ y _ hxy => uuid_scalar hxy) (fun _ => nofun) hrate
  have hconverted' := option_scalar (f := .decimal)
    (fun x hx y hy hxy => decimal_scalar (hp.creditorAmount x hx) (hq.creditorAmount y hy) hxy)
      (fun _ => nofun) hconverted
  have hmoney := decimal_scalar hp.amount hq.amount hamount
  cases p
  cases q
  simp only at hstatus' hversion' href' hrate' hconverted' hmoney
  rw [Payment.mk.injEq]
  exact ⟨uuid_scalar hid, uuid_scalar hdebtor, uuid_scalar hcreditor, hmoney,
    JsonScalar.str.inj hcurrency, hstatus', hversion', href', hrate', hconverted'⟩

end Texts
section Deliveries

variable {ι : Type} [DecidableEq ι] {rt : Runtime} {step : Feed → Feed → Prop} {st₀ : Store} {calls : ι → Call}
  {σ : Config postgres ι Value}

/-- The receiver of any delivery can read from its body the payment as the event has left it: the body is JSON, and
its members are those of the response for this payment and for no other. -/
theorem deliveries_readable (h₀ : Fresh st₀) (h : Reachable rt step st₀ calls σ) {d : WebhookDelivery}
    (hd : d ∈ σ.world.store.webhookDeliveries.rows) : ∃ c ∈ σ.world.log, ∃ row ∈ c.after.payments.rows,
      d.paymentId = some row.id ∧ d.eventType = "payment." ++ row.status.value ∧ ∃ o,
      readBody (encodePayload d) = some o ∧
        ∀ p : Payment, p.Readable → (o.Perm (paymentResponseDict p).members ↔ p = row.toDomain) := by
  obtain ⟨clock, hr⟩ := h
  have hpublished := (reaches_wellFormed hr).published h₀
  obtain ⟨⟨c, x, s⟩, hmem, hreports⟩ := forall₂_mem_right hpublished.deliveries hd
  obtain ⟨c', hc', hnotices⟩ := List.mem_flatMap.mp hmem
  obtain ⟨n, -, heq⟩ := List.mem_map.mp hnotices
  obtain rfl : c' = c := congrArg Prod.fst heq
  obtain ⟨row, hrow, hstatus, hpayload⟩ := hreports.payload
  refine ⟨c', hc', row, Table.mem_of_find hrow, ?_, ?_, _, readBody_encodePayload d, ?_⟩
  · rw [hreports.payment, Table.find_key hrow]
  · rw [hreports.event, StatusHistoryRow.event, ← hstatus]
  · intro p hp
    have hsorted := Json.sortKeys_perm d.payload.members
    rw [hpayload, members_json] at hsorted ⊢
    constructor
    · intro hperm
      exact response_members hp row.readable (hperm.symm.trans hsorted)
    · rintro rfl
      exact hsorted

theorem sample_readable : Fresh sampleStore ∧ ∃ d, ∃ _ : d ∈ sampleEnd.world.store.webhookDeliveries.rows,
    ∃ c ∈ sampleEnd.world.log, ∃ row ∈ c.after.payments.rows,
      d.paymentId = some row.id ∧ d.eventType = "payment." ++ row.status.value ∧ ∃ o,
      readBody (encodePayload d) = some o ∧
        ∀ p : Payment, p.Readable → (o.Perm (paymentResponseDict p).members ↔ p = row.toDomain) := by
  have hsome : sampleEnd.world.store.webhookDeliveries.rows ≠ [] := by decide +kernel
  obtain ⟨d, ds, hcons⟩ := List.exists_cons_of_ne_nil hsome
  have hd : d ∈ sampleEnd.world.store.webhookDeliveries.rows := by
    rw [hcons]
    exact List.mem_cons_self
  exact ⟨sampleStore_fresh, d, hd, deliveries_readable sampleStore_fresh (sampleEnd_reachable Eq) hd⟩

end Deliveries

section Requests

variable {ι : Type} [DecidableEq ι] {rt : Runtime} {step : Feed → Feed → Prop} {st₀ : Store} {calls : ι → Call}
  {σ : Config postgres ι Value}

theorem request_names (body : InitiatePaymentRequest) : body.modelDump.members.map Prod.fst =
    ["debtor_account_id", "creditor_account_id", "amount", "currency", "end_to_end_id"] := rfl

/-- What is hashed of a request determines the request. -/
theorem request_canonical {body body' : InitiatePaymentRequest} (h : body.amount.Readable)
    (h' : body'.amount.Readable) :
    body.modelDump.canonical = body'.modelDump.canonical ↔ body = body' := by
  have hnodup : (body.modelDump.members.map Prod.fst).Nodup := by
    rw [request_names]
    decide
  rw [PyDict.canonical, PyDict.canonical, Json.dumps_sorted_iff hnodup]
  constructor
  · intro hperm
    have heq := Json.eq_of_perm hnodup (by rw [request_names, request_names]) hperm
    simp only [PyDict.members, InitiatePaymentRequest.modelDump, List.map_cons, List.map_nil, List.cons.injEq,
      Prod.mk.injEq, true_and, and_true] at heq
    obtain ⟨hdebtor, hcreditor, hamount, hcurrency, href⟩ := heq
    have href' := option_scalar (f := .str) (fun x _ y _ hxy => JsonScalar.str.inj hxy) (fun _ => nofun) href
    have hmoney := h.inj h' (JsonScalar.str.inj hamount)
    cases body
    cases body'
    rw [InitiatePaymentRequest.mk.injEq]
    exact ⟨Uuid.str_injective (JsonScalar.str.inj hdebtor),
      Uuid.str_injective (JsonScalar.str.inj hcreditor), hmoney,
      JsonScalar.str.inj hcurrency, href'⟩
  · rintro rfl
    exact .refl _

/-- The idempotent calls are those of `POST /payments`, keyed by a hash of their bodies that tells these bodies
apart. -/
structure HashedBodies (rt : Runtime) (sha256 : List UInt8 → String) (calls : ι → Call) : Prop where
  hash : rt.hashRequestBody = hashRequestBody sha256
  bodies : ∀ i key body req, calls i = .initiatePaymentIdempotent key body req → ∃ b : InitiatePaymentRequest,
    b.amount.Readable ∧ body = b.modelDump ∧ req = b.newPayment
  apart : ∀ i j key key' body body' req req', calls i = .initiatePaymentIdempotent key body req →
    calls j = .initiatePaymentIdempotent key' body' req' →
    hashRequestBody sha256 body = hashRequestBody sha256 body' → body.canonical = body'.canonical

/-- Whoever is answered with 201, first or later, by a creation or a replay, is answered with a payment that has
been created once, with the terms that its own body asks for. -/
theorem answered_as_requested {sha256 : List UInt8 → String} (h₀ : st₀.idempotencyKeys.rows = [])
    (h : Reachable rt step st₀ calls σ) (hp : HashedBodies rt sha256 calls) {i : ι} {key : String}
    {body : InitiatePaymentRequest} {v : Value} (hb : body.amount.Readable)
    (hc : calls i = .initiatePaymentIdempotent key body.modelDump body.newPayment)
    (hv : (σ.session i).prog = some (.ret v)) : ∃ row response, paymentsBy calls key σ.world.log = [row] ∧
      (∃ c ∈ σ.world.log, paymentsCreated c.tx = [row] ∧ Requested c.before body.newPayment row) ∧
      v = .response 201 response ∧ response.json = (paymentResponseDict row.toDomain).json := by
  obtain ⟨clock, hr⟩ := h
  have hwf := reaches_wellFormed hr
  obtain ⟨c, hmem, body', req', row, response, hcall, hcreated, hhash, rfl, hresponse⟩ := hwf.answered h₀ hc hv
  obtain ⟨b, hread, rfl, rfl⟩ := hp.bodies _ _ _ _ hcall
  obtain rfl : b = body := by
    rw [hp.hash] at hhash
    exact (request_canonical hread hb).mp (hp.apart _ _ _ _ _ _ _ _ hcall hc hhash)
  refine ⟨row, response, ?_, ⟨c, hmem, hcreated, ?_⟩, rfl, hresponse⟩
  · rw [hwf.paymentsBy_eq h₀ hmem (idempotencyKey_eq.mpr ⟨_, _, hcall⟩) (by simp [hcreated]), hcreated]
  · obtain ⟨v, d, hd⟩ := hwf.does hmem
    have hwrites : .insertPayment row ∈ d.writes c.began := by
      have hrow : row ∈ paymentsCreated c.tx := by
        rw [hcreated]
        exact List.mem_singleton_self row
      rw [paymentsCreated, hd.writes] at hrow
      obtain ⟨w, hw, hinsert⟩ := List.mem_filterMap.mp hrow
      cases w with
      | insertPayment r =>
        obtain rfl := Option.some.inj hinsert
        exact hw
      | _ => cases hinsert
    obtain ⟨subs, ds, completion, rfl⟩ := Deed.mem_insertPayment hd.deed.legal hwrites
    obtain ⟨req, hreq, hi⟩ := hd.deed.initiated
    rw [hcall] at hreq
    obtain rfl := Option.some.inj hreq
    exact hi.requested

/-- One request, sent twice. -/
def repeatedBody : InitiatePaymentRequest := ⟨1, 2, cents 1000, "EUR", some "invoice 7"⟩

def repeatedCalls : Fin 2 → Call := fun _ =>
  .initiatePaymentIdempotent "key" repeatedBody.modelDump repeatedBody.newPayment

def repeatedEnd : Config postgres (Fin 2) Value :=
  ((System sampleRuntime sampleStore 0 repeatedCalls).run retriedSchedule).get (by decide +kernel)

theorem answered_as_requested_repeated : ∃ v, (repeatedEnd.session 1).result = some (.ok v) ∧ ∃ row response,
    paymentsBy repeatedCalls "key" repeatedEnd.world.log = [row] ∧
      (∃ c ∈ repeatedEnd.world.log, paymentsCreated c.tx = [row] ∧ Requested c.before repeatedBody.newPayment row) ∧
      v = .response 201 response ∧ response.json = (paymentResponseDict row.toDomain).json := by
  have hreach : Reachable sampleRuntime Eq sampleStore repeatedCalls repeatedEnd :=
    reachable_of_run (Option.some_get _).symm
  obtain ⟨v, hv⟩ := result_returned (by decide +kernel :
    ((repeatedEnd.session 1).result.bind Except.toOption).isSome = true)
  have hread : repeatedBody.amount.Readable := Numeric.readable (.num 1000 (by decide))
  have hbodies : HashedBodies sampleRuntime (fun _ => String.ofList (List.replicate 64 '0')) repeatedCalls := by
    refine ⟨rfl, ?_, ?_⟩
    · intro i key body req hc
      obtain ⟨-, rfl, rfl⟩ := Call.initiatePaymentIdempotent.inj hc
      exact ⟨repeatedBody, hread, rfl, rfl⟩
    · intro i j key key' body body' req req' hi hj _
      obtain ⟨-, rfl, -⟩ := Call.initiatePaymentIdempotent.inj hi
      obtain ⟨-, rfl, -⟩ := Call.initiatePaymentIdempotent.inj hj
      rfl
  exact ⟨v, hv, answered_as_requested rfl hreach hbodies hread rfl (result_ok.mp hv)⟩

end Requests
end PaymentLedger
