import PaymentLedger.Db.Statements
import PaymentLedger.Db.Repositories
import PaymentLedger.Math.DecimalText
import PaymentLedger.Text.Xml

namespace PaymentLedger

def pacs008Namespace : String := "urn:iso:std:iso:20022:tech:xsd:pacs.008.001.08"

/-- A tag of the document, which declares its namespace as the default one. -/
def pacs (name : String) : QName := ⟨pacs008Namespace, name⟩

/-- The characters that `lxml` takes in a text or an attribute value. -/
def isXmlChar (c : Char) : Bool :=
  let n := c.toNat
  (32 ≤ n || n = 9 || n = 10 || n = 13) && n ≠ 0xFFFE && n ≠ 0xFFFF

def isXmlText (s : String) : Bool := s.toList.all isXmlChar

inductive Pacs008Failure where
  | emission (status : PaymentStatus)
  -- the `ValueError` of a text that is not XML compatible
  | valueError
  | paymentNotFound
  | accountNotFound
  deriving DecidableEq

/-- An element with text only, and what follows it. -/
def pacsText (name : String) (attributes : List (String × String)) (s : String) (next : Content) : Content :=
  .element (pacs name) attributes (.text s .empty) next

/-- An element with elements only, and what follows it. -/
def pacsGroup (name : String) (content next : Content) : Content := .element (pacs name) [] content next

/-- `payment.end_to_end_id or str(payment.id)`. -/
def Payment.reference (payment : Payment) : String :=
  match payment.endToEndId with
  | some ref => if ref = "" then payment.id.str else ref
  | none => payment.id.str

/-- The parties of a pacs.008 message. -/
structure Pacs008Parties where
  debtorAccountNumber : String
  debtorName : String
  creditorAccountNumber : String
  creditorName : String

/-- The texts that are set from the payment, the accounts and the clock. -/
def pacs008Texts (msgId : Uuid) (created : String) (payment : Payment) (parties : Pacs008Parties) : List String :=
  [msgId.str, created, payment.reference, payment.id.str, payment.currency, payment.amount.str,
   parties.debtorName, parties.debtorAccountNumber, parties.creditorName, parties.creditorAccountNumber]

/-- The document that is serialised. -/
def pacs008Document (msgId : Uuid) (created : String) (payment : Payment) (parties : Pacs008Parties) : Element where
  tag := pacs "Document"
  attributes := []
  content :=
    pacsGroup "FIToFICstmrCdtTrf"
      (pacsGroup "GrpHdr"
        (pacsText "MsgId" [] msgId.str <| pacsText "CreDtTm" [] created <| pacsText "NbOfTxs" [] "1" <|
          pacsGroup "SttlmInf" (pacsText "SttlmMtd" [] "CLRG" .empty) .empty) <|
      pacsGroup "CdtTrfTxInf"
        (pacsGroup "PmtId"
          (pacsText "EndToEndId" [] payment.reference <| pacsText "TxId" [] payment.id.str .empty) <|
          pacsText "IntrBkSttlmAmt" [("Ccy", payment.currency)] payment.amount.str <|
          pacsText "ChrgBr" [] "SLEV" <|
          pacsGroup "Dbtr" (pacsText "Nm" [] parties.debtorName .empty) <|
          pacsGroup "DbtrAcct"
            (pacsGroup "Id"
              (pacsGroup "Othr" (pacsText "Id" [] parties.debtorAccountNumber .empty) .empty) .empty) <|
          pacsGroup "Cdtr" (pacsText "Nm" [] parties.creditorName .empty) <|
          pacsGroup "CdtrAcct"
            (pacsGroup "Id"
              (pacsGroup "Othr" (pacsText "Id" [] parties.creditorAccountNumber .empty) .empty) .empty)
          .empty) .empty) .empty

/-- `build_pacs008`; the id of the message and the time are new each time. -/
def buildPacs008 (msgId : Uuid) (created : String) (payment : Payment) (parties : Pacs008Parties) :
    Except Pacs008Failure Element :=
  if payment.status ≠ .settled then .error (.emission payment.status)
  else if (pacs008Texts msgId created payment parties).all isXmlText then
    .ok (pacs008Document msgId created payment parties)
  else .error .valueError

/-- `emit_pacs008`, on the rows that its session reads. -/
def Store.emitPacs008 (st : Store) (msgId : Uuid) (created : String) (paymentId : Uuid) :
    Except Pacs008Failure Element :=
  match st.payments.find paymentId with
  | none => .error .paymentNotFound
  | some row =>
    match st.accounts.find row.debtorAccountId, st.accounts.find row.creditorAccountId with
    | some debtor, some creditor => buildPacs008 msgId created row.toDomain
        ⟨debtor.accountNumber, debtor.ownerName, creditor.accountNumber, creditor.ownerName⟩
    | _, _ => .error .accountNotFound

section Reading

variable (doc : Element)

def endToEndIdOf : Option String :=
  (doc.find [pacs "CdtTrfTxInf", pacs "PmtId", pacs "EndToEndId"]).bind Element.text

def settlementAmountOf : Option Element := doc.find [pacs "CdtTrfTxInf", pacs "IntrBkSttlmAmt"]

def debtorAccountOf : Option String :=
  (doc.find [pacs "CdtTrfTxInf", pacs "DbtrAcct", pacs "Id", pacs "Othr", pacs "Id"]).bind Element.text

def creditorAccountOf : Option String :=
  (doc.find [pacs "CdtTrfTxInf", pacs "CdtrAcct", pacs "Id", pacs "Othr", pacs "Id"]).bind Element.text

end Reading

theorem text_single (tag : QName) (attributes : List (String × String)) (s : String) :
    Element.text ⟨tag, attributes, .text s .empty⟩ = some s := by
  simp [Element.text, Content.leadingText]

/-- What a reader finds in the document. -/
theorem pacs008Document_reads (msgId : Uuid) (created : String) (payment : Payment) (parties : Pacs008Parties) :
    let doc := pacs008Document msgId created payment parties
    endToEndIdOf doc = some payment.reference ∧
      (settlementAmountOf doc).bind Element.text = some payment.amount.str ∧
      (settlementAmountOf doc).bind (fun el => el.get "Ccy") = some payment.currency ∧
      debtorAccountOf doc = some parties.debtorAccountNumber ∧
      creditorAccountOf doc = some parties.creditorAccountNumber := by
  refine ⟨?_, ?_, rfl, ?_, ?_⟩
  · exact text_single (pacs "EndToEndId") [] payment.reference
  · exact text_single (pacs "IntrBkSttlmAmt") [("Ccy", payment.currency)] payment.amount.str
  · exact text_single (pacs "Id") [] parties.debtorAccountNumber
  · exact text_single (pacs "Id") [] parties.creditorAccountNumber

section XmlText

theorem isXmlChar_digitChar {d : ℕ} (hd : d < 16) : isXmlChar (Nat.digitChar d) = true := by
  interval_cases d <;> decide

theorem isXmlChar_toDigits {b : ℕ} (hb : 1 < b) (hb' : b ≤ 16) (n : ℕ) :
    ∀ c ∈ Nat.toDigits b n, isXmlChar c = true := by
  induction n using Nat.strong_induction_on with
  | _ n ih =>
    intro c hc
    rw [Nat.toDigits_eq_if hb] at hc
    split at hc
    · rw [List.mem_singleton.mp hc]
      exact isXmlChar_digitChar (by omega)
    · rcases List.mem_append.mp hc with hc | hc
      · have hlt : n / b < n := Nat.div_lt_self (by omega) hb
        exact ih (n / b) hlt c hc
      · rw [List.mem_singleton.mp hc]
        have hlt : n % b < b := Nat.mod_lt n (by omega)
        exact isXmlChar_digitChar (by omega)

theorem isXmlText_uuid (u : Uuid) : isXmlText u.str = true := by
  have hhex : ∀ c ∈ List.replicate (32 - (Nat.toDigits 16 u.toNat).length) '0' ++ Nat.toDigits 16 u.toNat,
      isXmlChar c = true := by
    intro c hc
    rcases List.mem_append.mp hc with hc | hc
    · rw [List.eq_of_mem_replicate hc]
      rfl
    · exact isXmlChar_toDigits (by decide) (by decide) _ c hc
  have hgroup (n : ℕ) : ∀ c ∈ ((List.replicate (32 - (Nat.toDigits 16 u.toNat).length) '0' ++
      Nat.toDigits 16 u.toNat).drop n).take 4, isXmlChar c = true :=
    fun c hc => hhex c (List.mem_of_mem_drop (List.mem_of_mem_take hc))
  have hdash : isXmlChar '-' = true := rfl
  rw [isXmlText, List.all_eq_true, Uuid.str, String.toList_ofList]
  simp only [List.forall_mem_append, List.forall_mem_cons]
  exact ⟨⟨⟨⟨fun c hc => hhex c (List.mem_of_mem_take hc), hdash, hgroup 8⟩, hdash, hgroup 12⟩, hdash, hgroup 16⟩,
    hdash, fun c hc => hhex c (List.mem_of_mem_drop hc)⟩

theorem isXmlChar_of_isDigit {c : Char} (h : c.isDigit = true) : isXmlChar c = true := by
  simp only [Char.isDigit, Bool.and_eq_true, decide_eq_true_eq, UInt32.le_iff_toNat_le] at h
  have hlow : 48 ≤ c.toNat := h.1
  have hhigh : c.toNat ≤ 57 := h.2
  simp only [isXmlChar, Bool.and_eq_true, Bool.or_eq_true, decide_eq_true_eq]
  omega

theorem isXmlText_decimal (s : Bool) (c : ℕ) (e : ℤ) : isXmlText (Decimal.str (.finite s c e)) = true := by
  obtain ⟨whole, fraction, x, hwhole, hfraction, -, -, -, hstr⟩ := Decimal.str_finite s c e
  have htail : ∀ d ∈ Decimal.strTail x, isXmlChar d = true := by
    intro d hd
    unfold Decimal.strTail at hd
    split at hd
    · cases hd
    · rcases List.mem_cons.mp hd with rfl | hd
      · rfl
      · rcases List.mem_cons.mp hd with rfl | hd
        · split <;> rfl
        · exact isXmlChar_toDigits (by decide) (by decide) _ d hd
  have hpoint : ∀ d ∈ Decimal.pointed fraction, isXmlChar d = true := by
    intro d hd
    unfold Decimal.pointed at hd
    split at hd
    · cases hd
    · rcases List.mem_cons.mp hd with rfl | hd
      · rfl
      · exact isXmlChar_of_isDigit (hfraction d hd)
  rw [isXmlText, List.all_eq_true, hstr]
  intro d hd
  rcases List.mem_append.mp hd with hd | hd
  · cases s with
    | true =>
      rw [List.mem_singleton.mp hd]
      rfl
    | false => cases hd
  · rcases List.mem_append.mp hd with hd | hd
    · rcases List.mem_append.mp hd with hd | hd
      · exact isXmlChar_of_isDigit (hwhole d hd)
      · exact hpoint d hd
    · exact htail d hd

/-- The ids, the time and the amount of a message are XML compatible: only the other texts can fail. -/
theorem pacs008Texts_isXmlText {msgId : Uuid} {created : String} {payment : Payment} {parties : Pacs008Parties}
    (hcreated : isXmlText created = true) (hamount : payment.amount.IsFinite) :
    (∀ s ∈ pacs008Texts msgId created payment parties, isXmlText s = true) ↔
      ∀ s ∈ [payment.reference, payment.currency, parties.debtorName, parties.debtorAccountNumber,
        parties.creditorName, parties.creditorAccountNumber], isXmlText s = true := by
  have hstr : isXmlText payment.amount.str = true := by
    cases hd : payment.amount with
    | finite s c e => exact isXmlText_decimal s c e
    | _ =>
      rw [hd] at hamount
      cases hamount
  simp only [pacs008Texts, List.forall_mem_cons]
  constructor
  · rintro ⟨-, -, href, -, hcur, -, hparties⟩
    exact ⟨href, hcur, hparties⟩
  · rintro ⟨href, hcur, hparties⟩
    exact ⟨isXmlText_uuid msgId, hcreated, href, isXmlText_uuid payment.id, hcur, hstr, hparties⟩

end XmlText

theorem buildPacs008_ok {msgId : Uuid} {created : String} {payment : Payment}
    {parties : Pacs008Parties} {doc : Element} :
    buildPacs008 msgId created payment parties = .ok doc ↔ payment.status = .settled ∧
      (∀ s ∈ pacs008Texts msgId created payment parties, isXmlText s = true) ∧
      doc = pacs008Document msgId created payment parties := by
  rw [buildPacs008]
  constructor
  · intro h
    split at h
    · cases h
    · rename_i hs
      split at h
      · rename_i ht
        cases h
        exact ⟨not_not.mp hs, List.all_eq_true.mp ht, rfl⟩
      · cases h
  · rintro ⟨hs, ht, rfl⟩
    rw [if_neg (not_not.mpr hs), if_pos (List.all_eq_true.mpr ht)]

end PaymentLedger
