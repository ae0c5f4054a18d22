import PaymentLedger.Iso20022.Pain001

namespace PaymentLedger

namespace Element

/-- The element has a text that is not blank. -/
def HasText (el : Option Element) : Prop := (strippedText el).getD "" ≠ ""

instance (el : Option Element) : Decidable (HasText el) := by unfold HasText; infer_instance

theorem HasText.text {el : Option Element} (h : HasText el) : ∃ s, strippedText el = some s ∧ s ≠ "" := by
  unfold HasText at h
  cases hs : strippedText el with
  | none => rw [hs] at h; exact absurd rfl h
  | some s => rw [hs] at h; exact ⟨s, rfl, h⟩

variable (root : Element)

/-- Somewhere the document has each of the required fields, and an amount with a currency. -/
structure Sufficient : Prop where
  messageId : HasText (root.find messageIdPath)
  endToEndId : HasText (root.find endToEndIdPath)
  debtor : HasText (root.find debtorPath)
  creditor : HasText (root.find creditorPath)
  amount : HasText (root.find amountPath)
  currency : ∃ el ∈ root.find amountPath, (el.get "Ccy").getD "" ≠ "" ∧
    (Decimal.ofString (strip (el.text.getD ""))).isSome = true

variable {root}

theorem missingFields_nil_iff : root.missingFields = [] ↔ HasText (root.find messageIdPath) ∧
    HasText (root.find endToEndIdPath) ∧ HasText (root.find debtorPath) ∧ HasText (root.find creditorPath) ∧
    HasText (root.find amountPath) := by
  have hamount : (if (root.findText amountPath).getD "" = "" then ["Amt/InstdAmt"] else []) = [] ↔
      HasText (root.find amountPath) := by
    rw [HasText, findText]
    split <;> simp_all
  rw [missingFields, List.append_eq_nil_iff, hamount, List.map_eq_nil_iff, List.filter_eq_nil_iff]
  simp [findText, HasText, and_assoc]

/-- What an accepted document says. -/
structure Reads (root : Element) (t : Pain001CreditTransfer) : Prop where
  sufficient : root.Sufficient
  messageId : root.findText messageIdPath = some t.messageId
  endToEndId : root.findText endToEndIdPath = some t.endToEndId
  debtor : root.findText debtorPath = some t.debtorAccountNumber
  creditor : root.findText creditorPath = some t.creditorAccountNumber
  amount : ∃ el, root.find amountPath = some el ∧ (el.get "Ccy").getD "" = t.currency ∧
    Decimal.ofString (strip (el.text.getD "")) = some t.amount

theorem Sufficient.reads (h : root.Sufficient) : ∃ t, root.readTransfer = .ok t ∧ root.Reads t := by
  have hnone : root.missingFields = [] :=
    missingFields_nil_iff.mpr ⟨h.messageId, h.endToEndId, h.debtor, h.creditor, h.amount⟩
  obtain ⟨m, hm, -⟩ := h.messageId.text
  obtain ⟨e, he, -⟩ := h.endToEndId.text
  obtain ⟨d, hd, -⟩ := h.debtor.text
  obtain ⟨c, hc, -⟩ := h.creditor.text
  obtain ⟨el, hel, hcur, hdec⟩ := h.currency
  obtain ⟨a, ha⟩ := Option.isSome_iff_exists.mp hdec
  have hel' : root.find amountPath = some el := hel
  refine ⟨⟨m, e, d, c, a, (el.get "Ccy").getD ""⟩, ?_, h, hm, he, hd, hc, el, hel', rfl, ha⟩
  simp only [readTransfer, hnone, ne_eq, not_true_eq_false, if_false, hel', hcur, ha, findText, hm, he, hd, hc]

/-- A document is accepted exactly when it is sufficient; otherwise a parse error names the reason. -/
theorem readTransfer_cases (root : Element) :
    (root.Sufficient ∧ ∃ t, root.readTransfer = .ok t ∧ root.Reads t) ∨
      (¬root.Sufficient ∧ ∃ e, root.readTransfer = .error (.parse e)) := by
  by_cases h : root.Sufficient
  · exact .inl ⟨h, h.reads⟩
  · refine .inr ⟨h, ?_⟩
    by_cases hnone : root.missingFields = []
    · obtain ⟨hm, he, hd, hc, ha⟩ := missingFields_nil_iff.mp hnone
      obtain ⟨s, hs, -⟩ := ha.text
      cases hel : root.find amountPath with
      | none => rw [hel] at hs; cases hs
      | some el =>
        by_cases hcur : (el.get "Ccy").getD "" = ""
        · exact ⟨.noCurrency, by simp [readTransfer, hnone, hel, hcur]⟩
        · cases hdec : Decimal.ofString (strip (el.text.getD "")) with
          | none => exact ⟨.invalidAmount (el.text.getD ""), by simp [readTransfer, hnone, hel, hcur, hdec]⟩
          | some a => exact absurd ⟨hm, he, hd, hc, ha, el, hel, hcur, by rw [hdec]; rfl⟩ h
    · exact ⟨.missing root.missingFields, by simp [readTransfer, hnone]⟩

section Origin

/-- The debtor's account is that of the first `PmtInf`, and every other field is that of its first
`CdtTrfTxInf`. -/
def Unmixed (root : Element) (t : Pain001CreditTransfer) : Prop :=
  ∃ pmtInf tx, root.find [ns "PmtInf"] = some pmtInf ∧ pmtInf.child [ns "CdtTrfTxInf"] = some tx ∧
    (∃ el, pmtInf.child [ns "DbtrAcct", ns "Id", ns "Othr", ns "Id"] = some el ∧ root.find debtorPath = some el ∧
      strippedText (some el) = some t.debtorAccountNumber) ∧
    (∃ el, tx.child [ns "PmtId", ns "EndToEndId"] = some el ∧ root.find endToEndIdPath = some el ∧
      strippedText (some el) = some t.endToEndId) ∧
    (∃ el, tx.child [ns "CdtrAcct", ns "Id", ns "Othr", ns "Id"] = some el ∧ root.find creditorPath = some el ∧
      strippedText (some el) = some t.creditorAccountNumber) ∧
    ∃ el, tx.child [ns "Amt", ns "InstdAmt"] = some el ∧ root.find amountPath = some el ∧
      (el.get "Ccy").getD "" = t.currency ∧ Decimal.ofString (strip (el.text.getD "")) = some t.amount

/-- The element is there, and no `PmtInf` nested in the first one has one on the same path before it. -/
def Leads (own : Option Element) (pmtInf : Element) (path : List QName) : Prop :=
  own ≠ none ∧ pmtInf.inside path = own

/-- The first `PmtInf` and its first `CdtTrfTxInf` have every field of their own. -/
def Complete (root : Element) : Prop :=
  ∃ pmtInf tx, root.find [ns "PmtInf"] = some pmtInf ∧ pmtInf.child [ns "CdtTrfTxInf"] = some tx ∧
    Leads (pmtInf.child [ns "DbtrAcct", ns "Id", ns "Othr", ns "Id"]) pmtInf debtorPath ∧
    Leads (tx.child [ns "PmtId", ns "EndToEndId"]) pmtInf endToEndIdPath ∧
    Leads (tx.child [ns "CdtrAcct", ns "Id", ns "Othr", ns "Id"]) pmtInf creditorPath ∧
    Leads (tx.child [ns "Amt", ns "InstdAmt"]) pmtInf amountPath

/-- A field of its own leads inside the first `PmtInf` exactly when the whole search finds it. -/
theorem leads_iff {pmtInf : Element} {path : List QName} {own : Option Element} (hp : path ≠ [])
    (h : root.find [ns "PmtInf"] = some pmtInf)
    (hown : ∀ el, own = some el → (path.reverse, el) ∈ pmtInf.content.descend []) :
    Leads own pmtInf (ns "PmtInf" :: path) ↔ ∃ el, own = some el ∧ root.find (ns "PmtInf" :: path) = some el := by
  constructor
  · rintro ⟨hsome, hin⟩
    obtain ⟨el, hel⟩ := Option.ne_none_iff_exists'.mp hsome
    exact ⟨el, hel, (find_iff_inside hp h (hown el hel)).mpr (hin.trans hel)⟩
  · rintro ⟨el, hel, hfind⟩
    refine ⟨by rw [hel]; nofun, ?_⟩
    rw [hel]
    exact (find_iff_inside hp h (hown el hel)).mp hfind

theorem unmixed_iff {t : Pain001CreditTransfer} (hr : root.Reads t) : root.Unmixed t ↔ root.Complete := by
  have hdebtor {pmtInf : Element} (h : root.find [ns "PmtInf"] = some pmtInf) :
      Leads (pmtInf.child [ns "DbtrAcct", ns "Id", ns "Othr", ns "Id"]) pmtInf debtorPath ↔
        ∃ el, pmtInf.child [ns "DbtrAcct", ns "Id", ns "Othr", ns "Id"] = some el ∧
        root.find debtorPath = some el :=
    leads_iff (by simp) h fun el hel => child_mem hel
  have hfield {pmtInf tx : Element} (h : root.find [ns "PmtInf"] = some pmtInf)
      (htx : pmtInf.child [ns "CdtTrfTxInf"] = some tx) (path : List QName) :
      Leads (tx.child path) pmtInf (ns "PmtInf" :: ns "CdtTrfTxInf" :: path) ↔
        ∃ el, tx.child path = some el ∧ root.find (ns "PmtInf" :: ns "CdtTrfTxInf" :: path) = some el :=
    leads_iff (by simp) h fun el hel => child_child_mem htx hel
  constructor
  · rintro ⟨pmtInf, tx, hp, htx, ⟨d, hd, hd', -⟩, ⟨e, he, he', -⟩, ⟨c, hc, hc', -⟩, a, ha, ha', -⟩
    exact ⟨pmtInf, tx, hp, htx, (hdebtor hp).mpr ⟨d, hd, hd'⟩, (hfield hp htx _).mpr ⟨e, he, he'⟩,
      (hfield hp htx _).mpr ⟨c, hc, hc'⟩, (hfield hp htx _).mpr ⟨a, ha, ha'⟩⟩
  · rintro ⟨pmtInf, tx, hp, htx, hd, he, hc, ha⟩
    obtain ⟨d, hd, hd'⟩ := (hdebtor hp).mp hd
    obtain ⟨e, he, he'⟩ := (hfield hp htx _).mp he
    obtain ⟨c, hc, hc'⟩ := (hfield hp htx _).mp hc
    obtain ⟨a, ha, ha'⟩ := (hfield hp htx _).mp ha
    obtain ⟨el, hel, hcurrency, hamount⟩ := hr.amount
    have hsame : el = a := Option.some.inj (hel.symm.trans ha')
    subst hsame
    refine ⟨pmtInf, tx, hp, htx, ⟨d, hd, hd', ?_⟩, ⟨e, he, he', ?_⟩, ⟨c, hc, hc', ?_⟩, el, ha,
      ha', hcurrency, hamount⟩
    · rw [← hd']
      exact hr.debtor
    · rw [← he']
      exact hr.endToEndId
    · rw [← hc']
      exact hr.creditor

end Origin

end Element

variable (fromstring : List UInt8 → Except String Element) (xmlBytes : List UInt8)

/-- A transfer is read from one transaction, or the document is refused: exactly for the documents that are
refused anyway, and those whose first `PmtInf` and first `CdtTrfTxInf` have every field of their own. -/
theorem pain001_unmixed :
    ((∃ root t, fromstring xmlBytes = .ok root ∧ parsePain001 fromstring xmlBytes = .ok t ∧ root.Unmixed t) ∨
      ∃ e, parsePain001 fromstring xmlBytes = .error (.parse e)) ↔
    (¬doctype <:+: xmlBytes → ∀ root, fromstring xmlBytes = .ok root → root.Sufficient → root.Complete) := by
  by_cases hdoc : doctype <:+: xmlBytes
  · have herror : parsePain001 fromstring xmlBytes = .error (.parse .doctype) := by rw [parsePain001, if_pos hdoc]
    exact ⟨fun _ hno => absurd hdoc hno, fun _ => .inr ⟨_, herror⟩⟩
  · cases hroot : fromstring xmlBytes with
    | error reason =>
      have herror : parsePain001 fromstring xmlBytes = .error (.parse (.malformed reason)) := by
        rw [parsePain001, if_neg hdoc, hroot]
      constructor
      · intro _ _ root hroot'
        cases hroot'
      · intro _
        exact .inr ⟨_, herror⟩
    | ok root =>
      have hparse : parsePain001 fromstring xmlBytes = root.readTransfer := by
        rw [parsePain001, if_neg hdoc, hroot]
      rw [hparse]
      rcases root.readTransfer_cases with ⟨hsuf, t, ht, hreads⟩ | ⟨hins, e, he⟩
      · rw [ht]
        constructor
        · intro h _ root' hroot' _
          cases hroot'
          rcases h with ⟨root', t', hroot', ht', hunmixed⟩ | ⟨e, he⟩
          · cases hroot'
            cases ht'
            exact (Element.unmixed_iff hreads).mp hunmixed
          · cases he
        · intro h
          exact .inl ⟨root, t, rfl, rfl, (Element.unmixed_iff hreads).mpr (h hdoc root rfl hsuf)⟩
      · constructor
        · intro _ _ root' hroot' hsuf
          cases hroot'
          exact absurd hsuf hins
        · intro _
          exact .inr ⟨e, he⟩

/-- A payment instruction with two transactions, the first one to an IBAN. -/
def mixedDocument : String :=
  "<Document xmlns=\"urn:iso:std:iso:20022:tech:xsd:pain.001.001.09\"><CstmrCdtTrfInitn><GrpHdr><MsgId>M</MsgId>" ++
  "</GrpHdr><PmtInf><DbtrAcct><Id><Othr><Id>D</Id></Othr></Id></DbtrAcct><CdtTrfTxInf><PmtId><EndToEndId>E1" ++
  "</EndToEndId></PmtId><Amt><InstdAmt Ccy=\"EUR\">10.00</InstdAmt></Amt><CdtrAcct><Id><IBAN>DE01</IBAN></Id>" ++
  "</CdtrAcct></CdtTrfTxInf><CdtTrfTxInf><PmtId><EndToEndId>E2</EndToEndId></PmtId><Amt><InstdAmt Ccy=\"EUR\">" ++
  "20.00</InstdAmt></Amt><CdtrAcct><Id><Othr><Id>C2</Id></Othr></Id></CdtrAcct></CdtTrfTxInf></PmtInf>" ++
  "</CstmrCdtTrfInitn></Document>"

/-- An element with one piece of text. -/
def leaf (name value : String) (next : Content) : Content := .element (ns name) [] (.text value .empty) next

def node (name : String) (content next : Content) : Content := .element (ns name) [] content next

def sampleTx (ref amount : String) (account next : Content) : Content :=
  node "CdtTrfTxInf" (node "PmtId" (leaf "EndToEndId" ref .empty) (node "Amt"
    (.element (ns "InstdAmt") [("Ccy", "EUR")] (.text amount .empty) .empty)
    (node "CdtrAcct" (node "Id" account .empty) .empty))) next

def mixedRoot : Element where
  tag := ns "Document"
  attributes := []
  content := node "CstmrCdtTrfInitn" (node "GrpHdr" (leaf "MsgId" "M" .empty) (node "PmtInf"
    (node "DbtrAcct" (node "Id" (node "Othr" (leaf "Id" "D" .empty) .empty) .empty)
      (sampleTx "E1" "10.00" (leaf "IBAN" "DE01" .empty)
        (sampleTx "E2" "20.00" (node "Othr" (leaf "Id" "C2" .empty) .empty) .empty))) .empty)) .empty

def bytesOf (s : String) : List UInt8 := s.toList.map fun c => UInt8.ofNat c.toNat

section Absence

variable {n : UInt8}

theorem absent_literal {l : List Char} (h : n ∉ l.map fun c => UInt8.ofNat c.toNat) :
    n ∉ bytesOf (String.ofList l) := by
  rw [bytesOf, String.toList_ofList]
  exact h

theorem absent_append {s t : String} (hs : n ∉ bytesOf s) (ht : n ∉ bytesOf t) : n ∉ bytesOf (s ++ t) := by
  rw [bytesOf, String.toList_append, List.map_append, List.mem_append, not_or]
  exact ⟨hs, ht⟩

/-- Bytes without a "Y" carry no DOCTYPE. -/
theorem not_doctype {xmlBytes : List UInt8} (h : 89 ∉ xmlBytes) : ¬doctype <:+: xmlBytes := by
  intro hpart
  exact h (hpart.subset (by decide))

end Absence

theorem mixedDocument_not_doctype : ¬doctype <:+: bytesOf mixedDocument := by
  apply not_doctype
  unfold mixedDocument
  refine absent_append (absent_append (absent_append (absent_append (absent_append ?_ ?_) ?_) ?_) ?_) ?_ <;>
    exact absent_literal (by decide)

/-- The transfer takes the first transaction's amount and the second one's creditor. -/
theorem mixedDocument_mixes :
    let fromstring xmlBytes := if xmlBytes = bytesOf mixedDocument then .ok mixedRoot else .error ""
    ¬((∃ root t, fromstring (bytesOf mixedDocument) = .ok root ∧
        parsePain001 fromstring (bytesOf mixedDocument) = .ok t ∧ root.Unmixed t) ∨
      ∃ e, parsePain001 fromstring (bytesOf mixedDocument) = .error (.parse e)) := by
  intro fromstring
  have hroot : fromstring (bytesOf mixedDocument) = .ok mixedRoot := if_pos rfl
  have hread : mixedRoot.readTransfer = .ok ⟨"M", "E1", "D", "C2", .finite false 1000 (-2), "EUR"⟩ := by
    decide +kernel
  have hparse : parsePain001 fromstring (bytesOf mixedDocument) = mixedRoot.readTransfer := by
    rw [parsePain001, if_neg mixedDocument_not_doctype, hroot]
  have hcreditor : (mixedRoot.find [ns "PmtInf"]).bind (fun pmtInf => (pmtInf.child [ns "CdtTrfTxInf"]).bind
      fun tx => tx.child [ns "CdtrAcct", ns "Id", ns "Othr", ns "Id"]) = none := by decide +kernel
  rintro (⟨root, t, hr, -, pmtInf, tx, hp, htx, -, -, ⟨el, hel, -⟩, -⟩ | ⟨e, he⟩)
  · rw [hroot] at hr
    cases hr
    rw [hp, Option.bind_some, htx, Option.bind_some, hel] at hcreditor
    cases hcreditor
  · rw [hparse, hread] at he
    cases he

end PaymentLedger
