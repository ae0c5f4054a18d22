import PaymentLedger.Iso20022.Provenance
import PaymentLedger.Text.Comments

namespace PaymentLedger

namespace Element

variable (root : Element)

/-- The text at the start of the first element that the path reaches. -/
def textAt (path : List QName) : String := ((root.find path).bind text).getD ""

/-- The currency of the first amount. -/
def currencyAt : String := ((root.find amountPath).bind fun el => el.get "Ccy").getD ""

def accountPaths : List (List QName) := [messageIdPath, endToEndIdPath, debtorPath, creditorPath]

variable {root} {path : List QName} {t : Pain001CreditTransfer}

theorem strippedText_getD (el : Option Element) : (strippedText el).getD "" = strip ((el.bind text).getD "") := by
  have hblank : strip "" = "" := strip_eq_empty.mpr (by simp)
  unfold strippedText
  cases el.bind text with
  | none => exact hblank.symm
  | some s =>
    by_cases hs : s = ""
    · simp [hs, hblank]
    · simp [hs]

theorem findText_getD : (root.findText path).getD "" = strip (root.textAt path) := strippedText_getD _

theorem hasText_iff : HasText (root.find path) ↔ strip (root.textAt path) ≠ "" := by
  rw [HasText, strippedText_getD, textAt]

theorem ofString_blank : Decimal.ofString "" = none := by decide

theorem textAt_of_find {el : Element} (h : root.find path = some el) : root.textAt path = el.text.getD "" := by
  rw [textAt, h, Option.bind_some]

theorem currencyAt_of_find {el : Element} (h : root.find amountPath = some el) :
    root.currencyAt = (el.get "Ccy").getD "" := by
  rw [currencyAt, h, Option.bind_some]

/-- A document suffices by its texts and the currency alone. -/
theorem sufficient_iff : root.Sufficient ↔ (∀ path ∈ accountPaths, strip (root.textAt path) ≠ "") ∧
    root.currencyAt ≠ "" ∧
    (Decimal.ofString (strip (root.textAt amountPath))).isSome = true := by
  constructor
  · intro h
    obtain ⟨el, hel, hcurrency, hamount⟩ := h.currency
    have hfind : root.find amountPath = some el := hel
    rw [currencyAt_of_find hfind, textAt_of_find hfind]
    refine ⟨?_, hcurrency, hamount⟩
    simp only [accountPaths, List.mem_cons, List.not_mem_nil, or_false, forall_eq_or_imp, forall_eq, ← hasText_iff]
    exact ⟨h.messageId, h.endToEndId, h.debtor, h.creditor⟩
  · rintro ⟨htexts, hcurrency, hamount⟩
    simp only [accountPaths, List.mem_cons, List.not_mem_nil, or_false, forall_eq_or_imp, forall_eq,
      ← hasText_iff] at htexts
    obtain ⟨hm, he, hd, hc⟩ := htexts
    cases hfind : root.find amountPath with
    | none =>
      rw [currencyAt, hfind] at hcurrency
      exact absurd rfl hcurrency
    | some el =>
      have hblank : strip (root.textAt amountPath) ≠ "" := by
        intro hblank
        rw [hblank, ofString_blank] at hamount
        cases hamount
      rw [currencyAt_of_find hfind] at hcurrency
      rw [textAt_of_find hfind] at hamount
      exact ⟨hm, he, hd, hc, hasText_iff.mpr hblank, el, hfind, hcurrency, hamount⟩

/-- The transfer is the one that the texts and the currency tell. -/
structure Tells (root : Element) (t : Pain001CreditTransfer) : Prop where
  messageId : t.messageId = strip (root.textAt messageIdPath)
  endToEndId : t.endToEndId = strip (root.textAt endToEndIdPath)
  debtor : t.debtorAccountNumber = strip (root.textAt debtorPath)
  creditor : t.creditorAccountNumber = strip (root.textAt creditorPath)
  amount : Decimal.ofString (strip (root.textAt amountPath)) = some t.amount
  currency : t.currency = root.currencyAt

theorem Reads.tells (h : root.Reads t) : root.Tells t := by
  have hread {path : List QName} {s : String} (hs : root.findText path = some s) :
      s = strip (root.textAt path) := by
    rw [← findText_getD, hs, Option.getD_some]
  obtain ⟨el, hel, hcurrency, hamount⟩ := h.amount
  have htext := textAt_of_find hel
  refine ⟨hread h.messageId, hread h.endToEndId, hread h.debtor, hread h.creditor, ?_, ?_⟩
  · rw [htext]
    exact hamount
  · rw [currencyAt_of_find hel]
    exact hcurrency.symm

theorem Tells.unique {t' : Pain001CreditTransfer} (h : root.Tells t) (h' : root.Tells t') : t = t' := by
  cases t
  cases t'
  obtain ⟨hm, he, hd, hc, ha, hcur⟩ := h
  obtain ⟨hm', he', hd', hc', ha', hcur'⟩ := h'
  rw [ha] at ha'
  simp_all

theorem readTransfer_ok_iff : root.readTransfer = .ok t ↔ root.Sufficient ∧ root.Tells t := by
  rcases root.readTransfer_cases with ⟨hsuf, t', ht', hreads⟩ | ⟨hins, e, he⟩
  · rw [ht', and_iff_right hsuf, Except.ok.injEq]
    constructor
    · rintro rfl
      exact hreads.tells
    · intro htells
      exact hreads.tells.unique htells
  · rw [he]
    constructor
    · intro h
      cases h
    · rintro ⟨hsuf, -⟩
      exact absurd hsuf hins

section Insertion

variable {root' : Element}

theorem textAt_commented (h : CommentedElement root root') (path : List QName) :
    ∃ rest, root.textAt path = root'.textAt path ++ rest := by
  have hfind := h.find path
  rw [Element.textAt, Element.textAt]
  generalize root.find path = el at hfind
  generalize root'.find path = el' at hfind
  cases hfind with
  | some hel => exact hel.text
  | none => exact ⟨"", rfl⟩

theorem currencyAt_commented (h : CommentedElement root root') : root'.currencyAt = root.currencyAt := by
  have hfind := h.find amountPath
  rw [Element.currencyAt, Element.currencyAt]
  generalize root.find amountPath = el at hfind
  generalize root'.find amountPath = el' at hfind
  cases hfind with
  | some hel => rw [Option.bind_some, Option.bind_some, hel.get]
  | none => rfl

/-- What is cut off the four texts is blank, and what is left of the amount is read as the same decimal: sign,
coefficient and exponent. -/
structure Kept (root root' : Element) : Prop where
  texts : ∀ path ∈ accountPaths, ∃ rest, root.textAt path = root'.textAt path ++ rest ∧ strip rest = ""
  amount : Decimal.ofString (strip (root'.textAt amountPath)) = Decimal.ofString (strip (root.textAt amountPath))

theorem Kept.strip_eq (h : Kept root root') : ∀ path ∈ accountPaths,
    strip (root'.textAt path) = strip (root.textAt path) := by
  intro path hpath
  obtain ⟨rest, htext, hrest⟩ := h.texts path hpath
  rw [htext, strip_append_blank hrest]

theorem Kept.sufficient (h : Kept root root') (hcurrency : root'.currencyAt = root.currencyAt) :
    root'.Sufficient ↔ root.Sufficient := by
  rw [sufficient_iff, sufficient_iff, hcurrency, h.amount]
  refine and_congr_left fun _ => forall₂_congr fun path hpath => ?_
  rw [h.strip_eq path hpath]

theorem Kept.tells (h : Kept root root') (hcurrency : root'.currencyAt = root.currencyAt) (htells : root.Tells t) :
    root'.Tells t := by
  have hsame := h.strip_eq
  simp only [accountPaths, List.mem_cons, List.not_mem_nil, or_false, forall_eq_or_imp, forall_eq] at hsame
  obtain ⟨hm, he, hd, hc⟩ := hsame
  refine ⟨?_, ?_, ?_, ?_, ?_, ?_⟩
  · rw [hm, htells.messageId]
  · rw [he, htells.endToEndId]
  · rw [hd, htells.debtor]
  · rw [hc, htells.creditor]
  · rw [h.amount, htells.amount]
  · rw [hcurrency, htells.currency]

/-- One transfer from both documents: nothing but white space is cut off. -/
theorem Tells.kept (h : root.Tells t) (h' : root'.Tells t) (hsuf : root'.Sufficient)
    (hc : CommentedElement root root') :
    Kept root root' := by
  constructor
  · intro path hpath
    have hsame : strip (root.textAt path) = strip (root'.textAt path) := by
      simp only [accountPaths, List.mem_cons, List.not_mem_nil, or_false] at hpath
      rcases hpath with rfl | rfl | rfl | rfl
      · rw [← h.messageId, ← h'.messageId]
      · rw [← h.endToEndId, ← h'.endToEndId]
      · rw [← h.debtor, ← h'.debtor]
      · rw [← h.creditor, ← h'.creditor]
    obtain ⟨rest, hrest⟩ := textAt_commented hc path
    rw [hrest] at hsame
    exact ⟨rest, hrest, (strip_append ((sufficient_iff.mp hsuf).1 path hpath)).mp hsame⟩
  · rw [h.amount, h'.amount]

end Insertion

end Element

/-- The same transfer, or a parse error both times. -/
def SameOutcome (r r' : Except Pain001Failure Pain001CreditTransfer) : Prop :=
  (∃ t, r = .ok t ∧ r' = .ok t) ∨ ∃ e e', r = .error (.parse e) ∧ r' = .error (.parse e')

/-- The document carries a DOCTYPE, or it lacks one of the fields. -/
def Refusable (xmlBytes : List UInt8) (root : Element) : Prop := doctype <:+: xmlBytes ∨ ¬root.Sufficient

section Documents

variable {fromstring : List UInt8 → Except String Element} {xmlBytes : List UInt8} {root : Element}

theorem parsePain001_ok_iff (hroot : fromstring xmlBytes = .ok root) {t : Pain001CreditTransfer} :
    parsePain001 fromstring xmlBytes = .ok t ↔ ¬doctype <:+: xmlBytes ∧ root.Sufficient ∧ root.Tells t := by
  rw [parsePain001]
  by_cases hdoc : doctype <:+: xmlBytes
  · rw [if_pos hdoc]
    constructor
    · intro h
      cases h
    · rintro ⟨hno, -⟩
      exact absurd hdoc hno
  · rw [if_neg hdoc, hroot, and_iff_right hdoc]
    exact Element.readTransfer_ok_iff

theorem parsePain001_error_iff (hroot : fromstring xmlBytes = .ok root) :
    (∃ e, parsePain001 fromstring xmlBytes = .error (.parse e)) ↔ Refusable xmlBytes root := by
  rw [Refusable, parsePain001]
  by_cases hdoc : doctype <:+: xmlBytes
  · rw [if_pos hdoc]
    exact iff_of_true ⟨_, rfl⟩ (.inl hdoc)
  · rw [if_neg hdoc, hroot, or_iff_right hdoc]
    rcases root.readTransfer_cases with ⟨hsuf, t, ht, -⟩ | ⟨hins, e, he⟩
    · refine iff_of_false ?_ (not_not.mpr hsuf)
      rintro ⟨e, he⟩
      have hread : root.readTransfer = .error (.parse e) := he
      rw [ht] at hread
      cases hread
    · exact iff_of_true ⟨e, he⟩ hins

end Documents

/-- Comments and processing instructions leave the outcome iff both documents are refused anyway, or neither carries
a DOCTYPE and the insertions keep the texts that are read. -/
theorem pain001_comments_iff (fromstring : List UInt8 → Except String Element) (xmlBytes xmlBytes' : List UInt8)
    (root root' : Element) (hroot : fromstring xmlBytes = .ok root) (hroot' : fromstring xmlBytes' = .ok root')
    (h : CommentedElement root root') :
    SameOutcome (parsePain001 fromstring xmlBytes) (parsePain001 fromstring xmlBytes') ↔
      (Refusable xmlBytes root ∧ Refusable xmlBytes' root') ∨
        (¬doctype <:+: xmlBytes ∧ ¬doctype <:+: xmlBytes' ∧ Element.Kept root root') := by
  have hcurrency := Element.currencyAt_commented h
  constructor
  · rintro (⟨t, ht, ht'⟩ | ⟨e, e', he, he'⟩)
    · obtain ⟨hdoc, -, htells⟩ := (parsePain001_ok_iff hroot).mp ht
      obtain ⟨hdoc', hsuf', htells'⟩ := (parsePain001_ok_iff hroot').mp ht'
      exact .inr ⟨hdoc, hdoc', htells.kept htells' hsuf' h⟩
    · exact .inl ⟨(parsePain001_error_iff hroot).mp ⟨e, he⟩, (parsePain001_error_iff hroot').mp ⟨e', he'⟩⟩
  · rintro (⟨href, href'⟩ | ⟨hdoc, hdoc', hkept⟩)
    · obtain ⟨e, he⟩ := (parsePain001_error_iff hroot).mpr href
      obtain ⟨e', he'⟩ := (parsePain001_error_iff hroot').mpr href'
      exact .inr ⟨e, e', he, he'⟩
    · by_cases hsuf : root.Sufficient
      · obtain ⟨t, -, hreads⟩ := hsuf.reads
        have hsuf' := (hkept.sufficient hcurrency).mpr hsuf
        exact .inl ⟨t, (parsePain001_ok_iff hroot).mpr ⟨hdoc, hsuf, hreads.tells⟩,
          (parsePain001_ok_iff hroot').mpr ⟨hdoc', hsuf', hkept.tells hcurrency hreads.tells⟩⟩
      · have hins' : ¬root'.Sufficient := fun hsuf' => hsuf ((hkept.sufficient hcurrency).mp hsuf')
        obtain ⟨e, he⟩ := (parsePain001_error_iff hroot).mpr (.inr hsuf)
        obtain ⟨e', he'⟩ := (parsePain001_error_iff hroot').mpr (.inr hins')
        exact .inr ⟨e, e', he, he'⟩

/-- A payment instruction around what stands between the tags of the creditor's account. -/
def creditorDocument (creditor : String) : String :=
  "<Document xmlns=\"urn:iso:std:iso:20022:tech:xsd:pain.001.001.09\"><CstmrCdtTrfInitn><GrpHdr><MsgId>M</MsgId>" ++
  "</GrpHdr><PmtInf><DbtrAcct><Id><Othr><Id>D</Id></Othr></Id></DbtrAcct><CdtTrfTxInf><PmtId><EndToEndId>E1" ++
  "</EndToEndId></PmtId><Amt><InstdAmt Ccy=\"EUR\">10.00</InstdAmt></Amt><CdtrAcct><Id><Othr><Id>" ++ creditor ++
  "</Id></Othr></Id></CdtrAcct></CdtTrfTxInf></PmtInf></CstmrCdtTrfInitn></Document>"

def creditorRoot (creditor : Content) : Element where
  tag := ns "Document"
  attributes := []
  content := node "CstmrCdtTrfInitn" (node "GrpHdr" (leaf "MsgId" "M" .empty) (node "PmtInf"
    (node "DbtrAcct" (node "Id" (node "Othr" (leaf "Id" "D" .empty) .empty) .empty)
      (sampleTx "E1" "10.00" (node "Othr" (node "Id" creditor .empty) .empty) .empty)) .empty)) .empty

theorem creditorRoot_commented {c c' : Content} (h : Commented c c') :
    CommentedElement (creditorRoot c) (creditorRoot c') := by
  have hnode {name : String} {content content' next next' : Content} (hc : Commented content content')
      (hn : Commented next next') : Commented (node name content next) (node name content' next') :=
        .element _ _ hc hn
  have hleaf {name value : String} {next next' : Content} (hn : Commented next next') :
      Commented (leaf name value next) (leaf name value next') := .element _ _ (.refl _) hn
  refine ⟨rfl, rfl, hnode (hnode (hleaf .empty) (hnode (hnode (.refl _) ?_) .empty)) .empty⟩
  exact hnode (hnode (hleaf .empty) (hnode (.element _ _ (.refl _) .empty)
    (hnode (hnode (hnode (hnode h .empty) .empty) .empty) .empty))) .empty

theorem creditorDocument_absent {n : UInt8} {creditor : String} (hn : n = 33 ∨ n = 89) (h : n ∉ bytesOf creditor) :
    n ∉ bytesOf (creditorDocument creditor) := by
  unfold creditorDocument
  refine absent_append (absent_append (absent_append (absent_append ?_ ?_) ?_) h) ?_ <;>
    rcases hn with rfl | rfl <;> exact absent_literal (by decide)

theorem creditorDocument_present {n : UInt8} {creditor : String} (h : n ∈ bytesOf creditor) :
    n ∈ bytesOf (creditorDocument creditor) := by
  have hmiddle (before behind : String) : n ∈ bytesOf (before ++ creditor ++ behind) := by
    rw [bytesOf, String.toList_append, String.toList_append, List.map_append, List.map_append]
    exact List.mem_append_left _ (List.mem_append_right _ h)
  exact hmiddle _ _

/-- A parser of two documents. -/
def twoDocuments (plain commented : List UInt8) (root root' : Element) (xmlBytes : List UInt8) :
    Except String Element :=
  if xmlBytes = plain then .ok root else if xmlBytes = commented then .ok root' else .error ""

section TwoDocuments

variable {plain commented : List UInt8} {root root' : Element}

theorem twoDocuments_plain : twoDocuments plain commented root root' plain = .ok root := if_pos rfl

theorem twoDocuments_commented (h : commented ≠ plain) :
    twoDocuments plain commented root root' commented = .ok root' := by
  rw [twoDocuments, if_neg h, if_pos rfl]

end TwoDocuments

theorem commented_ne {creditor creditor' : String} (h : 33 ∉ bytesOf creditor) (h' : 33 ∈ bytesOf creditor') :
    bytesOf (creditorDocument creditor') ≠ bytesOf (creditorDocument creditor) := by
  intro hsame
  have hmark := creditorDocument_present h'
  rw [hsame] at hmark
  exact creditorDocument_absent (.inl rfl) h hmark

/-- A comment behind the account changes nothing. -/
theorem pain001_comment_behind :
    let fromstring := twoDocuments (bytesOf (creditorDocument "C1")) (bytesOf (creditorDocument "C1<!--x-->"))
      (creditorRoot (.text "C1" .empty)) (creditorRoot (.text "C1" (.comment "x" .empty)))
    SameOutcome (parsePain001 fromstring (bytesOf (creditorDocument "C1")))
      (parsePain001 fromstring (bytesOf (creditorDocument "C1<!--x-->"))) := by
  intro fromstring
  have hne : bytesOf (creditorDocument "C1<!--x-->") ≠ bytesOf (creditorDocument "C1") :=
    commented_ne (by decide +kernel) (by decide +kernel)
  apply (pain001_comments_iff fromstring _ _ _ _ twoDocuments_plain (twoDocuments_commented hne)
    (creditorRoot_commented (.text "C1" (.commentInserted "x" .empty)))).mpr
  refine .inr ⟨not_doctype (creditorDocument_absent (.inr rfl) (by decide +kernel)),
    not_doctype (creditorDocument_absent (.inr rfl) (by decide +kernel)), ?_, by decide +kernel⟩
  have hsame : ∀ path ∈ Element.accountPaths, (creditorRoot (.text "C1" .empty)).textAt path =
      (creditorRoot (.text "C1" (.comment "x" .empty))).textAt path := by decide +kernel
  intro path hpath
  refine ⟨"", ?_, by decide⟩
  rw [String.append_empty, hsame path hpath]

/-- A comment inside the account cuts its number: the transfer goes to another account. -/
theorem pain001_comment_inside :
    let fromstring := twoDocuments (bytesOf (creditorDocument "C12")) (bytesOf (creditorDocument "C1<!--x-->2"))
      (creditorRoot (.text "C12" .empty)) (creditorRoot (.text "C1" (.comment "x" (.text "2" .empty))))
    CommentedElement (creditorRoot (.text "C12" .empty))
      (creditorRoot (.text "C1" (.comment "x" (.text "2" .empty)))) ∧
      parsePain001 fromstring (bytesOf (creditorDocument "C12")) =
        .ok ⟨"M", "E1", "D", "C12", .finite false 1000 (-2), "EUR"⟩ ∧
      parsePain001 fromstring (bytesOf (creditorDocument "C1<!--x-->2")) =
        .ok ⟨"M", "E1", "D", "C1", .finite false 1000 (-2), "EUR"⟩ ∧
      ¬SameOutcome (parsePain001 fromstring (bytesOf (creditorDocument "C12")))
        (parsePain001 fromstring (bytesOf (creditorDocument "C1<!--x-->2"))) := by
  intro fromstring
  have hne : bytesOf (creditorDocument "C1<!--x-->2") ≠ bytesOf (creditorDocument "C12") :=
    commented_ne (by decide +kernel) (by decide +kernel)
  have hdoc : ¬doctype <:+: bytesOf (creditorDocument "C12") :=
    not_doctype (creditorDocument_absent (.inr rfl) (by decide +kernel))
  have hdoc' : ¬doctype <:+: bytesOf (creditorDocument "C1<!--x-->2") :=
    not_doctype (creditorDocument_absent (.inr rfl) (by decide +kernel))
  have hplain : parsePain001 fromstring (bytesOf (creditorDocument "C12")) =
      .ok ⟨"M", "E1", "D", "C12", .finite false 1000 (-2), "EUR"⟩ := by
    have hroot : fromstring (bytesOf (creditorDocument "C12")) = .ok (creditorRoot (.text "C12" .empty)) :=
      twoDocuments_plain
    rw [parsePain001, if_neg hdoc, hroot]
    decide +kernel
  have hcut : parsePain001 fromstring (bytesOf (creditorDocument "C1<!--x-->2")) =
      .ok ⟨"M", "E1", "D", "C1", .finite false 1000 (-2), "EUR"⟩ := by
    have hroot : fromstring (bytesOf (creditorDocument "C1<!--x-->2")) =
        .ok (creditorRoot (.text "C1" (.comment "x" (.text "2" .empty)))) := twoDocuments_commented hne
    rw [parsePain001, if_neg hdoc', hroot]
    decide +kernel
  have hjoin : "C1" ++ "2" = "C12" := by decide
  have hcommented : Commented (.text "C12" .empty) (.text "C1" (.comment "x" (.text "2" .empty))) := by
    rw [← hjoin]
    exact .divided "C1" "2" (.commentInserted "x" (.refl _))
  refine ⟨creditorRoot_commented hcommented, hplain, hcut, ?_⟩
  rw [hplain, hcut]
  rintro (⟨t, ht, ht'⟩ | ⟨e, e', he, -⟩)
  · rw [← ht] at ht'
    exact absurd ht' (by decide)
  · cases he

end PaymentLedger
