import PaymentLedger.Domain.Ledger
import PaymentLedger.Qr.Checksum
import PaymentLedger.Qr.Grammar

namespace PaymentLedger

section Ascii

theorem ascii_append {a b : String} : Ascii (a ++ b) ↔ Ascii a ∧ Ascii b := by
  unfold Ascii
  rw [String.toList_append]
  exact List.forall_mem_append

theorem digit_ascii {c : Char} (h : c.isDigit = true) : c.toNat < 128 := (Decimal.plain_of_isDigit h).1

theorem twoDigits_ascii {n : ℕ} (h : n ≤ 99) : Ascii (twoDigits n) := by
  have hall : ∀ m : Fin 100, ∀ c ∈ [Nat.digitChar (m / 10), Nat.digitChar (m % 10)], c.toNat < 128 := by
    decide +kernel
  intro c hc
  rw [twoDigits, String.toList_ofList] at hc
  exact hall ⟨n, by omega⟩ c hc

theorem decimal_ascii (d : Decimal) : Ascii d.str := by
  cases d with
  | finite s c e =>
    obtain ⟨whole, fraction, x, hw, hf, -, -, -, hstr⟩ := Decimal.str_finite s c e
    intro d hd
    rw [hstr] at hd
    rcases List.mem_append.mp hd with hd | hd
    · cases s
      · cases hd
      · rw [List.mem_singleton.mp hd]
        decide
    · rcases List.mem_append.mp hd with hd | hd
      · rcases List.mem_append.mp hd with hd | hd
        · exact digit_ascii (hw d hd)
        · exact (Decimal.plain_pointed hf d hd).1
      · exact (Decimal.strTail_ascii x d hd).1
  | infinity s => cases s <;> decide
  | nan s => cases s <;> decide

end Ascii

section Entries

variable {repr : String → String}

/-- A field as it is written. -/
def entryText (x : String × String) : String := x.1 ++ twoDigits x.2.length ++ x.2

theorem encodeTlv_ok {entries : List (String × String)} {text : String} : encodeTlv repr entries = .ok text ↔
    (∀ x ∈ entries, x.2.length ≤ 99) ∧ text.toList = entries.flatMap fun x => (entryText x).toList := by
  induction entries generalizing text with
  | nil =>
    rw [encodeTlv, Except.ok.injEq, List.flatMap_nil, String.toList_eq_nil_iff]
    simp [eq_comm]
  | cons x entries ih =>
    obtain ⟨tag, value⟩ := x
    rw [encodeTlv, except_bind_ok]
    constructor
    · rintro ⟨field, hfield, hrest⟩
      obtain ⟨rest, hbehind, htext⟩ := except_bind_ok.mp hrest
      obtain ⟨hshort, rfl⟩ := tlv_ok.mp hfield
      obtain ⟨hall, hlist⟩ := ih.mp hbehind
      obtain rfl := Except.ok.inj htext
      refine ⟨List.forall_mem_cons.mpr ⟨hshort, hall⟩, ?_⟩
      rw [String.toList_append, hlist]
      rfl
    · rintro ⟨hall, hlist⟩
      obtain ⟨hshort, hall⟩ := List.forall_mem_cons.mp hall
      refine ⟨entryText (tag, value), tlv_ok.mpr ⟨hshort, rfl⟩, ?_⟩
      apply except_bind_ok.mpr
      refine ⟨String.ofList (entries.flatMap fun x => (entryText x).toList),
        ih.mpr ⟨hall, String.toList_ofList⟩, ?_⟩
      apply congrArg Except.ok
      rw [← String.toList_inj, String.toList_append, String.toList_ofList, hlist]
      rfl

theorem encodeTlv_error {entries : List (String × String)} {e : SgqrFailure}
    (h : encodeTlv repr entries = .error e) :
    ∃ message, e = .sgqr message := by
  induction entries with
  | nil => cases h
  | cons x entries ih =>
    obtain ⟨tag, value⟩ := x
    rw [encodeTlv] at h
    by_cases hlong : 99 < value.length
    · rw [tlv, if_pos hlong] at h
      cases h
      exact ⟨_, rfl⟩
    · rw [tlv, if_neg hlong] at h
      cases hrest : encodeTlv repr entries with
      | ok rest =>
        rw [hrest] at h
        cases h
      | error e' =>
        rw [hrest] at h
        cases h
        exact ih hrest

/-- Entries that fit are fields of the grammar. -/
theorem exists_fields {entries : List (String × String)} (htags : ∀ x ∈ entries, x.1.length = 2)
    (hshort : ∀ x ∈ entries, x.2.length ≤ 99) : ∃ fields : List TlvField, fields.map TlvField.entry = entries ∧
      fields.flatMap TlvField.text = entries.flatMap fun x => (entryText x).toList := by
  induction entries with
  | nil => exact ⟨[], rfl, rfl⟩
  | cons x entries ih =>
    obtain ⟨htag, htags⟩ := List.forall_mem_cons.mp htags
    obtain ⟨hvalue, hshort⟩ := List.forall_mem_cons.mp hshort
    obtain ⟨fields, hentries, htext⟩ := ih htags hshort
    refine ⟨⟨x.1, x.2, htag, hvalue⟩ :: fields, ?_, ?_⟩
    · rw [List.map_cons, hentries]
      rfl
    · rw [List.flatMap_cons, List.flatMap_cons, htext, entryText, String.toList_append, String.toList_append]
      rfl

/-- A payload that is the text of such entries under distinct tags is read back as them. -/
theorem parseTlv_entries {payload : String} {entries : List (String × String)}
    (htags : ∀ x ∈ entries, x.1.length = 2)
    (hshort : ∀ x ∈ entries, x.2.length ≤ 99) (hn : (entries.map Prod.fst).Nodup)
    (htext : payload.toList = entries.flatMap fun x => (entryText x).toList) : ParseTlv payload (.ok entries) := by
  obtain ⟨fields, hentries, hfields⟩ := exists_fields htags hshort
  have hgrammar : TlvGrammar payload fields := by
    refine ⟨htext.trans hfields.symm, ?_⟩
    rw [← hentries, List.map_map] at hn
    exact hn
  have hparse := hgrammar.parse
  rwa [hentries] at hparse

end Entries

section Fields

variable {repr : String → String} {accountNumber merchantName merchantCity numeric currency : String}
  {amount : Option Decimal}

/-- The template of the merchant account. -/
def accountEntries (accountNumber : String) : List (String × String) := [("00", "SG.PAYNOW"), ("01", accountNumber)]

/-- The fields in front of the checksum, around the template. -/
def sgqrEntries (template merchantName merchantCity numeric : String) (amount : Option Decimal) :
    List (String × String) :=
  [("00", "01"), ("01", if amount.isSome then "12" else "11"), ("26", template), ("52", "0000"), ("53", numeric)] ++
    (amount.map fun amount => ("54", amount.str)).toList ++
    [("58", "SG"), ("59", String.ofList (merchantName.toList.take 25)),
      ("60", String.ofList (merchantCity.toList.take 15))]

theorem ok_bind {ε α β : Type} (a : α) (f : α → Except ε β) : (Except.ok a >>= f) = f a := rfl

theorem sgqrFields_eq : sgqrFields repr accountNumber merchantName merchantCity numeric amount = (do
    let template ← encodeTlv repr (accountEntries accountNumber)
    encodeTlv repr (sgqrEntries template merchantName merchantCity numeric amount)) := by
  cases amount with
  | none =>
    simp only [sgqrFields, accountEntries, sgqrEntries, encodeTlv, Option.map_none,
      Option.toList_none, List.append_nil, List.cons_append, List.nil_append, bind_assoc, pure_bind, ok_bind,
      String.append_assoc, String.append_empty,
      String.empty_append, Option.isSome_none]
  | some a =>
    simp only [sgqrFields, accountEntries, sgqrEntries, encodeTlv, Option.map_some, Option.toList_some,
      List.cons_append, List.nil_append, bind_assoc, pure_bind, ok_bind, String.append_assoc, String.append_empty,
      Option.isSome_some]

theorem numeric_mem (h : currencyNumeric.lookup currency = some numeric) :
    numeric ∈ currencyNumeric.map Prod.snd := by
  obtain ⟨front, back, hlist, -⟩ := List.lookup_eq_some_iff.mp h
  rw [hlist]
  simp

theorem numeric_length (h : currencyNumeric.lookup currency = some numeric) : numeric.length = 3 := by
  have hall : ∀ n ∈ currencyNumeric.map Prod.snd, n.length = 3 := by decide
  exact hall numeric (numeric_mem h)

theorem numeric_ascii (h : currencyNumeric.lookup currency = some numeric) : Ascii numeric := by
  have hall : ∀ n ∈ currencyNumeric.map Prod.snd, Ascii n := by decide
  exact hall numeric (numeric_mem h)

theorem sgqrEntries_tags {template : String} :
    ∀ x ∈ sgqrEntries template merchantName merchantCity numeric amount, x.1.length = 2 := by
  intro x hx
  have htag : x.1 ∈ ["00", "01", "26", "52", "53", "54", "58", "59", "60"] := by
    cases amount with
    | none =>
      simp only [sgqrEntries, Option.map_none, Option.toList_none, List.append_nil,
        List.cons_append, List.nil_append, List.mem_cons, List.not_mem_nil, or_false] at hx
      rcases hx with rfl | rfl | rfl | rfl | rfl | rfl | rfl | rfl <;> simp
    | some a =>
      simp only [sgqrEntries, Option.map_some, Option.toList_some, List.cons_append, List.nil_append, List.mem_cons,
        List.not_mem_nil, or_false] at hx
      rcases hx with rfl | rfl | rfl | rfl | rfl | rfl | rfl | rfl | rfl <;> simp
  have hall : ∀ tag ∈ ["00", "01", "26", "52", "53", "54", "58", "59", "60"], tag.length = 2 := by decide
  exact hall x.1 htag

theorem sgqrEntries_distinct {template crc : String} :
    ((sgqrEntries template merchantName merchantCity numeric amount ++ [("63", crc)]).map Prod.fst).Nodup := by
  cases amount with
  | none =>
    show ["00", "01", "26", "52", "53", "58", "59", "60", "63"].Nodup
    decide
  | some a =>
    show ["00", "01", "26", "52", "53", "54", "58", "59", "60", "63"].Nodup
    decide

/-- A text of entries is ASCII iff their tags and values are. -/
theorem entries_ascii {entries : List (String × String)} {text : String} (hshort : ∀ x ∈ entries, x.2.length ≤ 99)
    (htext : text.toList = entries.flatMap fun x => (entryText x).toList) :
    Ascii text ↔ ∀ x ∈ entries, Ascii x.1 ∧ Ascii x.2 := by
  have hentry (x : String × String) (hx : x ∈ entries) : Ascii (entryText x) ↔ Ascii x.1 ∧ Ascii x.2 := by
    rw [entryText, ascii_append, ascii_append, and_iff_left (twoDigits_ascii (hshort x hx))]
  rw [Ascii, htext]
  constructor
  · intro h x hx
    rw [← hentry x hx]
    intro c hc
    exact h c (List.mem_flatMap.mpr ⟨x, hx, hc⟩)
  · intro h c hc
    obtain ⟨x, hx, hc⟩ := List.mem_flatMap.mp hc
    exact (hentry x hx).mpr (h x hx) c hc

theorem accountEntries_ascii : (∀ x ∈ accountEntries accountNumber, Ascii x.1 ∧ Ascii x.2) ↔
    Ascii accountNumber := by
  have hconst : Ascii "00" ∧ Ascii "SG.PAYNOW" ∧ Ascii "01" := by decide
  simp [accountEntries, hconst]

theorem sgqrEntries_ascii {template : String} (hnumeric : Ascii numeric) :
    (∀ x ∈ sgqrEntries template merchantName merchantCity numeric amount, Ascii x.1 ∧ Ascii x.2) ↔ Ascii template ∧
      Ascii (String.ofList (merchantName.toList.take 25)) ∧
      Ascii (String.ofList (merchantCity.toList.take 15)) := by
  have hconst : Ascii "00" ∧ Ascii "01" ∧ Ascii "11" ∧ Ascii "12" ∧ Ascii "26" ∧ Ascii "52" ∧
    Ascii "0000" ∧ Ascii "53" ∧
      Ascii "54" ∧ Ascii "58" ∧ Ascii "SG" ∧ Ascii "59" ∧ Ascii "60" := by decide
  cases amount with
  | none => simp [sgqrEntries, hconst, hnumeric]
  | some a => simp [sgqrEntries, hconst, hnumeric, decimal_ascii a]

end Fields

section Build

variable {repr : String → String} {make : String → List UInt8}
  {accountNumber merchantName merchantCity currency numeric template text : String} {amount : Option Decimal}
  {p : SgqrPayload}

/-- The parts of a payload: the template inside, the fields around it, and the checksum of both. -/
structure Built (repr : String → String) (accountNumber merchantName merchantCity numeric : String)
    (amount : Option Decimal) (template text payload : String) : Prop where
  template_eq : encodeTlv repr (accountEntries accountNumber) = .ok template
  text_eq : encodeTlv repr (sgqrEntries template merchantName merchantCity numeric amount) = .ok text
  ascii : Ascii (text ++ "6304")
  payload_eq : payload = text ++ "6304" ++ String.ofList (hex4 (crc16 (text ++ "6304").toList))

theorem crc16Ccitt_ok {data crc : String} :
    crc16Ccitt data = .ok crc ↔ Ascii data ∧ crc = String.ofList (hex4 (crc16 data.toList)) := by
  unfold crc16Ccitt
  by_cases hascii : Ascii data
  · rw [if_pos hascii, Except.ok.injEq, and_iff_right hascii, eq_comm]
  · rw [if_neg hascii]
    constructor
    · intro h
      cases h
    · rintro ⟨hdata, -⟩
      exact absurd hdata hascii

theorem buildSgqr_ok (h : buildSgqr repr make accountNumber merchantName merchantCity currency amount = .ok p) :
    ∃ numeric template text, currencyNumeric.lookup currency = some numeric ∧ checkAmount amount = .ok () ∧
      Built repr accountNumber merchantName merchantCity numeric amount template text p.payload := by
  unfold buildSgqr at h
  split at h
  · cases h
  · rename_i numeric hnumeric
    obtain ⟨_, hcheck, h⟩ := except_bind_ok.mp h
    obtain ⟨text, hfields, h⟩ := except_bind_ok.mp h
    obtain ⟨crc, hcrc, h⟩ := except_bind_ok.mp h
    obtain rfl := Except.ok.inj h
    rw [sgqrFields_eq] at hfields
    obtain ⟨template, htemplate, htext⟩ := except_bind_ok.mp hfields
    obtain ⟨hascii, rfl⟩ := crc16Ccitt_ok.mp hcrc
    exact ⟨numeric, template, text, hnumeric, hcheck, htemplate, htext, hascii, rfl⟩

namespace Built

/-- The payload is the text of its entries, the checksum the last of them. -/
theorem entries (h : Built repr accountNumber merchantName merchantCity numeric amount template text p.payload) :
    p.payload.toList = (sgqrEntries template merchantName merchantCity numeric amount ++
      [("63", String.ofList (hex4 (crc16 (text ++ "6304").toList)))]).flatMap fun x => (entryText x).toList := by
  obtain ⟨-, htext⟩ := encodeTlv_ok.mp h.text_eq
  have hheader : "6304".toList = "63".toList ++ (twoDigits 4).toList := by decide
  have hlength : (String.ofList (hex4 (crc16 (text ++ "6304").toList))).length = 4 := by
    rw [← String.length_toList, String.toList_ofList, hex4_length]
  rw [h.payload_eq, List.flatMap_append, List.flatMap_singleton, ← htext, entryText, hlength, String.toList_append,
    String.toList_append, String.toList_append, String.toList_append, hheader, List.append_assoc]

theorem parse (h : Built repr accountNumber merchantName merchantCity numeric amount template text p.payload) :
    ParseTlv p.payload (.ok (sgqrEntries template merchantName merchantCity numeric amount ++
      [("63", String.ofList (hex4 (crc16 (text ++ "6304").toList)))])) := by
  obtain ⟨hshort, -⟩ := encodeTlv_ok.mp h.text_eq
  have hlength : "63".length = 2 := by decide
  apply parseTlv_entries
  · exact List.forall_mem_append.mpr ⟨sgqrEntries_tags, List.forall_mem_singleton.mpr hlength⟩
  · refine List.forall_mem_append.mpr ⟨hshort, List.forall_mem_singleton.mpr ?_⟩
    rw [← String.length_toList, String.toList_ofList, hex4_length]
    decide
  · exact sgqrEntries_distinct
  · exact h.entries

theorem parse_template
    (h : Built repr accountNumber merchantName merchantCity numeric amount template text p.payload) :
    ParseTlv template (.ok [("00", "SG.PAYNOW"), ("01", accountNumber)]) := by
  obtain ⟨hshort, htext⟩ := encodeTlv_ok.mp h.template_eq
  have hlengths : "00".length = 2 ∧ "01".length = 2 := by decide
  have htags : ∀ x ∈ accountEntries accountNumber, x.1.length = 2 := by simp [accountEntries, hlengths]
  exact parseTlv_entries htags hshort (by simp) htext

/-- The payload in front of its checksum. -/
theorem payload_list
    (h : Built repr accountNumber merchantName merchantCity numeric amount template text p.payload) :
    p.payload.toList = (text ++ "6304").toList ++ hex4 (crc16 (text ++ "6304").toList) := by
  rw [h.payload_eq, String.toList_append, String.toList_ofList]

theorem payload_ascii
    (h : Built repr accountNumber merchantName merchantCity numeric amount template text p.payload) :
    ∀ c ∈ p.payload.toList, c.toNat < 128 := by
  rw [h.payload_list]
  exact List.forall_mem_append.mpr ⟨h.ascii, hex4_ascii _⟩

theorem last_four (h : Built repr accountNumber merchantName merchantCity numeric amount template text p.payload) :
    p.payload.toList.drop (p.payload.toList.length - 4) = hex4 (crc16 (text ++ "6304").toList) := by
  rw [h.payload_list, List.length_append, hex4_length, Nat.add_sub_cancel, List.drop_left]

theorem verify (h : Built repr accountNumber merchantName merchantCity numeric amount template text p.payload) :
    verifyCrc p.payload = .ok true := by
  have hbody : p.payload.toList.take (p.payload.toList.length - 4) = (text ++ "6304").toList := by
    rw [h.payload_list, List.length_append, hex4_length, Nat.add_sub_cancel, List.take_left]
  have hcrc : crc16Ccitt (text ++ "6304") = .ok (String.ofList (hex4 (crc16 (text ++ "6304").toList))) :=
    crc16Ccitt_ok.mpr ⟨h.ascii, rfl⟩
  rw [verifyCrc, hbody, String.ofList_toList, h.last_four, hcrc]
  show Except.ok (decide _) = Except.ok true
  rw [decide_eq_true rfl]

end Built

/-- The exponents that a decimal of the source can have. -/
def Decimal.InRange : Decimal → Prop
  | .finite _ c e => minEtiny ≤ e ∧ e + digitCount c - 1 ≤ maxEmax
  | .infinity _ | .nan _ => True

theorem Decimal.str_reads_back {a : Decimal} (hrange : a.InRange) (hpos : a.nonPositive = .ok false) :
    Decimal.ofString a.str = some a := by
  cases a with
  | finite s c e => exact Decimal.ofString_str s hrange.1 hrange.2
  | infinity s =>
    rw [Decimal.nonPositive, Except.ok.injEq] at hpos
    subst hpos
    decide +kernel
  | nan s => cases hpos

theorem checkAmount_ok : checkAmount amount = .ok () ↔ ∀ a ∈ amount, a.nonPositive = .ok false := by
  cases amount with
  | none => simp [checkAmount]
  | some a =>
    simp only [checkAmount, Option.mem_some_iff, forall_eq']
    cases h : a.nonPositive with
    | error s => simp
    | ok b => cases b <;> simp

theorem verifyCrc_false {t : String} (hascii : Ascii t) (hlength : 4 ≤ t.toList.length) (h : Detected t.toList) :
    verifyCrc t = .ok false := by
  have hbody : Ascii (String.ofList (t.toList.take (t.toList.length - 4))) := by
    intro c hc
    rw [String.toList_ofList] at hc
    exact hascii c (List.mem_of_mem_take hc)
  have hdrop : (t.toList.drop (t.toList.length - 4)).length = 4 := by
    rw [List.length_drop]
    omega
  have hne := h _ _ (List.take_append_drop _ _).symm hdrop
  rw [verifyCrc, crc16Ccitt_ok.mpr ⟨hbody, rfl⟩, String.toList_ofList]
  show Except.ok (decide _) = Except.ok false
  rw [decide_eq_false fun hsame => hne (String.ofList_inj.mp hsame)]

theorem accountEntries_short (h : accountNumber.length ≤ 34) :
    ∀ x ∈ accountEntries accountNumber, x.2.length ≤ 99 := by
  have hscheme : "SG.PAYNOW".length = 9 := by decide
  simp only [accountEntries, List.mem_cons, List.not_mem_nil, or_false, forall_eq_or_imp, forall_eq, hscheme]
  omega

/-- The template of an account has four characters more than its two values and the length of the scheme. -/
theorem template_length (h : encodeTlv repr (accountEntries accountNumber) = .ok template) :
    template.length = 17 + accountNumber.length := by
  obtain ⟨-, htext⟩ := encodeTlv_ok.mp h
  have hlengths : "00".length = 2 ∧ "01".length = 2 ∧ "SG.PAYNOW".length = 9 := by decide
  have htwo (n : ℕ) : (twoDigits n).length = 2 := by rw [← String.length_toList, twoDigits_length]
  have hcount := congrArg List.length htext
  simp only [accountEntries, List.flatMap_cons, List.flatMap_nil, List.append_nil, List.length_append, entryText,
    String.toList_append, String.length_toList, htwo, hlengths] at hcount
  omega

theorem sgqrEntries_short (htemplate : template.length ≤ 99) (hnumeric : numeric.length = 3) :
    (∀ x ∈ sgqrEntries template merchantName merchantCity numeric amount, x.2.length ≤ 99) ↔
      ∀ a ∈ amount, a.str.length ≤ 99 := by
  have hlengths : "01".length = 2 ∧ "11".length = 2 ∧ "12".length = 2 ∧ "0000".length = 4 ∧ "SG".length = 2 := by
    decide
  cases amount with
  | none =>
    simp only [sgqrEntries, Option.map_none, Option.toList_none, List.append_nil, List.cons_append, List.nil_append,
      List.forall_mem_cons, List.not_mem_nil, Option.isSome_none, Option.not_mem_none]
    simp [hlengths, htemplate, hnumeric]
  | some a =>
    simp only [sgqrEntries, Option.map_some, Option.toList_some, List.cons_append, List.nil_append,
      List.forall_mem_cons, List.not_mem_nil, Option.isSome_some, Option.mem_some_iff]
    simp [hlengths, htemplate, hnumeric]

theorem encodeTlv_exists {entries : List (String × String)} (h : ∀ x ∈ entries, x.2.length ≤ 99) :
    ∃ text, encodeTlv repr entries = .ok text :=
  ⟨String.ofList (entries.flatMap fun x => (entryText x).toList), encodeTlv_ok.mpr ⟨h, String.toList_ofList⟩⟩

theorem encodeTlv_refused {entries : List (String × String)} (h : ¬∀ x ∈ entries, x.2.length ≤ 99) :
    ∃ message, encodeTlv repr entries = .error (.sgqr message) := by
  cases hencode : encodeTlv repr entries with
  | ok text => exact absurd (encodeTlv_ok.mp hencode).1 h
  | error e =>
    obtain ⟨message, rfl⟩ := encodeTlv_error hencode
    exact ⟨message, rfl⟩

section Supported

variable (hnumeric : currencyNumeric.lookup currency = some numeric) (hcheck : checkAmount amount = .ok ())
  (hnumber : accountNumber.length ≤ 34)
include hnumeric hcheck hnumber

/-- An amount that its field cannot hold ends in the error of the generator. -/
theorem buildSgqr_long (hlong : ¬∀ a ∈ amount, a.str.length ≤ 99) :
    ∃ message, buildSgqr repr make accountNumber merchantName merchantCity currency amount =
      .error (.sgqr message) := by
  obtain ⟨template, htemplate⟩ := @encodeTlv_exists repr _ (accountEntries_short hnumber)
  have hlength : template.length ≤ 99 := by
    rw [template_length htemplate]
    omega
  rw [← @sgqrEntries_short merchantName merchantCity numeric template amount hlength
    (numeric_length hnumeric)] at hlong
  obtain ⟨message, herror⟩ := @encodeTlv_refused repr _ hlong
  refine ⟨message, ?_⟩
  simp only [buildSgqr, hnumeric, hcheck, sgqrFields_eq, htemplate, herror, ok_bind]
  rfl

/-- What fits is generated iff it is ASCII; else the checksum ends in the error of the encoding. -/
theorem buildSgqr_short (hshort : ∀ a ∈ amount, a.str.length ≤ 99) :
    if Ascii accountNumber ∧ Ascii (String.ofList (merchantName.toList.take 25)) ∧
      Ascii (String.ofList (merchantCity.toList.take 15))
    then ∃ p, buildSgqr repr make accountNumber merchantName merchantCity currency amount = .ok p
    else buildSgqr repr make accountNumber merchantName merchantCity currency amount = .error .unicodeEncode := by
  obtain ⟨template, htemplate⟩ := @encodeTlv_exists repr _ (accountEntries_short hnumber)
  have hlength : template.length ≤ 99 := by
    rw [template_length htemplate]
    omega
  rw [← @sgqrEntries_short merchantName merchantCity numeric template amount hlength
    (numeric_length hnumeric)] at hshort
  obtain ⟨text, htext⟩ := @encodeTlv_exists repr _ hshort
  have hinside : Ascii template ↔ Ascii accountNumber := by
    rw [entries_ascii (accountEntries_short hnumber) (encodeTlv_ok.mp htemplate).2, accountEntries_ascii]
  have hcrc : Ascii "6304" := by decide
  have hascii : Ascii (text ++ "6304") ↔ Ascii accountNumber ∧ Ascii (String.ofList (merchantName.toList.take 25)) ∧
      Ascii (String.ofList (merchantCity.toList.take 15)) := by
    rw [ascii_append, and_iff_left hcrc, entries_ascii hshort (encodeTlv_ok.mp htext).2,
      sgqrEntries_ascii (numeric_ascii hnumeric), hinside]
  by_cases hall : Ascii (text ++ "6304")
  · rw [if_pos (hascii.mp hall)]
    simp only [buildSgqr, hnumeric, hcheck, sgqrFields_eq, htemplate, htext, ok_bind, crc16Ccitt, if_pos hall]
    exact ⟨_, rfl⟩
  · rw [if_neg fun hparts => hall (hascii.mpr hparts)]
    simp only [buildSgqr, hnumeric, hcheck, sgqrFields_eq, htemplate, htext, ok_bind, crc16Ccitt, if_neg hall]
    rfl

end Supported

/-- A returned payload is read back as the fields it was built from, the template inside as its own, and its
checksum holds. -/
theorem sgqr_round_trip (repr : String → String) (make : String → List UInt8)
    (accountNumber merchantName merchantCity currency : String) (amount : Option Decimal) (p : SgqrPayload)
    (hrange : ∀ a ∈ amount, a.InRange)
    (hbuild : buildSgqr repr make accountNumber merchantName merchantCity currency amount = .ok p) :
    ∃ numeric template crc, currencyNumeric.lookup currency = some numeric ∧
      ParseTlv p.payload
        (.ok ([("00", "01"), ("01", if amount.isSome then "12" else "11"), ("26", template), ("52", "0000"),
        ("53", numeric)] ++ (amount.map fun amount => ("54", amount.str)).toList ++ [("58", "SG"),
        ("59", String.ofList (merchantName.toList.take 25)), ("60", String.ofList (merchantCity.toList.take 15)),
        ("63", crc)])) ∧
      crc.toList = p.payload.toList.drop (p.payload.toList.length - 4) ∧
      (∀ a ∈ amount, Decimal.ofString a.str = some a) ∧
      ParseTlv template (.ok [("00", "SG.PAYNOW"), ("01", accountNumber)]) ∧
      verifyCrc p.payload = .ok true := by
  obtain ⟨numeric, template, text, hnumeric, hcheck, hbuilt⟩ := buildSgqr_ok hbuild
  refine ⟨numeric, template, String.ofList (hex4 (crc16 (text ++ "6304").toList)), hnumeric, ?_, ?_, ?_,
    hbuilt.parse_template, hbuilt.verify⟩
  · have hparse := hbuilt.parse
    rw [sgqrEntries, List.append_assoc] at hparse
    exact hparse
  · rw [hbuilt.last_four, String.toList_ofList]
  · intro a ha
    exact Decimal.str_reads_back (hrange a ha) (checkAmount_ok.mp hcheck a ha)

/-- A dynamic code, read back. -/
theorem sgqr_round_trip_shop : ∃ p template,
    buildSgqr id (fun _ => []) "SG12" "Shop" "Singapore" "SGD" (some (.finite false 150 (-2))) = .ok p ∧
      ParseTlv template (.ok [("00", "SG.PAYNOW"), ("01", "SG12")]) ∧ verifyCrc p.payload = .ok true := by
  have hbuild :=
    @buildSgqr_short id (fun _ => []) "SG12" "Shop" "Singapore" "SGD" "702" (some (.finite false 150 (-2)))
    rfl rfl (by decide) (by decide)
  rw [if_pos (by decide)] at hbuild
  obtain ⟨p, hp⟩ := hbuild
  have hrange : ∀ a ∈ some (Decimal.finite false 150 (-2)), a.InRange := by
    simp only [Option.mem_some_iff, forall_eq', Decimal.InRange]
    decide
  obtain ⟨numeric, template, crc, -, -, -, -, htemplate, hverify⟩ := sgqr_round_trip id (fun _ => []) "SG12" "Shop"
    "Singapore" "SGD" (some (.finite false 150 (-2))) p hrange hp
  exact ⟨p, template, hp, htemplate, hverify⟩

/-- Neither one character replaced nor two neighbours swapped leave the checksum right. -/
theorem sgqr_tamper (repr : String → String) (make : String → List UInt8)
    (accountNumber merchantName merchantCity currency : String) (amount : Option Decimal)
    (p : SgqrPayload) (t : String)
    (hbuild : buildSgqr repr make accountNumber merchantName merchantCity currency amount = .ok p)
    (hascii : Ascii t) (h : Tampered p.payload.toList t.toList) : verifyCrc t = .ok false := by
  obtain ⟨numeric, template, text, -, -, hbuilt⟩ := buildSgqr_ok hbuild
  have hfour : (text ++ "6304").toList = (text ++ "630").toList ++ ['4'] := by
    rw [String.toList_append, String.toList_append, List.append_assoc]
    rfl
  have hlist :
      p.payload.toList = (text ++ "630").toList ++ '4' :: hex4 (crc16 ((text ++ "630").toList ++ ['4'])) := by
    rw [hbuilt.payload_list, hfour, List.append_assoc]
    rfl
  have hlength : 4 ≤ t.toList.length := by
    rw [← h.length_eq, hlist, List.length_append, List.length_cons, hex4_length]
    omega
  exact verifyCrc_false hascii hlength (tampered_detected h hlist hbuilt.payload_ascii hascii)

/-- The last digit of a static code replaced. -/
theorem sgqr_tamper_shop : ∃ p t, buildSgqr id (fun _ => []) "SG12" "Shop" "Singapore" "SGD" none = .ok p ∧
    Tampered p.payload.toList t.toList ∧ verifyCrc t = .ok false := by
  have hbuild :=
    @buildSgqr_short id (fun _ => []) "SG12" "Shop" "Singapore" "SGD" "702" none rfl rfl (by decide) (by simp)
  rw [if_pos (by decide)] at hbuild
  obtain ⟨p, hp⟩ := hbuild
  obtain ⟨numeric, template, text, -, -, hbuilt⟩ := buildSgqr_ok hp
  have hne : p.payload.toList ≠ [] := by
    intro hnil
    have hcount := hbuilt.payload_list
    rw [hnil] at hcount
    simp [hex4] at hcount
  obtain ⟨front, last, hlast⟩ : ∃ front last, p.payload.toList = front ++ [last] :=
    ⟨_, _, (List.dropLast_append_getLast hne).symm⟩
  obtain ⟨digit, hdigit, hother⟩ : ∃ digit : Char, digit.toNat < 128 ∧ last ≠ digit := by
    by_cases hzero : last = '0'
    · exact ⟨'1', by decide, by rw [hzero]; decide⟩
    · exact ⟨'0', by decide, hzero⟩
  have hascii : Ascii (String.ofList (front ++ [digit])) := by
    have hpayload := hbuilt.payload_ascii
    rw [hlast] at hpayload
    rw [Ascii, String.toList_ofList]
    exact List.forall_mem_append.mpr ⟨(List.forall_mem_append.mp hpayload).1, List.forall_mem_singleton.mpr hdigit⟩
  have htampered : Tampered p.payload.toList (String.ofList (front ++ [digit])).toList := by
    rw [String.toList_ofList, hlast]
    exact .replaced front [] hother
  exact ⟨p, _, hp, htampered,
    sgqr_tamper id (fun _ => []) "SG12" "Shop" "Singapore" "SGD" none p _ hp hascii htampered⟩

/-- Of an account that can be stored and a request that is admitted: the generator ends in its own error at most,
and in a payload whenever the currency is supported and the amount fits, iff one of these two fails or the three
texts of the payload are ASCII. -/
theorem buildSgqr_failures_iff (repr : String → String) (make : String → List UInt8)
    (accountNumber merchantName merchantCity currency : String) (amount : Option Decimal)
    (hnumber : accountNumber.length ≤ 34) (hamount : ∀ a ∈ amount, a.nonPositive = .ok false) :
    (((∃ p, buildSgqr repr make accountNumber merchantName merchantCity currency amount = .ok p) ∨
        ∃ message, buildSgqr repr make accountNumber merchantName merchantCity currency amount =
          .error (.sgqr message)) ∧
      ((currencyNumeric.lookup currency).isSome → (∀ a ∈ amount, a.str.length ≤ 99) →
        ∃ p, buildSgqr repr make accountNumber merchantName merchantCity currency amount = .ok p)) ↔
    currencyNumeric.lookup currency = none ∨ (∃ a ∈ amount, 99 < a.str.length) ∨
      (Ascii accountNumber ∧ Ascii (String.ofList (merchantName.toList.take 25)) ∧
        Ascii (String.ofList (merchantCity.toList.take 15))) := by
  have hcheck : checkAmount amount = .ok () := checkAmount_ok.mpr hamount
  cases hnumeric : currencyNumeric.lookup currency with
  | none =>
    have hrefused : buildSgqr repr make accountNumber merchantName merchantCity currency amount =
        .error (.sgqr ("unsupported currency for SGQR: " ++ currency)) := by
      simp only [buildSgqr, hnumeric]
    refine iff_of_true ⟨.inr ⟨_, hrefused⟩, ?_⟩ (.inl rfl)
    intro hsome
    cases hsome
  | some numeric =>
    by_cases hshort : ∀ a ∈ amount, a.str.length ≤ 99
    · have hbuild :=
        @buildSgqr_short repr make accountNumber merchantName merchantCity currency numeric amount hnumeric
        hcheck hnumber hshort
      have hno : ¬∃ a ∈ amount, 99 < a.str.length := by
        rintro ⟨a, ha, hlong⟩
        exact absurd (hshort a ha) (by omega)
      split at hbuild
      · rename_i hascii
        exact iff_of_true ⟨.inl hbuild, fun _ _ => hbuild⟩ (.inr (.inr hascii))
      · rename_i hascii
        refine iff_of_false ?_ ?_
        · rintro ⟨-, hsupported⟩
          obtain ⟨p, hp⟩ := hsupported rfl hshort
          rw [hbuild] at hp
          cases hp
        · rintro (h | h | h)
          · cases h
          · exact hno h
          · exact hascii h
    · have hbuild :=
        @buildSgqr_long repr make accountNumber merchantName merchantCity currency numeric amount hnumeric
        hcheck hnumber hshort
      refine iff_of_true ⟨.inr hbuild, fun _ hall => absurd hall hshort⟩ (.inr (.inl ?_))
      push Not at hshort
      exact hshort

/-- A static code of a small shop. -/
theorem buildSgqr_failures_shop :
    (∃ p, buildSgqr id (fun _ => []) "SG12" "Shop" "Singapore" "SGD" none = .ok p) ∨
      ∃ message, buildSgqr id (fun _ => []) "SG12" "Shop" "Singapore" "SGD" none = .error (.sgqr message) :=
  ((buildSgqr_failures_iff id (fun _ => []) "SG12" "Shop" "Singapore" "SGD" none (by decide) (by simp)).mpr
    (.inr (.inr (by decide)))).1

/-- An owner's name outside ASCII reaches the checksum, whose encoding refuses it. -/
theorem buildSgqr_unicode_owner :
    ¬((∃ p, buildSgqr id (fun _ => []) "SG12" "José" "Singapore" "SGD" none = .ok p) ∨
      ∃ message, buildSgqr id (fun _ => []) "SG12" "José" "Singapore" "SGD" none = .error (.sgqr message)) := by
  have hbuild : buildSgqr id (fun _ => []) "SG12" "José" "Singapore" "SGD" none = .error .unicodeEncode := by
    decide +kernel
  rw [hbuild]
  rintro (⟨p, h⟩ | ⟨message, h⟩) <;> cases h

end Build
end PaymentLedger
