import PaymentLedger.Qr.Tlv

namespace PaymentLedger

/-- A field of the grammar: a tag of two characters, and a value whose length two digits can tell. -/
structure TlvField where
  tag : String
  value : String
  two : tag.length = 2
  short : value.length ≤ 99

namespace TlvField

def text (f : TlvField) : List Char := f.tag.toList ++ (twoDigits f.value.length).toList ++ f.value.toList

def entry (f : TlvField) : String × String := (f.tag, f.value)

end TlvField

/-- The payload is the concatenation of these fields, whose tags are distinct. -/
structure TlvGrammar (payload : String) (fields : List TlvField) : Prop where
  text : payload.toList = fields.flatMap TlvField.text
  distinct : (fields.map TlvField.tag).Nodup

/-- The entries encoded again, in their order. -/
def encodeTlv (repr : String → String) : List (String × String) → Except SgqrFailure String
  | [] => .ok ""
  | (tag, value) :: fields => do
    let field ← tlv repr tag value
    let rest ← encodeTlv repr fields
    return field ++ rest

section Encoding

variable {repr : String → String}

theorem tlv_ok {tag value text : String} :
    tlv repr tag value = .ok text ↔ value.length ≤ 99 ∧ text = tag ++ twoDigits value.length ++ value := by
  unfold tlv
  by_cases hlong : 99 < value.length
  · rw [if_pos hlong]
    constructor
    · intro h
      cases h
    · rintro ⟨hshort, -⟩
      omega
  · rw [if_neg hlong, Except.ok.injEq]
    constructor
    · rintro rfl
      exact ⟨by omega, rfl⟩
    · rintro ⟨-, rfl⟩
      rfl

theorem tlv_field (f : TlvField) : tlv repr f.tag f.value = .ok (String.ofList f.text) := by
  rw [tlv_ok]
  refine ⟨f.short, ?_⟩
  rw [TlvField.text, String.ofList_append, String.ofList_append, String.ofList_toList, String.ofList_toList,
    String.ofList_toList]

theorem encodeTlv_entries (fields : List TlvField) :
    encodeTlv repr (fields.map TlvField.entry) = .ok (String.ofList (fields.flatMap TlvField.text)) := by
  induction fields with
  | nil => rfl
  | cons f fields ih =>
    rw [List.map_cons, TlvField.entry, encodeTlv, tlv_field, ih, List.flatMap_cons, String.ofList_append]
    rfl

end Encoding

section Reading

variable {pre rest : List Char} {f : TlvField}

theorem twoDigits_length (n : ℕ) : (twoDigits n).toList.length = 2 := by
  rw [twoDigits, String.toList_ofList]
  rfl

/-- Two digits read back as the number. -/
theorem parseInt_twoDigits {n : ℕ} (h : n ≤ 99) : parseInt (twoDigits n).toList = some n := by
  have hall : ∀ m : Fin 100, parseInt [Nat.digitChar (m / 10), Nat.digitChar (m % 10)] = some (m : ℤ) := by
    decide +kernel
  rw [twoDigits, String.toList_ofList]
  exact hall ⟨n, by omega⟩

namespace TlvField

theorem text_length (f : TlvField) : f.text.length = 4 + f.value.length := by
  rw [text, List.length_append, List.length_append, twoDigits_length, String.length_toList,
    String.length_toList, f.two]

theorem slice_tag (f : TlvField) (pre rest : List Char) :
    slice (pre ++ (f.text ++ rest)) pre.length (pre.length + 2) = f.tag.toList := by
  have hslice := @slice_append _ pre (f.text ++ rest) 0 2
  have htag : f.tag.toList.length = 2 := by rw [String.length_toList, f.two]
  rw [Nat.cast_zero, add_zero, Nat.cast_ofNat] at hslice
  rw [hslice, List.drop_zero, text, List.append_assoc, List.append_assoc, ← htag, List.take_left]

theorem slice_length (f : TlvField) (pre rest : List Char) :
    slice (pre ++ (f.text ++ rest)) (pre.length + 2) (pre.length + 4) = (twoDigits f.value.length).toList := by
  have hslice := @slice_append _ pre (f.text ++ rest) 2 4
  have htag : f.tag.toList.length = 2 := by rw [String.length_toList, f.two]
  have hhead : (f.tag.toList ++ (twoDigits f.value.length).toList).length = 4 := by
    rw [List.length_append, htag, twoDigits_length]
  rw [Nat.cast_ofNat, Nat.cast_ofNat] at hslice
  rw [hslice, text, List.append_assoc, ← hhead, List.take_left, ← htag, List.drop_left]

theorem slice_value (f : TlvField) (pre rest : List Char) :
    slice (pre ++ (f.text ++ rest)) (pre.length + 4) (pre.length + 4 + f.value.length) = f.value.toList := by
  have hslice := @slice_append _ pre (f.text ++ rest) 4 f.text.length
  have hhead : (f.tag.toList ++ (twoDigits f.value.length).toList).length = 4 := by
    rw [List.length_append, String.length_toList, f.two, twoDigits_length]
  rw [f.text_length, Nat.cast_add, Nat.cast_ofNat, ← add_assoc] at hslice
  rw [hslice, ← f.text_length, List.take_left, text, ← hhead, List.drop_left]

end TlvField

/-- The loop reads a field. -/
theorem parseTlvLoop_field (f : TlvField) (pre rest : List Char) (n : ℕ) (fields : List (String × String)) :
    parseTlvLoop (pre ++ (f.text ++ rest)) (n + 1) pre.length fields =
      parseTlvLoop (pre ++ (f.text ++ rest)) n (pre ++ f.text).length (setField f.tag f.value fields) := by
  have hinside : (pre.length : ℤ) < (pre ++ (f.text ++ rest)).length := by
    rw [List.length_append, List.length_append, f.text_length]
    omega
  have hlength : parseInt (slice (pre ++ (f.text ++ rest)) (pre.length + 2) (pre.length + 4)) =
      some (f.value.length : ℤ) := by
    rw [f.slice_length]
    exact parseInt_twoDigits f.short
  have hnext : (pre.length : ℤ) + 4 + f.value.length = (pre ++ f.text).length := by
    rw [List.length_append, f.text_length]
    omega
  rw [parseTlvLoop, if_pos hinside]
  simp only [hlength]
  rw [f.slice_tag, f.slice_value, hnext, String.ofList_toList, String.ofList_toList]

theorem setField_new {tag value : String} {fields : List (String × String)} (h : tag ∉ fields.map Prod.fst) :
    setField tag value fields = fields ++ [(tag, value)] := by
  induction fields with
  | nil => rfl
  | cons x fields ih =>
    rw [List.map_cons, List.mem_cons, not_or] at h
    rw [setField, if_neg (Ne.symm h.1), ih h.2, List.cons_append]

theorem parseTlvLoop_fields (fields : List TlvField) (pre : List Char) (acc : List (String × String))
    (hn : (acc.map Prod.fst ++ fields.map TlvField.tag).Nodup) :
    parseTlvLoop (pre ++ fields.flatMap TlvField.text) (fields.length + 1) pre.length acc =
      some (.ok (acc ++ fields.map TlvField.entry)) := by
  induction fields generalizing pre acc with
  | nil =>
    rw [List.flatMap_nil, List.append_nil, List.map_nil, List.append_nil, List.length_nil, parseTlvLoop,
      if_neg (lt_irrefl _)]
  | cons f fields ih =>
    have hnew : f.tag ∉ acc.map Prod.fst := by
      intro hmem
      exact (List.nodup_append.mp hn).2.2 _ hmem _ List.mem_cons_self rfl
    have hrest : ((acc ++ [f.entry]).map Prod.fst ++ fields.map TlvField.tag).Nodup := by
      rw [List.map_append, List.append_assoc]
      exact hn
    have hnext := ih (pre ++ f.text) (acc ++ [f.entry]) hrest
    rw [List.append_assoc, List.append_assoc, List.singleton_append] at hnext
    rw [List.flatMap_cons, List.length_cons, parseTlvLoop_field, setField_new hnew]
    exact hnext

/-- The fields of a payload of the grammar are read back in their order. -/
theorem TlvGrammar.parse {payload : String} {fields : List TlvField} (h : TlvGrammar payload fields) :
    ParseTlv payload (.ok (fields.map TlvField.entry)) := by
  refine ⟨fields.length + 1, ?_⟩
  have hloop := parseTlvLoop_fields fields [] [] h.distinct
  rw [List.nil_append, ← h.text] at hloop
  exact hloop

theorem TlvGrammar.encode {repr : String → String} {payload : String} {fields : List TlvField}
    (h : TlvGrammar payload fields) : encodeTlv repr (fields.map TlvField.entry) = .ok payload := by
  rw [encodeTlv_entries, ← h.text, String.ofList_toList]

end Reading

section Acceptance

/-- What an exact parser of the grammar does with a payload: it returns fields iff the payload has the grammar,
their encoding is then the payload, and it raises on every other payload. -/
structure ExactOn (repr : String → String) (payload : String) : Prop where
  accepts : (∃ fields, ParseTlv payload (.ok fields)) ↔ ∃ fields, TlvGrammar payload fields
  encodes : ∀ fields, ParseTlv payload (.ok fields) → encodeTlv repr fields = .ok payload
  raises : (¬∃ fields, TlvGrammar payload fields) → ∃ e, ParseTlv payload (.error e)

variable {repr : String → String} {payload : String}

theorem TlvGrammar.exact {fields : List TlvField} (h : TlvGrammar payload fields) : ExactOn repr payload := by
  constructor
  · exact ⟨fun _ => ⟨fields, h⟩, fun _ => ⟨_, h.parse⟩⟩
  · intro fields' hparse
    obtain rfl := Except.ok.inj (hparse.unique h.parse)
    exact h.encode
  · intro hno
    exact absurd ⟨fields, h⟩ hno

theorem exactOn_raises {e : InvalidLiteral} (h : ParseTlv payload (.error e)) : ExactOn repr payload := by
  have hno (fields : List (String × String)) (hparse : ParseTlv payload (.ok fields)) : False := by
    have hsame := hparse.unique h
    cases hsame
  constructor
  · constructor
    · rintro ⟨fields, hparse⟩
      exact (hno fields hparse).elim
    · rintro ⟨fields, hgrammar⟩
      exact (hno _ hgrammar.parse).elim
  · intro fields hparse
    exact (hno fields hparse).elim
  · exact fun _ => ⟨e, h⟩

theorem ExactOn.ends (h : ExactOn repr payload) : ∃ r, ParseTlv payload r := by
  by_cases hgrammar : ∃ fields, TlvGrammar payload fields
  · obtain ⟨fields, hparse⟩ := h.accepts.mpr hgrammar
    exact ⟨_, hparse⟩
  · obtain ⟨e, herror⟩ := h.raises hgrammar
    exact ⟨_, herror⟩

/-- The parser is exact on the payloads of the grammar and on those with a length that `int` refuses or one of -5
behind fields that each end where their length says or at the end of the text. It is on no other but, maybe, where a
length from -6 down stands there. -/
theorem parseTlv_exact (repr : String → String) (payload : String) :
    ((∃ fields, TlvGrammar payload fields) ∨ Meets payload.toList none ∨ Meets payload.toList (some (-5)) →
      ExactOn repr payload) ∧
    (ExactOn repr payload →
      (∃ fields, TlvGrammar payload fields) ∨ Meets payload.toList none ∨ Meets payload.toList (some (-5)) ∨
        ∃ n ≤ -6, Meets payload.toList (some n)) := by
  constructor
  · rintro (⟨fields, hgrammar⟩ | hrefused | hback)
    · exact hgrammar.exact
    · obtain ⟨e, herror⟩ := hrefused.raises
      exact exactOn_raises herror
    · obtain ⟨e, herror⟩ := hback.raises_back
      exact exactOn_raises herror
  · intro h
    rcases meets_cases payload.toList with hend | hrefused | ⟨n, hn, hback⟩
    · exact .inl (h.accepts.mp hend.returns)
    · exact .inr (.inl hrefused)
    · rcases (by omega : n = -4 ∨ n = -5 ∨ n ≤ -6) with rfl | rfl | hfar
      · exact absurd h.ends hback.runs
      · exact .inr (.inr (.inl hback))
      · exact .inr (.inr (.inr ⟨n, hfar, hback⟩))

/-- A value shorter than its length says is returned all the same. -/
theorem parseTlv_takes_short_value : ¬ExactOn id "0005ab" := by
  intro h
  have hparse : ParseTlv "0005ab" (.ok [("00", "ab")]) := ⟨2, by decide +kernel⟩
  have hencode := h.encodes _ hparse
  have hfield : encodeTlv id [("00", "ab")] = .ok "0002ab" := rfl
  rw [hfield] at hencode
  exact absurd (Except.ok.inj hencode) (by decide)

end Acceptance
end PaymentLedger
