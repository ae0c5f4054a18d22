import PaymentLedger.Iso20022.Comments
import PaymentLedger.Text.Encoding

namespace PaymentLedger

/-- What a DOCTYPE declaration begins with. -/
def declaration : List Char := ['<', '!', 'D', 'O', 'C', 'T', 'Y', 'P', 'E']

/-- The bytes of a text with a DOCTYPE declaration show it: in UTF-8 always, in UTF-16 only where characters far
from these nine have the same bytes. -/
def Encoding.Shows (text : List Char) : Encoding → Prop
  | utf8 | utf8Bom => True
  | utf16le =>
    (∃ u, lowByte u = 0x45 ∧ [0x213C, 0x4F44, 0x5443, 0x5059, u] <:+: utf16 text) ∨
      ∃ u, highByte u = 0x3C ∧ [u, 0x4421, 0x434F, 0x5954, 0x4550] <:+: utf16 text
  | utf16be =>
    (∃ u, highByte u = 0x45 ∧ [0x3C21, 0x444F, 0x4354, 0x5950, u] <:+: utf16 text) ∨
      ∃ u, lowByte u = 0x3C ∧ [u, 0x2144, 0x4F43, 0x5459, 0x5045] <:+: utf16 text

theorem utf16le_shows_iff {text : List Char} :
    doctype <:+: Encoding.utf16le.encode text ↔ Encoding.utf16le.Shows text := by
  have hspell := infix_unpair_map_iff littleEndian_injective [0x213C, 0x4F44, 0x5443, 0x5059]
    [0x4421, 0x434F, 0x5954, 0x4550] (utf16 (byteOrderMark :: text)) (a := 0x45) (b := 0x3C) (by decide)
  refine hspell.trans (or_congr (exists_congr fun u => ?_) (exists_congr fun u => ?_))
  · exact and_congr_right fun _ => infix_utf16_mark (by decide)
  · refine and_congr_right fun hu => infix_utf16_mark ?_
    rintro rfl
    exact absurd hu (by decide)

theorem utf16be_shows_iff {text : List Char} :
    doctype <:+: Encoding.utf16be.encode text ↔ Encoding.utf16be.Shows text := by
  have hspell := infix_unpair_map_iff bigEndian_injective [0x3C21, 0x444F, 0x4354, 0x5950]
    [0x2144, 0x4F43, 0x5459, 0x5045] (utf16 (byteOrderMark :: text)) (a := 0x45) (b := 0x3C) (by decide)
  refine hspell.trans (or_congr (exists_congr fun u => ?_) (exists_congr fun u => ?_))
  · exact and_congr_right fun _ => infix_utf16_mark (by decide)
  · refine and_congr_right fun hu => infix_utf16_mark ?_
    rintro rfl
    exact absurd hu (by decide)

theorem utf8_declaration : utf8 declaration = doctype := by decide

theorem doctype_encode_iff {encoding : Encoding} {text : List Char} (h : declaration <:+: text) :
    doctype <:+: encoding.encode text ↔ encoding.Shows text := by
  have hutf8 {text' : List Char} (ht : text <:+: text') : doctype <:+: utf8 text' := by
    rw [← utf8_declaration]
    exact utf8_infix (h.trans ht)
  cases encoding with
  | utf8 => exact iff_of_true (hutf8 List.infix_rfl) trivial
  | utf8Bom => exact iff_of_true (hutf8 (List.suffix_cons _ _).isInfix) trivial
  | utf16le => exact utf16le_shows_iff
  | utf16be => exact utf16be_shows_iff

/-- A text with a DOCTYPE declaration is refused iff its bytes show the declaration, or the document lacks one of
the fields. A reference that stays unresolved is a node without text, like a comment. -/
theorem declaration_refused_iff (fromstring : List UInt8 → Except String Element)
    (encoding : Encoding) (text : List Char)
    (root : Element) (hdeclared : declaration <:+: text) (hroot : fromstring (encoding.encode text) = .ok root) :
    (∃ e, parsePain001 fromstring (encoding.encode text) = .error (.parse e)) ↔
      encoding.Shows text ∨ ¬root.Sufficient := by
  rw [parsePain001_error_iff hroot, Refusable, doctype_encode_iff hdeclared]

def declaredDocument : List Char :=
  declaration ++ [' ', 'D', 'o', 'c', 'u', 'm', 'e', 'n', 't', '>'] ++ (creditorDocument "C1").toList

theorem declared_declaredDocument : declaration <:+: declaredDocument :=
  ⟨[], _, (List.append_assoc _ _ _).symm⟩

/-- A parser of one document. -/
def oneDocument (known : List UInt8) (root : Element) (xmlBytes : List UInt8) : Except String Element :=
  if xmlBytes = known then .ok root else .error ""

theorem oneDocument_known {known : List UInt8} {root : Element} :
    oneDocument known root known = .ok root := if_pos rfl

theorem declaration_refused_sample :
    ∃ e, parsePain001 (oneDocument (Encoding.utf8Bom.encode declaredDocument) (creditorRoot (.text "C1" .empty)))
      (Encoding.utf8Bom.encode declaredDocument) = .error (.parse e) := by
  apply (declaration_refused_iff _ _ _ _ declared_declaredDocument oneDocument_known).mpr
  exact .inl trivial

theorem utf16_append (text text' : List Char) : utf16 (text ++ text') = utf16 text ++ utf16 text' :=
  List.flatMap_append

section Units

variable {u : UInt16}

theorem absent_units {l : List Char} (h : u ∉ utf16 l) : u ∉ utf16 (String.ofList l).toList := by
  rw [String.toList_ofList]
  exact h

theorem absent_units_append {l l' : List Char} (h : u ∉ utf16 l) (h' : u ∉ utf16 l') : u ∉ utf16 (l ++ l') := by
  rw [utf16_append, List.mem_append, not_or]
  exact ⟨h, h'⟩

theorem absent_units_join {s s' : String} (h : u ∉ utf16 s.toList) (h' : u ∉ utf16 s'.toList) :
    u ∉ utf16 (s ++ s').toList := by
  rw [String.toList_append]
  exact absent_units_append h h'

theorem utf16_declaredDocument (hu : u = 0x4F44 ∨ u = 0x4421) : u ∉ utf16 declaredDocument := by
  unfold declaredDocument creditorDocument
  refine absent_units_append (absent_units_append ?_ ?_) (absent_units_join (absent_units_join (absent_units_join
    (absent_units_join ?_ ?_) ?_) ?_) ?_) <;> rcases hu with rfl | rfl
  · decide
  · decide
  · decide
  · decide
  all_goals exact absent_units (by decide +kernel)

end Units

/-- In UTF-16 the payment of a document with a DOCTYPE declaration is read. -/
theorem utf16_declaration_accepted :
    let fromstring := oneDocument (Encoding.utf16le.encode declaredDocument) (creditorRoot (.text "C1" .empty))
    declaration <:+: declaredDocument ∧
      fromstring (Encoding.utf16le.encode declaredDocument) = .ok (creditorRoot (.text "C1" .empty)) ∧
      parsePain001 fromstring (Encoding.utf16le.encode declaredDocument) =
        .ok ⟨"M", "E1", "D", "C1", .finite false 1000 (-2), "EUR"⟩ ∧
      ¬∃ e, parsePain001 fromstring (Encoding.utf16le.encode declaredDocument) = .error (.parse e) := by
  intro fromstring
  have hroot : fromstring (Encoding.utf16le.encode declaredDocument) = .ok (creditorRoot (.text "C1" .empty)) :=
    oneDocument_known
  have hhidden : ¬doctype <:+: Encoding.utf16le.encode declaredDocument := by
    rw [utf16le_shows_iff]
    rintro (⟨u, -, hu⟩ | ⟨u, -, hu⟩)
    · exact utf16_declaredDocument (.inl rfl) (hu.subset (by simp))
    · exact utf16_declaredDocument (.inr rfl) (hu.subset (by simp))
  have hparse : parsePain001 fromstring (Encoding.utf16le.encode declaredDocument) =
      .ok ⟨"M", "E1", "D", "C1", .finite false 1000 (-2), "EUR"⟩ := by
    rw [parsePain001, if_neg hhidden, hroot]
    decide +kernel
  refine ⟨declared_declaredDocument, hroot, hparse, ?_⟩
  rw [hparse]
  rintro ⟨e, he⟩
  cases he

end PaymentLedger
