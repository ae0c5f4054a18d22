import Mathlib.Tactic

namespace PaymentLedger

section Pairs

variable {α ι : Type*}

/-- The members of the pairs, one after the other. -/
def unpair (l : List (α × α)) : List α := l.flatMap fun x => [x.1, x.2]

@[simp] theorem unpair_nil : unpair ([] : List (α × α)) = [] := rfl

@[simp] theorem unpair_cons (x : α × α) (l : List (α × α)) : unpair (x :: l) = x.1 :: x.2 :: unpair l := rfl

theorem unpair_prefix_iff {ps l : List (α × α)} : unpair ps <+: unpair l ↔ ps <+: l := by
  induction ps generalizing l with
  | nil => simp
  | cons p ps ih =>
    cases l with
    | nil => simp
    | cons x l =>
      simp only [unpair_cons, List.cons_prefix_cons, ih, Prod.ext_iff]
      exact and_assoc.symm

/-- A word of odd length stands at the front of the pairs: its last letter is the first half of one more. -/
theorem unpair_concat_prefix_iff {ps l : List (α × α)} {a : α} :
    unpair ps ++ [a] <+: unpair l ↔ ∃ b, ps ++ [(a, b)] <+: l := by
  induction ps generalizing l with
  | nil =>
    cases l with
    | nil => simp
    | cons x l => simp [Prod.ext_iff]
  | cons p ps ih =>
    cases l with
    | nil => simp
    | cons x l =>
      simp only [unpair_cons, List.cons_append, List.cons_prefix_cons, ih, Prod.ext_iff]
      constructor
      · rintro ⟨hfst, hsnd, b, hb⟩
        exact ⟨b, ⟨hfst, hsnd⟩, hb⟩
      · rintro ⟨b, ⟨hfst, hsnd⟩, hb⟩
        exact ⟨hfst, hsnd, b, hb⟩

/-- A word of odd length in a list of pairs begins with a pair or in the middle of one. -/
theorem infix_unpair_iff {ps qs l : List (α × α)} {a b : α} (h : unpair ps ++ [a] = b :: unpair qs) :
    unpair ps ++ [a] <:+: unpair l ↔ (∃ y, ps ++ [(a, y)] <:+: l) ∨ ∃ x, (x, b) :: qs <:+: l := by
  induction l with
  | nil => simp
  | cons p l ih =>
    have hmiddle : unpair ps ++ [a] <+: p.2 :: unpair l ↔ ∃ x, (x, b) :: qs <+: p :: l := by
      rw [h, List.cons_prefix_cons, unpair_prefix_iff]
      simp [List.cons_prefix_cons, Prod.ext_iff]
    have hfront : unpair ps ++ [a] <+: p.1 :: p.2 :: unpair l ↔ ∃ y, ps ++ [(a, y)] <+: p :: l :=
      unpair_concat_prefix_iff (l := p :: l)
    rw [unpair_cons, List.infix_cons_iff, List.infix_cons_iff, ih, hfront, hmiddle]
    simp only [List.infix_cons_iff, exists_or]
    rw [or_or_or_comm, or_assoc]

/-- The same for letters that are each written as a pair. -/
theorem infix_unpair_map_iff {f : ι → α × α} (hf : Function.Injective f) (ws vs us : List ι) {a b : α}
    (h : unpair (ws.map f) ++ [a] = b :: unpair (vs.map f)) :
    unpair (ws.map f) ++ [a] <:+: unpair (us.map f) ↔
      (∃ u, (f u).1 = a ∧ ws ++ [u] <:+: us) ∨ ∃ u, (f u).2 = b ∧ u :: vs <:+: us := by
  rw [infix_unpair_iff h]
  refine or_congr ?_ ?_
  · constructor
    · rintro ⟨y, hy⟩
      obtain ⟨ts, hts, hsame⟩ := List.infix_map_iff.mp hy
      obtain ⟨ws', us', rfl, hws, hus⟩ := List.map_eq_append_iff.mp hsame.symm
      obtain ⟨u, rfl, hu⟩ := List.map_eq_singleton_iff.mp hus
      obtain rfl := List.map_injective_iff.mpr hf hws
      exact ⟨u, by rw [hu], hts⟩
    · rintro ⟨u, rfl, hu⟩
      refine ⟨(f u).2, ?_⟩
      have hmap := hu.map f
      rwa [List.map_append, List.map_singleton] at hmap
  · constructor
    · rintro ⟨x, hx⟩
      obtain ⟨ts, hts, hsame⟩ := List.infix_map_iff.mp hx
      obtain ⟨u, vs', rfl, hu, hvs⟩ := List.map_eq_cons_iff.mp hsame.symm
      obtain rfl := List.map_injective_iff.mpr hf hvs
      exact ⟨u, by rw [hu], hts⟩
    · rintro ⟨u, rfl, hu⟩
      exact ⟨(f u).1, hu.map f⟩

end Pairs

/-- The code units of a character in UTF-16: one, or a surrogate pair. -/
def codeUnits (c : Char) : List UInt16 :=
  if c.toNat < 0x10000 then [UInt16.ofNat c.toNat]
  else [UInt16.ofNat (0xD800 + (c.toNat - 0x10000) / 0x400), UInt16.ofNat (0xDC00 + (c.toNat - 0x10000) % 0x400)]

def utf16 (text : List Char) : List UInt16 := text.flatMap codeUnits

def lowByte (u : UInt16) : UInt8 := UInt8.ofNat (u.toNat % 0x100)

def highByte (u : UInt16) : UInt8 := UInt8.ofNat (u.toNat / 0x100)

def littleEndian (u : UInt16) : UInt8 × UInt8 := (lowByte u, highByte u)

def bigEndian (u : UInt16) : UInt8 × UInt8 := (highByte u, lowByte u)

theorem bytes_injective {u v : UInt16} (hl : lowByte u = lowByte v) (hh : highByte u = highByte v) : u = v := by
  have hu := u.toNat_lt
  have hv := v.toNat_lt
  have hlow := congrArg UInt8.toNat hl
  have hhigh := congrArg UInt8.toNat hh
  simp only [lowByte, highByte, UInt8.toNat_ofNat'] at hlow hhigh
  apply UInt16.toNat_inj.mp
  omega

theorem littleEndian_injective : Function.Injective littleEndian := by
  intro u v h
  exact bytes_injective (congrArg Prod.fst h) (congrArg Prod.snd h)

theorem bigEndian_injective : Function.Injective bigEndian := by
  intro u v h
  exact bytes_injective (congrArg Prod.snd h) (congrArg Prod.fst h)

/-- The encodings that an XML parser tells from the first bytes. -/
inductive Encoding where
  | utf8
  | utf8Bom
  | utf16le
  | utf16be
  deriving DecidableEq

/-- U+FEFF. -/
def byteOrderMark : Char := '\uFEFF'

def utf8 (text : List Char) : List UInt8 := text.flatMap String.utf8EncodeChar

def Encoding.encode : Encoding → List Char → List UInt8
  | utf8, text => PaymentLedger.utf8 text
  | utf8Bom, text => PaymentLedger.utf8 (byteOrderMark :: text)
  | utf16le, text => unpair ((utf16 (byteOrderMark :: text)).map littleEndian)
  | utf16be, text => unpair ((utf16 (byteOrderMark :: text)).map bigEndian)

theorem utf8_infix {word text : List Char} (h : word <:+: text) : utf8 word <:+: utf8 text := by
  obtain ⟨before, behind, rfl⟩ := h
  refine ⟨utf8 before, utf8 behind, ?_⟩
  rw [utf8, utf8, utf8, utf8, List.flatMap_append, List.flatMap_append]

/-- A word that does not begin with the byte order mark stands behind it. -/
theorem infix_utf16_mark {u : UInt16} {us : List UInt16} {text : List Char} (h : u ≠ 0xFEFF) :
    u :: us <:+: utf16 (byteOrderMark :: text) ↔ u :: us <:+: utf16 text := by
  have hmark : utf16 (byteOrderMark :: text) = 0xFEFF :: utf16 text := rfl
  rw [hmark, List.infix_cons_iff, List.cons_prefix_cons]
  simp [h]

/-- The characters of bytes that are ASCII. -/
def asciiText (bytes : List UInt8) : List Char := bytes.map fun b => Char.ofNat b.toNat

theorem asciiText_utf8 {text : List Char} (h : ∀ c ∈ text, c.toNat < 128) : asciiText (utf8 text) = text := by
  induction text with
  | nil => rfl
  | cons c text ih =>
    have hc := h c List.mem_cons_self
    have hsize : c.utf8Size = 1 := by
      rw [Char.utf8Size_eq_one_iff, UInt32.le_iff_toNat_le]
      have hval : c.val.toNat < 128 := hc
      have hmax : (127 : UInt32).toNat = 127 := rfl
      omega
    have hbyte : Char.ofNat c.val.toUInt8.toNat = c := by
      have hnat : c.val.toUInt8.toNat = c.toNat := by
        rw [UInt32.toNat_toUInt8]
        exact Nat.mod_eq_of_lt (by have hval : c.val.toNat < 128 := hc; omega)
      rw [hnat, Char.ofNat_toNat]
    have hrest := ih fun d hd => h d (List.mem_cons_of_mem c hd)
    simp only [asciiText, utf8, List.flatMap_cons, String.utf8EncodeChar_eq_singleton hsize] at hrest ⊢
    rw [List.singleton_append, List.map_cons, hbyte, hrest]

end PaymentLedger
