import Mathlib.Data.String.Basic
import PaymentLedger.Math.DecimalText
import PaymentLedger.Text.Encoding

namespace PaymentLedger

/-- A JSON value that is neither an array nor an object. -/
inductive JsonScalar where
  | null
  | bool (b : Bool)
  | int (n : ℤ)
  | str (s : String)
  deriving DecidableEq

/-- An object of such values, with its members in the order of the text. -/
abbrev JsonObject := List (String × JsonScalar)

namespace Json

section Strings

/-- Four hexadecimal digits. -/
def hex4 (u : UInt16) : List Char :=
  [Nat.digitChar (u.toNat / 4096), Nat.digitChar (u.toNat / 256 % 16), Nat.digitChar (u.toNat / 16 % 16),
    Nat.digitChar (u.toNat % 16)]

/-- A character between the quotes, in ASCII. -/
def escape (c : Char) : List Char :=
  if c = '"' then ['\\', '"']
  else if c = '\\' then ['\\', '\\']
  else if c = '\n' then ['\\', 'n']
  else if c = '\r' then ['\\', 'r']
  else if c = '\t' then ['\\', 't']
  else if c = '\x0c' then ['\\', 'f']
  else if c = '\x08' then ['\\', 'b']
  else if 32 ≤ c.toNat ∧ c.toNat ≤ 126 then [c]
  else (codeUnits c).flatMap fun u => '\\' :: 'u' :: hex4 u

def dumpString (s : String) : List Char := '"' :: (s.toList.flatMap escape ++ ['"'])

def hexValue (c : Char) : Option ℕ :=
  if c.isDigit then some (c.toNat - 48)
  else if 97 ≤ c.toNat ∧ c.toNat ≤ 102 then some (c.toNat - 87)
  else if 65 ≤ c.toNat ∧ c.toNat ≤ 70 then some (c.toNat - 55)
  else none

def readHex4 (a b c d : Char) : Option UInt16 := do
  let a ← hexValue a
  let b ← hexValue b
  let c ← hexValue c
  let d ← hexValue d
  return UInt16.ofNat (4096 * a + 256 * b + 16 * c + d)

/-- The character that a backslash and this letter stand for. -/
def unescape (c : Char) : Option Char :=
  if c = '"' ∨ c = '\\' ∨ c = '/' then some c
  else if c = 'n' then some '\n'
  else if c = 'r' then some '\r'
  else if c = 't' then some '\t'
  else if c = 'f' then some '\x0c'
  else if c = 'b' then some '\x08'
  else none

/-- The code units up to the closing quote, and what follows it. -/
def readUnits : List Char → Option (List UInt16 × List Char)
  | [] => none
  | c :: rest =>
    if c = '"' then some ([], rest)
    else if c = '\\' then
      match rest with
      | [] => none
      | e :: rest =>
        if e = 'u' then
          match rest with
          | a :: b :: c :: d :: rest => do
            let u ← readHex4 a b c d
            let (us, rest) ← readUnits rest
            return (u :: us, rest)
          | _ => none
        else do
          let c ← unescape e
          let (us, rest) ← readUnits rest
          return (codeUnits c ++ us, rest)
    else if c.toNat < 32 then none
    else do
      let (us, rest) ← readUnits rest
      return (codeUnits c ++ us, rest)

/-- The characters of code units; a surrogate on its own is no character. -/
def utf16Chars : List UInt16 → Option (List Char)
  | [] => some []
  | u :: us =>
    if u.toNat < 0xD800 ∨ 0xDFFF < u.toNat then (utf16Chars us).map (Char.ofNat u.toNat :: ·)
    else
      match us with
      | [] => none
      | v :: us =>
        if u.toNat < 0xDC00 ∧ 0xDC00 ≤ v.toNat ∧ v.toNat ≤ 0xDFFF then
          (utf16Chars us).map (Char.ofNat (0x10000 + (u.toNat - 0xD800) * 0x400 + (v.toNat - 0xDC00)) :: ·)
        else none

/-- A string with its quotes, and what follows it. -/
def readString : List Char → Option (String × List Char)
  | '"' :: rest => do
    let (us, rest) ← readUnits rest
    let cs ← utf16Chars us
    return (String.ofList cs, rest)
  | _ => none

theorem readUnits_quote (t : List Char) : readUnits ('"' :: t) = some ([], t) := by
  rw [readUnits.eq_def]
  rfl

/-- A character that stands for itself. -/
theorem readUnits_plain {c : Char} (hq : c ≠ '"') (hb : c ≠ '\\') (hc : 32 ≤ c.toNat) (t : List Char) :
    readUnits (c :: t) = (readUnits t).map fun x => (codeUnits c ++ x.1, x.2) := by
  have hlt : ¬c.toNat < 32 := by omega
  rw [readUnits.eq_def]
  simp only [hq, hb, hlt, if_false]
  cases readUnits t <;> rfl

/-- An escape of one letter. -/
theorem readUnits_short {e c : Char} (hu : e ≠ 'u') (he : unescape e = some c) (t : List Char) :
    readUnits ('\\' :: e :: t) = (readUnits t).map fun x => (codeUnits c ++ x.1, x.2) := by
  rw [readUnits.eq_def]
  simp only [show '\\' ≠ '"' by decide, hu, he, if_false, if_true, Option.bind_eq_bind, Option.bind_some]
  cases readUnits t <;> rfl

theorem codeUnits_chars (c : Char) (us : List UInt16) :
    utf16Chars (codeUnits c ++ us) = (utf16Chars us).map (c :: ·) := by
  have hvalid : c.toNat < 0xD800 ∨ 0xDFFF < c.toNat ∧ c.toNat < 0x110000 := c.valid
  have hc : Char.ofNat c.toNat = c := Char.ofNat_toNat c
  unfold codeUnits
  split
  · next hsmall =>
    have hu : (UInt16.ofNat c.toNat).toNat = c.toNat := by
      rw [UInt16.toNat_ofNat']
      omega
    rw [List.singleton_append, utf16Chars.eq_def]
    simp only [hu, hc]
    rw [if_pos (by omega)]
  · next hlarge =>
    set high := UInt16.ofNat (0xD800 + (c.toNat - 0x10000) / 0x400) with hhigh
    set low := UInt16.ofNat (0xDC00 + (c.toNat - 0x10000) % 0x400) with hlow
    have hh : high.toNat = 0xD800 + (c.toNat - 0x10000) / 0x400 := by
      rw [hhigh, UInt16.toNat_ofNat']
      omega
    have hl : low.toNat = 0xDC00 + (c.toNat - 0x10000) % 0x400 := by
      rw [hlow, UInt16.toNat_ofNat']
      omega
    have hvalue : 0x10000 + (high.toNat - 0xD800) * 0x400 + (low.toNat - 0xDC00) = c.toNat := by
      rw [hh, hl]
      omega
    rw [List.cons_append, List.singleton_append, utf16Chars.eq_def]
    simp only [hvalue, hc]
    rw [if_neg (by omega), if_pos (by omega)]

theorem utf16_chars (cs : List Char) : utf16Chars (utf16 cs) = some cs := by
  induction cs with
  | nil => rfl
  | cons c cs ih =>
    have hcons : utf16 (c :: cs) = codeUnits c ++ utf16 cs := rfl
    rw [hcons, codeUnits_chars, ih, Option.map_some]

theorem hexValue_digitChar {n : ℕ} (h : n < 16) : hexValue (Nat.digitChar n) = some n := by
  interval_cases n <;> decide

theorem readHex4_hex4 (u : UInt16) : readHex4 (Nat.digitChar (u.toNat / 4096)) (Nat.digitChar (u.toNat / 256 % 16))
    (Nat.digitChar (u.toNat / 16 % 16)) (Nat.digitChar (u.toNat % 16)) = some u := by
  have hu := u.toNat_lt
  have hvalue : 4096 * (u.toNat / 4096) + 256 * (u.toNat / 256 % 16) + 16 * (u.toNat / 16 % 16) +
      u.toNat % 16 = u.toNat := by
    omega
  simp only [readHex4, hexValue_digitChar (show u.toNat / 4096 < 16 by omega),
    hexValue_digitChar (show u.toNat / 256 % 16 < 16 by omega),
    hexValue_digitChar (show u.toNat / 16 % 16 < 16 by omega),
    hexValue_digitChar (show u.toNat % 16 < 16 by omega), Option.bind_eq_bind, Option.bind_some,
    Option.pure_def, hvalue, UInt16.ofNat_toNat]

theorem readUnits_hex (us : List UInt16) (t : List Char) :
    readUnits (us.flatMap (fun u => '\\' :: 'u' :: hex4 u) ++ t) = (readUnits t).map fun x => (us ++ x.1, x.2) := by
  induction us with
  | nil => simp
  | cons u us ih =>
    rw [List.flatMap_cons, hex4]
    simp only [List.cons_append, List.nil_append]
    rw [readUnits.eq_def]
    simp only [readHex4_hex4, ih, show '\\' ≠ '"' by decide, if_false, if_true,
      Option.bind_eq_bind, Option.bind_some]
    cases readUnits t <;> rfl

/-- An escaped character is read as its code units. -/
theorem readUnits_escape (c : Char) (t : List Char) :
    readUnits (escape c ++ t) = (readUnits t).map fun x => (codeUnits c ++ x.1, x.2) := by
  unfold escape
  split_ifs with hquote hback hn hr ht hf hb hplain
  · exact readUnits_short (by decide) (by rw [hquote]; decide) t
  · exact readUnits_short (by decide) (by rw [hback]; decide) t
  · exact readUnits_short (by decide) (by rw [hn]; decide) t
  · exact readUnits_short (by decide) (by rw [hr]; decide) t
  · exact readUnits_short (by decide) (by rw [ht]; decide) t
  · exact readUnits_short (by decide) (by rw [hf]; decide) t
  · exact readUnits_short (by decide) (by rw [hb]; decide) t
  · exact readUnits_plain hquote hback hplain.1 t
  · exact readUnits_hex (codeUnits c) t

theorem readString_dump (s : String) (t : List Char) : readString (dumpString s ++ t) = some (s, t) := by
  have hunits (cs : List Char) : readUnits (cs.flatMap escape ++ '"' :: t) = some (utf16 cs, t) := by
    induction cs with
    | nil => exact readUnits_quote t
    | cons c cs ih =>
      rw [List.flatMap_cons, List.append_assoc, readUnits_escape, ih]
      rfl
  rw [dumpString, List.cons_append, List.append_assoc, List.singleton_append, readString, hunits]
  simp [utf16_chars, String.ofList_toList]

end Strings

section Objects

def dumpScalar : JsonScalar → List Char
  | .null => "null".toList
  | .bool true => "true".toList
  | .bool false => "false".toList
  | .int n => (if n < 0 then ['-'] else []) ++ Nat.toDigits 10 n.natAbs
  | .str s => dumpString s

def dumpMember (m : String × JsonScalar) : List Char := dumpString m.1 ++ ':' :: ' ' :: dumpScalar m.2

def dumpMembers : JsonObject → List Char
  | [] => []
  | [m] => dumpMember m
  | m :: ms => dumpMember m ++ ',' :: ' ' :: dumpMembers ms

/-- The text of an object on one line. -/
def dumps (o : JsonObject) : String := String.ofList ('\x7b' :: (dumpMembers o ++ ['\x7d']))

/-- White space between tokens is skipped. -/
def skipSpace (l : List Char) : List Char := l.dropWhile fun c => c = ' ' || c = '\t' || c = '\n' || c = '\r'

/-- What follows a word, if the text begins with it. -/
def word (w : String) (l : List Char) : Option (List Char) :=
  if w.toList.isPrefixOf l then some (l.drop w.length) else none

/-- A number without fraction and exponent, and what follows it. -/
def readInt (l : List Char) : Option (ℤ × List Char) :=
  let (neg, l) := match l with
    | '-' :: l => (true, l)
    | l => (false, l)
  let ds := l.takeWhile Char.isDigit
  if ds = [] ∨ ds.head? = some '0' ∧ 1 < ds.length then none
  else some (if neg then -(Nat.ofDigitChars 10 ds 0 : ℤ) else Nat.ofDigitChars 10 ds 0, l.dropWhile Char.isDigit)

def readScalar (l : List Char) : Option (JsonScalar × List Char) :=
  match l.head? with
  | some '"' => (readString l).map fun x => (.str x.1, x.2)
  | some 'n' => (word "null" l).map fun rest => (.null, rest)
  | some 't' => (word "true" l).map fun rest => (.bool true, rest)
  | some 'f' => (word "false" l).map fun rest => (.bool false, rest)
  | _ => (readInt l).map fun x => (.int x.1, x.2)

/-- A member with its name, and what follows it. -/
def readMember (l : List Char) : Option ((String × JsonScalar) × List Char) := do
  let (name, rest) ← readString (skipSpace l)
  let rest ← word ":" (skipSpace rest)
  let (value, rest) ← readScalar (skipSpace rest)
  return ((name, value), skipSpace rest)

/-- The members up to the closing brace, and what follows it. -/
def readMembers : ℕ → List Char → Option (JsonObject × List Char)
  | 0, _ => none
  | fuel + 1, l => do
    let (m, rest) ← readMember l
    match rest with
    | '\x7d' :: rest => return ([m], rest)
    | ',' :: rest => do
      let (ms, rest) ← readMembers fuel rest
      return (m :: ms, rest)
    | _ => none

/-- An object that is the whole text. Its values are not nested and its numbers are whole. -/
def loads (text : String) : Option JsonObject := do
  let rest ← word "\x7b" (skipSpace text.toList)
  let (o, rest) ← match word "\x7d" (skipSpace rest) with
    | some rest => some ([], rest)
    | none => readMembers rest.length rest
  if skipSpace rest = [] then some o else none

example : loads " \x7b \"id\" : \"\\u00e9\\ud83d\\ude00\", \"n\":-12\x7d" =
    some [("id", .str "é😀"), ("n", .int (-12))] := by
  decide +kernel

theorem head_toDigits {n : ℕ} (h : 0 < n) : (Nat.toDigits 10 n).head? ≠ some '0' := by
  induction n using Nat.strong_induction_on with
  | h n ih =>
    rw [Nat.toDigits_eq_if (by decide)]
    split
    · next hlt =>
      interval_cases n <;> decide
    · next hge =>
      rw [List.head?_append_of_ne_nil _ Nat.toDigits_ne_nil]
      exact ih (n / 10) (by omega) (by omega)

theorem takeWhile_digits {ds t : List Char} (hds : ∀ c ∈ ds, c.isDigit = true)
    (ht : ∀ c ∈ t.head?, c.isDigit = false) :
    (ds ++ t).takeWhile Char.isDigit = ds ∧ (ds ++ t).dropWhile Char.isDigit = t := by
  cases t with
  | nil =>
    rw [List.append_nil, List.takeWhile_eq_self_iff, List.dropWhile_eq_nil_iff]
    exact ⟨hds, hds⟩
  | cons c t =>
    have hc : c.isDigit = false := ht c rfl
    rw [List.takeWhile_append_of_pos hds, List.dropWhile_append_of_pos hds]
    simp [hc]

theorem readInt_dump (n : ℤ) {t : List Char} (ht : ∀ c ∈ t.head?, c.isDigit = false) :
    readInt (dumpScalar (.int n) ++ t) = some (n, t) := by
  set ds := Nat.toDigits 10 n.natAbs with hdigits
  have hds : ∀ c ∈ ds, c.isDigit = true := fun c hc => Nat.isDigit_of_mem_toDigits (by decide) (by decide) hc
  obtain ⟨htake, hdrop⟩ := takeWhile_digits hds ht
  have hvalue : Nat.ofDigitChars 10 ds 0 = n.natAbs := Nat.ofDigitChars_ten_toDigits
  have hne : ds ≠ [] := Nat.toDigits_ne_nil
  have hzero : ¬(ds = [] ∨ ds.head? = some '0' ∧ 1 < ds.length) := by
    rintro (hnil | ⟨hhead, hlong⟩)
    · exact hne hnil
    · rcases Nat.eq_zero_or_pos n.natAbs with h0 | hpos
      · rw [hdigits, h0] at hlong
        revert hlong
        decide
      · exact head_toDigits hpos hhead
  by_cases hneg : n < 0
  · have hlist : dumpScalar (.int n) ++ t = '-' :: (ds ++ t) := by
      rw [dumpScalar, if_pos hneg]
      rfl
    rw [hlist, readInt]
    simp only [htake, hdrop, hvalue, hzero, if_false, if_true]
    congr 2
    omega
  · have hlist : dumpScalar (.int n) ++ t = ds ++ t := by
      rw [dumpScalar, if_neg hneg, List.nil_append]
    obtain ⟨d, l, hcons⟩ := List.exists_cons_of_ne_nil hne
    have hminus : d ≠ '-' := by
      rintro rfl
      have hdigit := hds '-' (by rw [hcons]; exact List.mem_cons_self)
      revert hdigit
      decide
    rw [hlist, readInt]
    · simp only [htake, hdrop, hvalue, hzero, if_false, Bool.false_eq_true]
      congr 2
      omega
    · intro l' hl
      rw [hcons] at hl
      exact hminus (List.cons.inj hl).1

/-- A number begins with its sign or a digit. -/
theorem dump_int (n : ℤ) : ∃ d l, dumpScalar (.int n) = d :: l ∧ (d = '-' ∨ d.isDigit = true) := by
  by_cases hneg : n < 0
  · exact ⟨'-', _, by rw [dumpScalar, if_pos hneg]; rfl, .inl rfl⟩
  · obtain ⟨d, l, hcons⟩ := List.exists_cons_of_ne_nil (Nat.toDigits_ne_nil : Nat.toDigits 10 n.natAbs ≠ [])
    have hmem : d ∈ Nat.toDigits 10 n.natAbs := by
      rw [hcons]
      exact List.mem_cons_self
    refine ⟨d, l, by rw [dumpScalar, if_neg hneg, hcons]; rfl, .inr ?_⟩
    exact Nat.isDigit_of_mem_toDigits (by decide) (by decide) hmem

theorem readScalar_dump (v : JsonScalar) {t : List Char} (ht : ∀ c ∈ t.head?, c.isDigit = false) :
    readScalar (dumpScalar v ++ t) = some (v, t) := by
  cases v with
  | null => rfl
  | bool b => cases b <;> rfl
  | str s =>
    have hread := readString_dump s t
    have hhead : (dumpScalar (.str s) ++ t).head? = some '"' := rfl
    rw [readScalar, hhead]
    simp only [dumpScalar, hread, Option.map_some]
  | int n =>
    have hread := readInt_dump n ht
    obtain ⟨d, l, hcons, hd⟩ := dump_int n
    have hplain : d ≠ '"' ∧ d ≠ 'n' ∧ d ≠ 't' ∧ d ≠ 'f' := by
      refine ⟨?_, ?_, ?_, ?_⟩ <;>
      · rintro rfl
        revert hd
        decide
    rw [hcons, List.cons_append] at hread ⊢
    rw [readScalar, List.head?_cons]
    simp [hplain, hread]

/-- No value begins with white space. -/
theorem skipSpace_scalar (v : JsonScalar) (t : List Char) : skipSpace (dumpScalar v ++ t) = dumpScalar v ++ t := by
  cases v with
  | null => rfl
  | bool b => cases b <;> rfl
  | str s => rfl
  | int n =>
    obtain ⟨d, l, hcons, hd⟩ := dump_int n
    rw [hcons, skipSpace, List.cons_append, List.dropWhile_cons_of_neg]
    simp only [Bool.or_eq_true, decide_eq_true_eq]
    rintro (((rfl | rfl) | rfl) | rfl) <;> revert hd <;> decide

theorem readMember_dump (m : String × JsonScalar) {t : List Char} (ht : ∀ c ∈ t.head?, c.isDigit = false) :
    readMember (dumpMember m ++ t) = some (m, skipSpace t) := by
  obtain ⟨name, value⟩ := m
  have hname :
      skipSpace (dumpMember (name, value) ++ t) = dumpString name ++ (':' :: ' ' :: (dumpScalar value ++ t)) := by
    rw [dumpMember, List.append_assoc]
    rfl
  have hcolon (l : List Char) : word ":" (skipSpace (':' :: l)) = some l := rfl
  have hspace (l : List Char) : skipSpace (' ' :: l) = skipSpace l := rfl
  simp only [readMember, hname, readString_dump, hcolon, hspace, skipSpace_scalar, readScalar_dump value ht,
    Option.bind_eq_bind, Option.bind_some, Option.pure_def]

theorem readMembers_dump {o : JsonObject} (ho : o ≠ []) {fuel : ℕ} (hf : o.length ≤ fuel) (t : List Char) :
    readMembers fuel (dumpMembers o ++ '\x7d' :: t) = some (o, t) := by
  induction o generalizing fuel with
  | nil => exact absurd rfl ho
  | cons m ms ih =>
    obtain ⟨fuel, rfl⟩ : ∃ n, fuel = n + 1 := Nat.exists_eq_add_one_of_ne_zero (by rintro rfl; simp at hf)
    cases ms with
    | nil =>
      have hclose : ∀ c ∈ ('\x7d' :: t).head?, c.isDigit = false := by simp
      rw [dumpMembers, readMembers, readMember_dump m hclose]
      rfl
    | cons m' ms =>
      have hrest : readMembers fuel (dumpMembers (m' :: ms) ++ '\x7d' :: t) = some (m' :: ms, t) := by
        apply ih (by simp)
        simpa using hf
      have hspace (l : List Char) : readMembers fuel (' ' :: l) = readMembers fuel l := by
        cases fuel <;> rfl
      have hcomma (l : List Char) : ∀ c ∈ (',' :: l).head?, c.isDigit = false := by simp
      have hlist : dumpMembers (m :: m' :: ms) ++ '\x7d' :: t =
          dumpMember m ++ ',' :: ' ' :: (dumpMembers (m' :: ms) ++ '\x7d' :: t) := by
        rw [dumpMembers, List.append_assoc]
        · rfl
        · simp
      rw [hlist, readMembers, readMember_dump m (hcomma _)]
      have hskip (l : List Char) : skipSpace (',' :: l) = ',' :: l := rfl
      simp only [hskip, hspace, hrest, Option.bind_eq_bind, Option.bind_some, Option.pure_def]

theorem length_dumpMembers (o : JsonObject) : o.length ≤ (dumpMembers o).length := by
  have hmember (m : String × JsonScalar) : 0 < (dumpMember m).length := by simp [dumpMember]
  induction o with
  | nil => exact le_refl _
  | cons m ms ih =>
    cases ms with
    | nil => exact hmember m
    | cons m' ms =>
      have hpos := hmember m
      rw [dumpMembers, List.length_append]
      · simp only [List.length_cons] at ih ⊢
        omega
      · simp

/-- Every object reads back as it was written. -/
theorem loads_dumps (o : JsonObject) : loads (dumps o) = some o := by
  have hopen (l : List Char) : word "\x7b" (skipSpace ('\x7b' :: l)) = some l := rfl
  rw [loads, dumps, String.toList_ofList, hopen]
  cases o with
  | nil => rfl
  | cons m ms =>
    have hfirst : word "\x7d" (skipSpace (dumpMembers (m :: ms) ++ ['\x7d'])) = none := by
      cases ms <;> rfl
    have hread : readMembers (dumpMembers (m :: ms) ++ ['\x7d']).length (dumpMembers (m :: ms) ++ ['\x7d']) =
        some (m :: ms, []) := by
      apply readMembers_dump (List.cons_ne_nil m ms)
      exact (length_dumpMembers _).trans (by simp)
    simp only [Option.bind_eq_bind, Option.bind_some, hfirst, hread]
    rfl

theorem dumps_injective : Function.Injective dumps := by
  intro o o' h
  have hread := loads_dumps o
  rw [h, loads_dumps] at hread
  exact (Option.some.inj hread).symm

theorem digitChar_ascii {n : ℕ} (h : n < 16) : (Nat.digitChar n).toNat < 128 := by
  interval_cases n <;> decide

theorem escape_ascii (c : Char) : ∀ d ∈ escape c, d.toNat < 128 := by
  intro d hd
  unfold escape at hd
  have short {e : Char} (he : e.toNat < 128) (hd : d ∈ ['\\', e]) : d.toNat < 128 := by
    simp only [List.mem_cons, List.not_mem_nil, or_false] at hd
    rcases hd with rfl | rfl
    · decide
    · exact he
  split_ifs at hd with _ _ _ _ _ _ _ hplain
  iterate 7 exact short (by decide) hd
  · rw [List.mem_singleton.mp hd]
    omega
  · obtain ⟨u, -, hu⟩ := List.mem_flatMap.mp hd
    have hlt := u.toNat_lt
    simp only [hex4, List.mem_cons, List.not_mem_nil, or_false] at hu
    rcases hu with rfl | rfl | rfl | rfl | rfl | rfl
    · decide
    · decide
    all_goals
      apply digitChar_ascii
      omega

theorem dumpString_ascii (s : String) : ∀ d ∈ dumpString s, d.toNat < 128 := by
  intro d hd
  simp only [dumpString, List.mem_cons, List.mem_append, List.mem_flatMap, List.not_mem_nil, or_false] at hd
  rcases hd with rfl | ⟨c, -, hc⟩ | rfl
  · decide
  · exact escape_ascii c d hc
  · decide

theorem dumpScalar_ascii (v : JsonScalar) : ∀ d ∈ dumpScalar v, d.toNat < 128 := by
  cases v with
  | null => decide
  | bool b => cases b <;> decide
  | str s => exact dumpString_ascii s
  | int n =>
    intro d hd
    rw [dumpScalar] at hd
    rcases List.mem_append.mp hd with hd | hd
    · split at hd
      · rw [List.mem_singleton.mp hd]
        decide
      · cases hd
    · exact (Decimal.plain_toDigits _ d hd).1

/-- The text is ASCII, whatever characters its strings have. -/
theorem dumps_ascii (o : JsonObject) : ∀ d ∈ (dumps o).toList, d.toNat < 128 := by
  have hmember (m : String × JsonScalar) : ∀ d ∈ dumpMember m, d.toNat < 128 := by
    intro d hd
    simp only [dumpMember, List.mem_append, List.mem_cons] at hd
    rcases hd with hd | rfl | rfl | hd
    · exact dumpString_ascii _ d hd
    · decide
    · decide
    · exact dumpScalar_ascii _ d hd
  have hmembers : ∀ d ∈ dumpMembers o, d.toNat < 128 := by
    induction o with
    | nil => nofun
    | cons m ms ih =>
      cases ms with
      | nil => exact hmember m
      | cons m' ms =>
        intro d hd
        rw [dumpMembers] at hd
        · simp only [List.mem_append, List.mem_cons] at hd
          rcases hd with hd | rfl | rfl | hd
          · exact hmember m d hd
          · decide
          · decide
          · exact ih d hd
        · simp
  intro d hd
  simp only [dumps, String.toList_ofList, List.mem_cons, List.mem_append, List.not_mem_nil, or_false] at hd
  rcases hd with rfl | hd | rfl
  · decide
  · exact hmembers d hd
  · decide

/-- The members in the order of their names, as characters count. -/
def sortKeys (o : JsonObject) : JsonObject := o.insertionSort fun m m' => m.1 ≤ m'.1

theorem sortKeys_perm (o : JsonObject) : (sortKeys o).Perm o := List.perm_insertionSort _ o

/-- Sorted by name, two objects have the same text exactly if they have the same members. -/
theorem dumps_sorted_iff {o o' : JsonObject} (h : (o.map Prod.fst).Nodup) :
    dumps (sortKeys o) = dumps (sortKeys o') ↔ o.Perm o' := by
  constructor
  · intro heq
    have hsame := dumps_injective heq
    exact (sortKeys_perm o).symm.trans (hsame ▸ sortKeys_perm o')
  · intro hperm
    have htotal : Std.Total fun m m' : String × JsonScalar => m.1 ≤ m'.1 := ⟨fun m m' => le_total m.1 m'.1⟩
    have htrans : IsTrans (String × JsonScalar) fun m m' => m.1 ≤ m'.1 := ⟨fun _ _ _ => le_trans⟩
    have hsorted (x : JsonObject) : (sortKeys x).Pairwise fun m m' => m.1 ≤ m'.1 := List.pairwise_insertionSort _ x
    have hsame : sortKeys o = sortKeys o' := by
      apply List.Perm.eq_of_pairwise _ (hsorted o) (hsorted o')
      · exact (sortKeys_perm o).trans (hperm.trans (sortKeys_perm o').symm)
      · intro m m' hm hm' hle hle'
        have hmem : m ∈ o := (sortKeys_perm o).mem_iff.mp hm
        have hmem' : m' ∈ o := hperm.mem_iff.mpr ((sortKeys_perm o').mem_iff.mp hm')
        exact List.inj_on_of_nodup_map h hmem hmem' (le_antisymm hle hle')
    rw [hsame]

/-- Two objects with the same names in the same order have the same members only if they are equal. -/
theorem eq_of_perm {o o' : JsonObject} (h : (o.map Prod.fst).Nodup) (hnames : o.map Prod.fst = o'.map Prod.fst)
    (hperm : o.Perm o') : o = o' := by
  apply List.ext_getElem hperm.length_eq
  intro i hi hi'
  have hname : o[i].1 = o'[i].1 := by
    have hget := List.getElem_of_eq hnames (by simpa using hi)
    simpa using hget
  exact List.inj_on_of_nodup_map h (List.getElem_mem hi) (hperm.mem_iff.mpr (List.getElem_mem hi')) hname

end Objects

end Json
end PaymentLedger
