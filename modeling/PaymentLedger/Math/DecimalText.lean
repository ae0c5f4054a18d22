import PaymentLedger.Math.Decimal
import PaymentLedger.Text.Strings

namespace PaymentLedger

/-- The zeros of the runs of decimal digits in Unicode. -/
def digitZeros : List ℕ :=
  [48, 1632, 1776, 1984, 2406, 2534, 2662, 2790, 2918, 3046, 3174, 3302, 3430, 3558, 3664, 3792, 3872, 4160, 4240,
   6112, 6160, 6470, 6608, 6784, 6800, 6992, 7088, 7232, 7248, 42528, 43216, 43264, 43472, 43504, 43600, 44016,
   65296, 66720, 68912, 69734, 69872, 69942, 70096, 70384, 70736, 70864, 71248, 71360, 71472, 71904, 72016, 72784,
   73040, 73120, 73552, 92768, 92864, 93008, 120782, 120792, 120802, 120812, 120822, 123200, 123632, 124144,
   125264, 130032]

/-- A character as `Decimal` reads it: ASCII as it is, another decimal digit as the ASCII one. -/
def asciiChar (c : Char) : Option Char :=
  if c.toNat < 128 then some c
  else (digitZeros.find? fun z => decide (z ≤ c.toNat) && decide (c.toNat < z + 10)).map fun z =>
    Nat.digitChar (c.toNat - z)

namespace Decimal

/-- The exponents a decimal read from a string can have. -/
def maxEmax : ℤ := 999999999999999999

def minEtiny : ℤ := -1999999999999999997

def splitSign : List Char → Bool × List Char
  | '-' :: l => (true, l)
  | '+' :: l => (false, l)
  | l => (false, l)

def digits (l : List Char) : Option ℕ :=
  if l ≠ [] ∧ l.all Char.isDigit then some (Nat.ofDigitChars 10 l 0) else none

/-- The number after the letter `e`, if there is one. -/
def exponent : List Char → Option ℤ
  | [] => some 0
  | _ :: l => (digits (splitSign l).2).map fun n : ℕ => if (splitSign l).1 then -(n : ℤ) else n

/-- A coefficient with at most one point, then an exponent. -/
def numeral (l : List Char) : Option (ℕ × ℤ) := do
  let mantissa := l.takeWhile (· ≠ 'e')
  let whole := mantissa.takeWhile (· ≠ '.')
  let fraction := (mantissa.dropWhile (· ≠ '.')).drop 1
  let coeff ← digits (whole ++ fraction)
  let e ← exponent (l.dropWhile (· ≠ 'e'))
  return (coeff, e - fraction.length)

def number (neg : Bool) (l : List Char) : Option Decimal := do
  let (coeff, exp) ← numeral l
  if minEtiny ≤ exp ∧ exp + digitCount coeff - 1 ≤ maxEmax then some (.finite neg coeff exp) else none

/-- The lower-case ASCII text of a numeric string, without its sign. -/
def special (neg : Bool) (l : List Char) : Option Decimal :=
  if l = "inf".toList ∨ l = "infinity".toList then some (.infinity neg)
  else if "nan".toList.isPrefixOf l ∧ (l.drop 3).all Char.isDigit then some (.nan false)
  else if "snan".toList.isPrefixOf l ∧ (l.drop 4).all Char.isDigit then some (.nan true)
  else number neg l

/-- The lower-case ASCII text of a string and its sign. -/
def asciiText (s : String) : Option (Bool × List Char) := do
  let l ← ((stripList s.toList).filter (· ≠ '_')).mapM asciiChar
  let (neg, l) := splitSign l
  return (neg, l.map Char.toLower)

/-- `Decimal(s)`; there is no result where it raises `InvalidOperation`. -/
def ofString (s : String) : Option Decimal := do
  let (neg, l) ← asciiText s
  special neg l

/-- What it raises `InvalidOperation` with: a number has an exponent out of range. -/
def invalidOperation (s : String) : String :=
  if ((asciiText s).bind fun l => numeral l.2).isSome then "[<class 'decimal.InvalidOperation'>]"
  else "[<class 'decimal.ConversionSyntax'>]"

example : ofString " -1_0.50e+2 " = some (.finite true 1050 0) := by decide +kernel

theorem ofString_strip (s : String) : ofString (strip s) = ofString s := by
  rw [ofString, asciiText, strip, String.toList_ofList, stripList_stripList]
  rfl

section RoundTrip

/-- A character that reaches the grammar as it is. -/
def Plain (c : Char) : Prop := c.toNat < 128 ∧ isSpace c = false ∧ c ≠ '_' ∧ c.toLower = c

instance (c : Char) : Decidable (Plain c) := by unfold Plain; infer_instance

theorem plain_of_isDigit {c : Char} (h : c.isDigit = true) : Plain c := by
  have hrange : 48 ≤ c.toNat ∧ c.toNat ≤ 57 := by
    simp only [Char.isDigit, Bool.and_eq_true, decide_eq_true_eq] at h
    exact ⟨UInt32.le_iff_toNat_le.mp h.1, UInt32.le_iff_toNat_le.mp h.2⟩
  have hc : Char.ofNat c.toNat = c := Char.ofNat_toNat c
  generalize hn : c.toNat = n at hrange hc
  obtain ⟨hlow, hhigh⟩ := hrange
  rw [← hc]
  interval_cases n <;> decide

theorem stripList_of_plain {l : List Char} (h : ∀ c ∈ l, isSpace c = false) : stripList l = l := by
  have hdrop : l.dropWhile isSpace = l := by
    cases l with
    | nil => rfl
    | cons c l => simp [h c List.mem_cons_self]
  rw [stripList, hdrop, List.rdropWhile_eq_self_iff]
  intro hl
  rw [h _ (List.getLast_mem hl)]
  exact Bool.false_ne_true

theorem mapM_asciiChar {l : List Char} (h : ∀ c ∈ l, c.toNat < 128) : l.mapM asciiChar = some l := by
  induction l with
  | nil => rfl
  | cons c l ih =>
    have hc : asciiChar c = some c := by rw [asciiChar, if_pos (h c List.mem_cons_self)]
    rw [List.mapM_cons, hc, ih fun d hd => h d (List.mem_cons_of_mem c hd)]
    rfl

/-- The exponent as `number` reads it. -/
def expTail (x : ℤ) : List Char :=
  if x = 0 then [] else 'e' :: (if x < 0 then '-' else '+') :: Nat.toDigits 10 x.natAbs

theorem digits_toDigits (n : ℕ) : digits (Nat.toDigits 10 n) = some n := by
  have hne : Nat.toDigits 10 n ≠ [] := Nat.toDigits_ne_nil
  have hall : (Nat.toDigits 10 n).all Char.isDigit = true := by
    rw [List.all_eq_true]
    intro c hc
    exact Nat.isDigit_of_mem_toDigits (by decide) (by decide) hc
  rw [digits, if_pos ⟨hne, hall⟩, Nat.ofDigitChars_ten_toDigits]

theorem exponent_expTail (x : ℤ) : exponent (expTail x) = some x := by
  unfold expTail
  by_cases hx : x = 0
  · rw [if_pos hx, hx]
    rfl
  · rw [if_neg hx]
    by_cases hneg : x < 0
    · rw [if_pos hneg, exponent, splitSign, digits_toDigits, Option.map_some, if_pos rfl]
      congr 1
      omega
    · rw [if_neg hneg, exponent, splitSign, digits_toDigits, Option.map_some, if_neg Bool.false_ne_true]
      congr 1
      omega

/-- A fraction with its point. -/
def pointed (fraction : List Char) : List Char := if fraction = [] then [] else '.' :: fraction

theorem number_digits {whole fraction : List Char} (neg : Bool) {x : ℤ} (hw : ∀ c ∈ whole, c.isDigit = true)
    (hf : ∀ c ∈ fraction, c.isDigit = true) (hne : whole ++ fraction ≠ [])
    (hmin : minEtiny ≤ x - fraction.length)
    (hmax : x - fraction.length + digitCount (Nat.ofDigitChars 10 (whole ++ fraction) 0) - 1 ≤ maxEmax) :
    number neg (whole ++ pointed fraction ++ expTail x) =
      some (.finite neg (Nat.ofDigitChars 10 (whole ++ fraction) 0) (x - fraction.length)) := by
  have ndigit {c d : Char} (hc : c.isDigit = true) (hd : d.isDigit = false) : decide (c ≠ d) = true := by
    simp only [ne_eq, decide_eq_true_eq]
    rintro rfl
    rw [hc] at hd
    cases hd
  have hpoint : ∀ c ∈ whole ++ pointed fraction, decide (c ≠ 'e') = true := by
    intro c hc
    rcases List.mem_append.mp hc with hc | hc
    · exact ndigit (hw c hc) rfl
    · unfold pointed at hc
      split at hc
      · cases hc
      · rcases List.mem_cons.mp hc with rfl | hc
        · rfl
        · exact ndigit (hf c hc) rfl
  have htail : (expTail x).takeWhile (fun c => decide (c ≠ 'e')) = [] ∧
      (expTail x).dropWhile (fun c => decide (c ≠ 'e')) = expTail x := by
    unfold expTail
    split <;> simp
  have hmantissa : (whole ++ pointed fraction ++ expTail x).takeWhile (fun c => decide (c ≠ 'e')) =
      whole ++ pointed fraction := by
    rw [List.takeWhile_append_of_pos hpoint, htail.1, List.append_nil]
  have hrest : (whole ++ pointed fraction ++ expTail x).dropWhile (fun c => decide (c ≠ 'e')) = expTail x := by
    rw [List.dropWhile_append_of_pos hpoint, htail.2]
  have hwhole : ∀ c ∈ whole, decide (c ≠ '.') = true := fun c hc => ndigit (hw c hc) rfl
  have hsplit : (whole ++ pointed fraction).takeWhile (fun c => decide (c ≠ '.')) = whole ∧
      ((whole ++ pointed fraction).dropWhile (fun c => decide (c ≠ '.'))).drop 1 = fraction := by
    rw [List.takeWhile_append_of_pos hwhole, List.dropWhile_append_of_pos hwhole]
    unfold pointed
    split
    · next h => simp [h]
    · simp
  have hdigits : digits (whole ++ fraction) = some (Nat.ofDigitChars 10 (whole ++ fraction) 0) := by
    have hall : (whole ++ fraction).all Char.isDigit = true := by
      rw [List.all_append, Bool.and_eq_true, List.all_eq_true, List.all_eq_true]
      exact ⟨hw, hf⟩
    rw [digits, if_pos ⟨hne, hall⟩]
  have hnumeral : numeral (whole ++ pointed fraction ++ expTail x) =
      some (Nat.ofDigitChars 10 (whole ++ fraction) 0, x - fraction.length) := by
    simp only [numeral, hmantissa, hrest, hsplit.1, hsplit.2, hdigits, exponent_expTail, Option.bind_eq_bind,
      Option.bind_some]
    rfl
  simp only [number, hnumeral, Option.bind_eq_bind, Option.bind_some, if_pos (And.intro hmin hmax)]

/-- The exponent as `str` writes it. -/
def strTail (x : ℤ) : List Char :=
  if x = 0 then [] else 'E' :: (if x < 0 then '-' else '+') :: Nat.toDigits 10 x.natAbs

theorem map_toLower_of_plain {l : List Char} (h : ∀ c ∈ l, Plain c) : l.map Char.toLower = l := by
  rw [List.map_congr_left fun c hc => (h c hc).2.2.2, List.map_id']

theorem plain_toDigits (n : ℕ) : ∀ c ∈ Nat.toDigits 10 n, Plain c := by
  intro c hc
  exact plain_of_isDigit (Nat.isDigit_of_mem_toDigits (by decide) (by decide) hc)

theorem map_toLower_strTail (x : ℤ) : (strTail x).map Char.toLower = expTail x := by
  unfold strTail expTail
  by_cases hx : x = 0
  · rw [if_pos hx, if_pos hx]
    rfl
  · rw [if_neg hx, if_neg hx, List.map_cons, List.map_cons, map_toLower_of_plain (plain_toDigits _)]
    split <;> rfl

/-- What `str` writes: a sign, a coefficient around a point, and an exponent. -/
theorem str_finite (s : Bool) (c : ℕ) (e : ℤ) : ∃ whole fraction x,
    (∀ d ∈ whole, d.isDigit = true) ∧ (∀ d ∈ fraction, d.isDigit = true) ∧ whole ++ fraction ≠ [] ∧
    Nat.ofDigitChars 10 (whole ++ fraction) 0 = c ∧ x - (fraction.length : ℤ) = e ∧
    (str (.finite s c e)).toList =
      (if s then ['-'] else []) ++ (whole ++ pointed fraction ++ strTail x) := by
  have hdigit : ∀ d ∈ Nat.toDigits 10 c, d.isDigit = true :=
    fun d hd => Nat.isDigit_of_mem_toDigits (by decide) (by decide) hd
  have hpos : 0 < (Nat.toDigits 10 c).length := List.length_pos_iff.mpr Nat.toDigits_ne_nil
  obtain ⟨ds, hds⟩ : ∃ ds, ds = Nat.toDigits 10 c := ⟨_, rfl⟩
  obtain ⟨dot, hdot⟩ : ∃ dot, dot = if e ≤ 0 ∧ -6 < e + (ds.length : ℤ) then e + (ds.length : ℤ) else 1 := ⟨_, rfl⟩
  have hvalue : Nat.ofDigitChars 10 ds 0 = c := by rw [hds, Nat.ofDigitChars_ten_toDigits]
  rw [← hds] at hdigit hpos
  have htail : (if e + (ds.length : ℤ) = dot then "" else
      "E" ++ (if e + ds.length - dot < 0 then "-" else "+") ++ toString (e + ds.length - dot).natAbs).toList =
        strTail (e + ds.length - dot) := by
    unfold strTail
    by_cases hx : e + (ds.length : ℤ) = dot
    · have h0 : e + (ds.length : ℤ) - dot = 0 := by omega
      rw [if_pos hx, if_pos h0]
      rfl
    · have h0 : ¬e + (ds.length : ℤ) - dot = 0 := by omega
      rw [if_neg hx, if_neg h0]
      split <;> simp
  have hsign : (if s = true then "-" else "").toList = if s = true then ['-'] else [] := by
    cases s <;> rfl
  have hstr (whole fraction : List Char)
      (hbody : (if dot ≤ 0 then "0." ++ String.ofList (List.replicate (-dot).toNat '0' ++ ds)
        else if (ds.length : ℤ) ≤ dot then String.ofList (ds ++ List.replicate (dot - ds.length).toNat '0')
        else String.ofList (ds.take dot.toNat) ++ "." ++ String.ofList (ds.drop dot.toNat)).toList =
          whole ++ pointed fraction) :
      (str (.finite s c e)).toList =
        (if s then ['-'] else []) ++ (whole ++ pointed fraction ++ strTail (e + ds.length - dot)) := by
    simp only [str, ← hds, ← hdot, String.toList_append, hsign, hbody, htail, List.append_assoc]
  by_cases hle : dot ≤ 0
  · have hplain : dot = e + ds.length := by
      split at hdot <;> omega
    refine ⟨['0'], List.replicate (-dot).toNat '0' ++ ds, _, by simp, ?_, by simp, ?_, ?_, hstr _ _ ?_⟩
    · intro d hd
      rcases List.mem_append.mp hd with hd | hd
      · rw [List.eq_of_mem_replicate hd]
        rfl
      · exact hdigit d hd
    · simp [Nat.ofDigitChars_append, Nat.ofDigitChars_cons, hvalue]
    · rw [List.length_append, List.length_replicate]
      omega
    · have hne : List.replicate (-dot).toNat '0' ++ ds ≠ [] := by
        intro h
        simp only [List.append_eq_nil_iff] at h
        simp [h.2] at hpos
      rw [if_pos hle, pointed, if_neg hne]
      simp
  · by_cases hlong : (ds.length : ℤ) ≤ dot
    · have hend : dot = ds.length := by
        split at hdot <;> omega
      refine ⟨ds, [], _, hdigit, by simp, ?_, by simpa using hvalue, by simp [hend], hstr _ _ ?_⟩
      · intro h
        simp only [List.append_nil] at h
        simp [h] at hpos
      · rw [if_neg hle, if_pos hlong, hend]
        simp [pointed]
    · refine ⟨ds.take dot.toNat, ds.drop dot.toNat, _, ?_, ?_, ?_, ?_, ?_, hstr _ _ ?_⟩
      · exact fun d hd => hdigit d (List.mem_of_mem_take hd)
      · exact fun d hd => hdigit d (List.mem_of_mem_drop hd)
      · rw [List.take_append_drop]
        intro h
        simp [h] at hpos
      · rw [List.take_append_drop, hvalue]
      · rw [List.length_drop]
        omega
      · have hne : ds.drop dot.toNat ≠ [] := by
          intro h
          have := List.drop_eq_nil_iff.mp h
          omega
        rw [if_neg hle, if_neg hlong, pointed, if_neg hne]
        simp

theorem plain_pointed {fraction : List Char} (h : ∀ c ∈ fraction, c.isDigit = true) :
    ∀ c ∈ pointed fraction, Plain c := by
  intro c hc
  unfold pointed at hc
  split at hc
  · cases hc
  · rcases List.mem_cons.mp hc with rfl | hc
    · decide
    · exact plain_of_isDigit (h c hc)

theorem strTail_ascii (x : ℤ) : ∀ c ∈ strTail x, c.toNat < 128 ∧ isSpace c = false ∧ c ≠ '_' := by
  intro c hc
  unfold strTail at hc
  split at hc
  · cases hc
  · rcases List.mem_cons.mp hc with rfl | hc
    · decide
    · rcases List.mem_cons.mp hc with rfl | hc
      · split <;> decide
      · obtain ⟨hascii, hspace, hline, -⟩ := plain_toDigits _ c hc
        exact ⟨hascii, hspace, hline⟩

theorem special_number {neg : Bool} {d : Char} {l : List Char} (hd : d.isDigit = true ∨ d = '.') :
    special neg (d :: l) = number neg (d :: l) := by
  have hi : d ≠ 'i' := by rintro rfl; simp at hd
  have hn : d ≠ 'n' := by rintro rfl; simp at hd
  have hs : d ≠ 's' := by rintro rfl; simp at hd
  simp [special, List.isPrefixOf, hi, Ne.symm hn, Ne.symm hs]

/-- A decimal written by `str` reads back as it was. -/
theorem ofString_str (s : Bool) {c : ℕ} {e : ℤ} (hmin : minEtiny ≤ e) (hmax : e + digitCount c - 1 ≤ maxEmax) :
    ofString (str (.finite s c e)) = some (.finite s c e) := by
  obtain ⟨whole, fraction, x, hw, hf, hne, hc, hx, hstr⟩ := str_finite s c e
  have hplain : ∀ d ∈ whole ++ pointed fraction, Plain d := by
    intro d hd
    rcases List.mem_append.mp hd with hd | hd
    · exact plain_of_isDigit (hw d hd)
    · exact plain_pointed hf d hd
  have hascii : ∀ d ∈ (str (.finite s c e)).toList, d.toNat < 128 ∧ isSpace d = false ∧ d ≠ '_' := by
    intro d hd
    rw [hstr] at hd
    rcases List.mem_append.mp hd with hd | hd
    · cases s
      · cases hd
      · rw [List.mem_singleton.mp hd]
        decide
    · rcases List.mem_append.mp hd with hd | hd
      · obtain ⟨hascii, hspace, hline, -⟩ := hplain d hd
        exact ⟨hascii, hspace, hline⟩
      · exact strTail_ascii x d hd
  have hread : ((stripList (str (.finite s c e)).toList).filter (· ≠ '_')).mapM asciiChar =
      some (str (.finite s c e)).toList := by
    rw [stripList_of_plain fun d hd => (hascii d hd).2.1, List.filter_eq_self.mpr, mapM_asciiChar]
    · exact fun d hd => (hascii d hd).1
    · intro d hd
      simpa using (hascii d hd).2.2
  have hfirst : ∃ d l, whole ++ pointed fraction ++ strTail x = d :: l ∧ (d.isDigit = true ∨ d = '.') := by
    cases whole with
    | cons d w => exact ⟨d, _, rfl, .inl (hw d List.mem_cons_self)⟩
    | nil =>
      have hf' : fraction ≠ [] := by simpa using hne
      exact ⟨'.', _, by rw [pointed, if_neg hf']; rfl, .inr rfl⟩
  obtain ⟨d, l, hcons, hd⟩ := hfirst
  have hsign : splitSign (str (.finite s c e)).toList = (s, d :: l) := by
    rw [hstr, hcons]
    cases s with
    | true => rfl
    | false =>
      have hminus : d ≠ '-' := by rintro rfl; simp at hd
      have hplus : d ≠ '+' := by rintro rfl; simp at hd
      simp [splitSign, hminus, hplus]
  have hlower : (d :: l).map Char.toLower = whole ++ pointed fraction ++ expTail x := by
    rw [← hcons, List.map_append, map_toLower_of_plain hplain, map_toLower_strTail]
  have hhead : whole ++ pointed fraction ++ expTail x = d :: l.map Char.toLower := by
    rw [← hlower, List.map_cons]
    have hlow : d.toLower = d := by
      rcases hd with hd | rfl
      · exact (plain_of_isDigit hd).2.2.2
      · decide
    rw [hlow]
  have hnumber : number s (whole ++ pointed fraction ++ expTail x) = some (.finite s c e) := by
    rw [number_digits s hw hf hne (by rw [hx]; exact hmin) (by rw [hx, hc]; exact hmax), hc, hx]
  have htext : asciiText (finite s c e).str = some (s, whole ++ pointed fraction ++ expTail x) := by
    simp only [asciiText, hread, hsign, Option.bind_eq_bind, Option.bind_some, hlower]
    rfl
  rw [ofString, htext, Option.bind_eq_bind, Option.bind_some]
  dsimp only
  rw [hhead, special_number hd, ← hhead, hnumber]

/-- The case of an amount of a column, which has at most eighteen digits. -/
theorem ofString_cents {n : ℕ} (hn : n < 10 ^ 18) :
    ofString (str (.finite false n (-2))) = some (.finite false n (-2)) := by
  have hdigits : digitCount n ≤ 18 := (digitCount_le_iff n 18 (by decide)).mpr hn
  apply ofString_str
  · decide
  · rw [maxEmax]
    omega

end RoundTrip

end Decimal
end PaymentLedger
