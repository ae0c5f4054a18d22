import PaymentLedger.Qr.Sgqr

namespace PaymentLedger

section Hexadecimal

theorem hexDigit_inj : ∀ m n : Fin 16, hexDigit m = hexDigit n → m = n := by decide

theorem hexDigit_inj_lt {m n : ℕ} (hm : m < 16) (hn : n < 16) (h : hexDigit m = hexDigit n) : m = n :=
  congrArg Fin.val (hexDigit_inj ⟨m, hm⟩ ⟨n, hn⟩ h)

theorem hexDigit_ascii {n : ℕ} (h : n < 16) : (hexDigit n).toNat < 128 := by
  have hall : ∀ m : Fin 16, (hexDigit m).toNat < 128 := by decide
  exact hall ⟨n, h⟩

theorem hex4_length (c : BitVec 16) : (hex4 c).length = 4 := rfl

theorem hex4_ascii (c : BitVec 16) : ∀ d ∈ hex4 c, d.toNat < 128 := by
  have hlt := c.isLt
  intro d hd
  simp only [hex4, List.mem_cons, List.not_mem_nil, or_false] at hd
  rcases hd with rfl | rfl | rfl | rfl <;> apply hexDigit_ascii <;> omega

theorem hex4_inj {c d : BitVec 16} (h : hex4 c = hex4 d) : c = d := by
  have hc := c.isLt
  have hd := d.isLt
  simp only [hex4, List.cons.injEq, and_true] at h
  obtain ⟨h₃, h₂, h₁, h₀⟩ := h
  have e₃ := hexDigit_inj_lt (by omega) (by omega) h₃
  have e₂ := hexDigit_inj_lt (by omega) (by omega) h₂
  have e₁ := hexDigit_inj_lt (by omega) (by omega) h₁
  have e₀ := hexDigit_inj_lt (by omega) (by omega) h₀
  apply BitVec.eq_of_toNat_eq
  omega

end Hexadecimal

section Register

/-- A character as it enters the register. -/
def crcWord (c : Char) : BitVec 16 := BitVec.ofNat 16 c.toNat <<< 8

theorem crc16_eq (l : List Char) : crc16 l = Crc.remainder 0x1021#16 8 0xFFFF#16 (l.map crcWord) := rfl

theorem crcWord_xor (a b : Char) : crcWord a ^^^ crcWord b = BitVec.ofNat 16 (a.toNat ^^^ b.toNat) <<< 8 := by
  rw [crcWord, crcWord, ← BitVec.shiftLeft_xor_distrib, BitVec.ofNat_xor]

/-- The difference of two ASCII characters is one of the 127 others than zero. -/
theorem ascii_difference {a b : Char} (ha : a.toNat < 128) (hb : b.toNat < 128) (hne : a ≠ b) :
    ∃ x : Fin 128, x ≠ 0 ∧ crcWord a ^^^ crcWord b = BitVec.ofNat 16 x <<< 8 := by
  have hlt : a.toNat ^^^ b.toNat < 2 ^ 7 := Nat.xor_lt_two_pow ha hb
  refine ⟨⟨a.toNat ^^^ b.toNat, hlt⟩, ?_, crcWord_xor a b⟩
  intro h0
  have hsame : a.toNat ^^^ b.toNat = 0 := congrArg Fin.val h0
  have hcancel : a.toNat ^^^ b.toNat ^^^ b.toNat = a.toNat := by
    rw [Nat.xor_assoc, Nat.xor_self, Nat.xor_zero]
  rw [hsame, Nat.zero_xor] at hcancel
  exact hne (Char.toNat_inj.mp hcancel.symm)

theorem crcWord_ne {a b : Char} (ha : a.toNat < 128) (hb : b.toNat < 128) (hne : a ≠ b) :
    crcWord a ≠ crcWord b := by
  obtain ⟨x, hx, hword⟩ := ascii_difference ha hb hne
  have hall : ∀ x : Fin 128, x ≠ 0 → BitVec.ofNat 16 x <<< 8 ≠ 0 := by decide +kernel
  intro hsame
  rw [hsame, BitVec.xor_self] at hword
  exact hall x hx hword.symm

/-- No byte comes back from eight shifts as it was. -/
theorem shifts_moved {a b : Char} (ha : a.toNat < 128) (hb : b.toNat < 128) (hne : a ≠ b) :
    Crc.shifts 0x1021#16 8 (crcWord a ^^^ crcWord b) ≠ crcWord a ^^^ crcWord b := by
  obtain ⟨x, hx, hword⟩ := ascii_difference ha hb hne
  have hall : ∀ x : Fin 128, x ≠ 0 →
      Crc.shifts 0x1021#16 8 (BitVec.ofNat 16 x <<< 8) ≠ BitVec.ofNat 16 x <<< 8 := by decide +kernel
  rw [hword]
  exact hall x hx

variable {u v : List Char} {a b : Char}

theorem crc16_replaced (ha : a.toNat < 128) (hb : b.toNat < 128) (hne : a ≠ b) :
    crc16 (u ++ a :: v) ≠ crc16 (u ++ b :: v) := by
  rw [crc16_eq, crc16_eq, List.map_append, List.map_append, List.map_cons, List.map_cons, ne_eq,
    Crc.remainder_replaced (by decide)]
  exact crcWord_ne ha hb hne

theorem crc16_swapped (ha : a.toNat < 128) (hb : b.toNat < 128) (hne : a ≠ b) :
    crc16 (u ++ a :: b :: v) ≠ crc16 (u ++ b :: a :: v) := by
  rw [crc16_eq, crc16_eq, List.map_append, List.map_append, List.map_cons, List.map_cons,
    List.map_cons, List.map_cons, ne_eq, Crc.remainder_swapped (by decide)]
  exact shifts_moved ha hb hne

/-- The last character of the text changed, the register changes by the shifts of the difference. -/
theorem crc16_last (u : List Char) (a b : Char) :
    crc16 (u ++ [a]) ^^^ crc16 (u ++ [b]) = Crc.shifts 0x1021#16 8 (crcWord a ^^^ crcWord b) := by
  have hlast (x : Char) : crc16 (u ++ [x]) = Crc.shifts 0x1021#16 8 (crc16 u ^^^ crcWord x) := by
    rw [crc16_eq, List.map_append, Crc.remainder_append]
    rfl
  rw [hlast, hlast, ← Crc.shifts_xor]
  congr 1
  rw [BitVec.xor_assoc, BitVec.xor_comm (crcWord a), BitVec.xor_assoc, ← BitVec.xor_assoc, BitVec.xor_self,
    BitVec.zero_xor, BitVec.xor_comm]

end Register

/-- One character replaced by another one, or two different neighbours swapped. -/
inductive Tampered : List Char → List Char → Prop
  | replaced (u v : List Char) {a b : Char} (hne : a ≠ b) : Tampered (u ++ a :: v) (u ++ b :: v)
  | swapped (u v : List Char) {a b : Char} (hne : a ≠ b) : Tampered (u ++ a :: b :: v) (u ++ b :: a :: v)

theorem Tampered.length_eq {l t : List Char} (h : Tampered l t) : l.length = t.length := by
  cases h <;> simp

/-- The last four characters are not the checksum of the others. -/
def Detected (l : List Char) : Prop := ∀ body crc, l = body ++ crc → crc.length = 4 → hex4 (crc16 body) ≠ crc

section Detection

variable {u v body crc : List Char} {a b : Char}

theorem detected_of (hlen : crc.length = 4) (h : hex4 (crc16 body) ≠ crc) : Detected (body ++ crc) := by
  intro body' crc' hsplit hlen'
  obtain ⟨rfl, rfl⟩ := List.append_inj' hsplit (hlen.trans hlen'.symm)
  exact h

/-- A change of the checksum alone. -/
theorem detected_tail (hlen : crc.length = 4) (h : crc ≠ hex4 (crc16 body)) : Detected (body ++ crc) :=
  detected_of hlen fun hsame => h hsame.symm

/-- A change of the text alone that changes its checksum. -/
theorem detected_body {body' : List Char} (h : crc16 body ≠ crc16 body') : Detected (body' ++ hex4 (crc16 body)) :=
  detected_of (hex4_length _) fun hsame => h (hex4_inj hsame).symm

/-- The last character of the text swapped with the first of the checksum: were the checksum right, the two
registers would differ in their first digit only, but no swap of "4" with another digit makes such a difference. -/
theorem detected_boundary (hcrc : hex4 (crc16 (u ++ ['4'])) = b :: v) (hne : '4' ≠ b) :
    Detected (u ++ b :: '4' :: v) := by
  have hsplit : u ++ b :: '4' :: v = (u ++ [b]) ++ ('4' :: v) := by simp
  have hlen : ('4' :: v).length = 4 := by
    have hcount := congrArg List.length hcrc
    rw [hex4_length, List.length_cons] at hcount
    rw [List.length_cons]
    omega
  rw [hsplit]
  apply detected_of hlen
  intro hsame
  have hlast := crc16_last u '4' b
  generalize crc16 (u ++ ['4']) = c at hcrc hlast
  generalize crc16 (u ++ [b]) = d at hsame hlast
  have hc := c.isLt
  have hd := d.isLt
  -- the other three digits agree
  have hlow : c.toNat % 4096 = d.toNat % 4096 := by
    simp only [hex4, List.cons.injEq] at hcrc hsame
    obtain ⟨-, hv⟩ := hcrc
    obtain ⟨-, hw⟩ := hsame
    rw [← hw] at hv
    simp only [List.cons.injEq, and_true] at hv
    obtain ⟨h₂, h₁, h₀⟩ := hv
    have e₂ := hexDigit_inj_lt (by omega) (by omega) h₂
    have e₁ := hexDigit_inj_lt (by omega) (by omega) h₁
    have e₀ := hexDigit_inj_lt (by omega) (by omega) h₀
    omega
  have hb : ∃ n : Fin 16, b = hexDigit n := by
    simp only [hex4, List.cons.injEq] at hcrc
    exact ⟨⟨c.toNat / 4096, by omega⟩, hcrc.1.symm⟩
  obtain ⟨n, rfl⟩ := hb
  have hall : ∀ n : Fin 16, '4' ≠ hexDigit n →
      (Crc.shifts 0x1021#16 8 (crcWord '4' ^^^ crcWord (hexDigit n))) &&& 0xFFF#16 ≠ 0 := by decide +kernel
  apply hall n hne
  rw [← hlast]
  apply BitVec.eq_of_toNat_eq
  have hmask (x : ℕ) : x &&& 4095 = x % 4096 := Nat.and_two_pow_sub_one_eq_mod x 12
  show (c.toNat ^^^ d.toNat) &&& 4095 = 0
  rw [Nat.and_xor_distrib_right, hmask, hmask, hlow, Nat.xor_self]

theorem tampered_detected {l t : List Char} (h : Tampered l t) (hl : l = u ++ '4' :: hex4 (crc16 (u ++ ['4'])))
    (hascii : ∀ c ∈ l, c.toNat < 128) (ht : ∀ c ∈ t, c.toNat < 128) : Detected t := by
  have hcrc := hex4_length (crc16 (u ++ ['4']))
  have htext : u ++ '4' :: hex4 (crc16 (u ++ ['4'])) = (u ++ ['4']) ++ hex4 (crc16 (u ++ ['4'])) := by simp
  rw [htext] at hl
  generalize hbody : u ++ ['4'] = body at hl hcrc
  cases h with
  | @replaced front back a b hne =>
    have ha : a.toNat < 128 := hascii a (by simp)
    have hb : b.toNat < 128 := ht b (by simp)
    rcases List.append_eq_append_iff.mp hl with ⟨rest, hrest, hcase⟩ | ⟨rest, rfl, hrest⟩
    · cases rest with
      | nil =>
        rw [List.append_nil] at hrest
        subst hrest
        rw [List.nil_append] at hcase
        apply detected_tail
        · rw [← hcrc, ← hcase, List.length_cons, List.length_cons]
        · rw [← hcase]
          intro hsame
          exact hne (List.cons.inj hsame).1.symm
      | cons x rest =>
        rw [List.cons_append] at hcase
        obtain ⟨rfl, rfl⟩ := List.cons.inj hcase
        rw [hrest]
        have happend : front ++ b :: (rest ++ hex4 (crc16 (front ++ a :: rest))) =
            (front ++ b :: rest) ++ hex4 (crc16 (front ++ a :: rest)) := by simp
        rw [happend]
        exact detected_body (crc16_replaced ha hb hne)
    · rw [List.append_assoc]
      apply detected_tail
      · rw [← hcrc, hrest, List.length_append, List.length_append, List.length_cons, List.length_cons]
      · rw [hrest]
        intro hsame
        exact hne (List.cons.inj (List.append_cancel_left hsame)).1.symm
  | @swapped front back a b hne =>
    have ha : a.toNat < 128 := hascii a (by simp)
    have hb : b.toNat < 128 := ht b (by simp)
    rcases List.append_eq_append_iff.mp hl with ⟨rest, hrest, hcase⟩ | ⟨rest, rfl, hrest⟩
    · match rest with
      | [] =>
        rw [List.append_nil] at hrest
        subst hrest
        rw [List.nil_append] at hcase
        apply detected_tail
        · rw [← hcrc, ← hcase, List.length_cons, List.length_cons, List.length_cons, List.length_cons]
        · rw [← hcase]
          intro hsame
          exact hne (List.cons.inj hsame).1.symm
      | [x] =>
        rw [List.singleton_append] at hcase
        obtain ⟨rfl, hback⟩ := List.cons.inj hcase
        subst hrest
        obtain ⟨rfl, hfour⟩ := List.append_inj' hbody rfl
        obtain rfl := (List.cons.inj hfour).1
        exact detected_boundary hback.symm hne
      | x :: y :: rest =>
        rw [List.cons_append, List.cons_append] at hcase
        obtain ⟨rfl, hback⟩ := List.cons.inj hcase
        obtain ⟨rfl, rfl⟩ := List.cons.inj hback
        rw [hrest]
        have happend : front ++ b :: a :: (rest ++ hex4 (crc16 (front ++ a :: b :: rest))) =
            (front ++ b :: a :: rest) ++ hex4 (crc16 (front ++ a :: b :: rest)) := by simp
        rw [happend]
        exact detected_body (crc16_swapped ha hb hne)
    · rw [List.append_assoc]
      apply detected_tail
      · rw [← hcrc, hrest, List.length_append, List.length_append, List.length_cons,
          List.length_cons, List.length_cons,
          List.length_cons]
      · rw [hrest]
        intro hsame
        exact hne (List.cons.inj (List.append_cancel_left hsame)).1.symm

end Detection
end PaymentLedger
