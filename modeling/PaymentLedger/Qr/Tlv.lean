import Mathlib.Computability.StateTransition
import PaymentLedger.Qr.Sgqr

namespace PaymentLedger

open StateTransition

section Slices

variable {α : Type} {pre l : List α}

/-- A slice behind a prefix. -/
theorem slice_append (a b : ℕ) : slice (pre ++ l) (pre.length + a) (pre.length + b) = (l.take b).drop a := by
  have index (n : ℕ) : sliceIndex (pre ++ l).length (pre.length + n) =
      min (pre.length + n) (pre.length + l.length) := by
    rw [sliceIndex, if_neg (by omega), List.length_append]
    omega
  rw [slice, index, index, ← List.length_append, ← List.take_eq_take_min, List.take_length_add_append]
  by_cases ha : a ≤ l.length
  · rw [List.length_append, min_eq_left (by omega), List.drop_append]
    simp
  · rw [List.length_append, min_eq_right (by omega), List.drop_eq_nil_of_le (by simp),
      List.drop_eq_nil_of_le (by simp; omega)]

end Slices

section Walk

variable {payload : List Char} {i j : ℤ}

/-- The length that the loop reads at a position. -/
def tlvLength (payload : List Char) (i : ℤ) : Option ℤ := parseInt (slice payload (i + 2) (i + 4))

/-- The position after this one; the loop goes no further behind the end and from a length that `int` refuses. -/
def tlvNext (payload : List Char) (i : ℤ) : Option ℤ :=
  if i < payload.length then (tlvLength payload i).map fun length => i + 4 + length else none

/-- What the loop ends in where the walk ends. -/
def tlvEnd (payload : List Char) (i : ℤ) (fields : List (String × String)) :
    Except InvalidLiteral (List (String × String)) :=
  if i < payload.length then .error ⟨String.ofList (slice payload (i + 2) (i + 4))⟩ else .ok fields

/-- One iteration. -/
theorem parseTlvLoop_next (h : tlvNext payload i = some j) (fields : List (String × String)) :
    ∃ fields', ∀ n, parseTlvLoop payload (n + 1) i fields = parseTlvLoop payload n j fields' := by
  rw [tlvNext] at h
  split at h
  · rename_i hi
    obtain ⟨length, hlength, rfl⟩ := Option.map_eq_some_iff.mp h
    rw [tlvLength] at hlength
    refine ⟨setField (String.ofList (slice payload i (i + 2)))
      (String.ofList (slice payload (i + 4) (i + 4 + length))) fields, ?_⟩
    intro n
    rw [parseTlvLoop, if_pos hi]
    simp only [hlength]
  · cases h

/-- The last iteration. -/
theorem parseTlvLoop_stop (h : tlvNext payload i = none) (n : ℕ) (fields : List (String × String)) :
    parseTlvLoop payload (n + 1) i fields = some (tlvEnd payload i fields) := by
  rw [tlvNext] at h
  rw [parseTlvLoop, tlvEnd]
  split at h
  · rename_i hi
    rw [Option.map_eq_none_iff, tlvLength] at h
    rw [if_pos hi, if_pos hi]
    simp only [h]
  · rename_i hi
    rw [if_neg hi, if_neg hi]

theorem parseTlvLoop_reaches {n : ℕ} {fields : List (String × String)}
    {r : Except InvalidLiteral (List (String × String))} (h : parseTlvLoop payload n i fields = some r) :
    ∃ j fields', Reaches (tlvNext payload) i j ∧ tlvNext payload j = none ∧ r = tlvEnd payload j fields' := by
  induction n generalizing i fields with
  | zero => cases h
  | succ n ih =>
    cases hnext : tlvNext payload i with
    | none =>
      rw [parseTlvLoop_stop hnext] at h
      exact ⟨i, fields, .refl, hnext, (Option.some.inj h).symm⟩
    | some k =>
      obtain ⟨fields', hstep⟩ := parseTlvLoop_next hnext fields
      rw [hstep] at h
      obtain ⟨j, fields'', hreach, hend, hr⟩ := ih h
      exact ⟨j, fields'', .head hnext hreach, hend, hr⟩

theorem parseTlvLoop_of_reaches (hreach : Reaches (tlvNext payload) i j) (hend : tlvNext payload j = none)
    (fields : List (String × String)) :
    ∃ n fields', parseTlvLoop payload n i fields = some (tlvEnd payload j fields') := by
  induction hreach using Relation.ReflTransGen.head_induction_on generalizing fields with
  | refl => exact ⟨1, fields, parseTlvLoop_stop hend 0 fields⟩
  | head hstep _ ih =>
    obtain ⟨fields', hnext⟩ := parseTlvLoop_next hstep fields
    obtain ⟨n, fields'', hrest⟩ := ih fields'
    exact ⟨n + 1, fields'', (hnext n).trans hrest⟩

/-- More iterations do not change a result. -/
theorem parseTlvLoop_mono {n m : ℕ} {fields : List (String × String)}
    {r : Except InvalidLiteral (List (String × String))} (h : parseTlvLoop payload n i fields = some r)
    (hle : n ≤ m) : parseTlvLoop payload m i fields = some r := by
  induction n generalizing m i fields with
  | zero => cases h
  | succ n ih =>
    obtain ⟨m, rfl⟩ := Nat.exists_eq_add_of_le' (Nat.one_le_of_lt hle)
    rw [parseTlvLoop] at h ⊢
    by_cases hi : i < payload.length
    · rw [if_pos hi] at h ⊢
      cases hlength : parseInt (slice payload (i + 2) (i + 4)) with
      | none =>
        simp only [hlength] at h ⊢
        exact h
      | some length =>
        simp only [hlength] at h ⊢
        exact ih h (by omega)
    · rw [if_neg hi] at h ⊢
      exact h

/-- There is one way to end. -/
theorem ParseTlv.unique {payload : String} {r r' : Except InvalidLiteral (List (String × String))}
    (h : ParseTlv payload r) (h' : ParseTlv payload r') : r = r' := by
  obtain ⟨n, hn⟩ := h
  obtain ⟨m, hm⟩ := h'
  have hr := parseTlvLoop_mono hn (le_max_left n m)
  have hr' := parseTlvLoop_mono hm (le_max_right n m)
  rw [hr] at hr'
  exact Option.some.inj hr'

theorem parseTlv_reaches {payload : String} {r : Except InvalidLiteral (List (String × String))}
    (h : ParseTlv payload r) : ∃ j fields, Reaches (tlvNext payload.toList) 0 j ∧
      tlvNext payload.toList j = none ∧ r = tlvEnd payload.toList j fields := by
  obtain ⟨n, hn⟩ := h
  exact parseTlvLoop_reaches hn

theorem parseTlv_of_reaches {payload : String} (hreach : Reaches (tlvNext payload.toList) 0 j)
    (hend : tlvNext payload.toList j = none) : ∃ fields, ParseTlv payload (tlvEnd payload.toList j fields) := by
  obtain ⟨n, fields, hn⟩ := parseTlvLoop_of_reaches hreach hend []
  exact ⟨fields, n, hn⟩

theorem parseTlv_ends_iff {payload : String} : (∃ r, ParseTlv payload r) ↔
    ∃ j, Reaches (tlvNext payload.toList) 0 j ∧ tlvNext payload.toList j = none := by
  constructor
  · rintro ⟨r, h⟩
    obtain ⟨j, -, hreach, hend, -⟩ := parseTlv_reaches h
    exact ⟨j, hreach, hend⟩
  · rintro ⟨j, hreach, hend⟩
    obtain ⟨fields, h⟩ := parseTlv_of_reaches hreach hend
    exact ⟨_, h⟩

end Walk

section Lengths

variable {text : List Char}

theorem parseInt_eq (text : List Char) : parseInt text =
    (((Decimal.splitSign ((text.dropWhile isIntSpace).rdropWhile isIntSpace)).2.mapM asciiChar).bind
      Decimal.digits).map fun n : ℕ =>
        if (Decimal.splitSign ((text.dropWhile isIntSpace).rdropWhile isIntSpace)).1 then -(n : ℤ) else n := by
  rw [parseInt]
  rcases Decimal.splitSign ((text.dropWhile isIntSpace).rdropWhile isIntSpace) with ⟨neg, ds⟩
  dsimp only
  cases ds.mapM asciiChar with
  | none => rfl
  | some ds =>
    simp only [Option.bind_eq_bind, Option.bind_some]
    cases Decimal.digits ds with
    | none => rfl
    | some n => cases neg <;> rfl

theorem splitSign_neg (h : (Decimal.splitSign text).1 = true) : ∃ ds, text = '-' :: ds := by
  unfold Decimal.splitSign at h
  split at h
  · exact ⟨_, rfl⟩
  · cases h
  · cases h

/-- A negative number of two characters is a sign and one character. -/
theorem parseInt_neg {n : ℤ} (h : parseInt text = some n) (hn : n < 0) (hshort : text.length ≤ 2) :
    ∃ c, text = ['-', c] := by
  set stripped := (text.dropWhile isIntSpace).rdropWhile isIntSpace with hstripped
  have hsub : stripped.Sublist text := (List.rdropWhile_prefix ..).sublist.trans (List.dropWhile_sublist _)
  rw [parseInt_eq, ← hstripped, Option.map_eq_some_iff] at h
  obtain ⟨m, hm, rfl⟩ := h
  have hneg : (Decimal.splitSign stripped).1 = true := by
    by_contra hpos
    rw [if_neg hpos] at hn
    omega
  obtain ⟨ds, hds⟩ := splitSign_neg hneg
  rw [hds] at hsub hm
  cases ds with
  | nil => cases hm
  | cons c ds =>
    have hlen := hsub.length_le
    rw [List.length_cons, List.length_cons] at hlen
    obtain rfl : ds = [] := List.eq_nil_of_length_eq_zero (by omega)
    exact ⟨c, (hsub.eq_of_length_le hshort).symm⟩

/-- A sign is no digit. -/
theorem digits_dash {ds : List Char} (h : '-' ∈ ds) : Decimal.digits ds = none := by
  rw [Decimal.digits, if_neg]
  rintro ⟨-, hall⟩
  exact absurd (List.all_eq_true.mp hall '-' h) (by decide)

theorem mapM_dash (c : Char) : ([c, '-'].mapM asciiChar).bind Decimal.digits = none := by
  have hdash : asciiChar '-' = some '-' := by decide
  cases hc : asciiChar c with
  | none => simp [hc]
  | some d => simpa [hc, hdash] using digits_dash (show '-' ∈ [d, '-'] by simp)

/-- `int` refuses a sign in the second place. -/
theorem parseInt_dash (c : Char) : parseInt [c, '-'] = none := by
  have hdash : isIntSpace '-' = false := by decide
  by_cases hspace : isIntSpace c
  · have hstrip : ([c, '-'].dropWhile isIntSpace).rdropWhile isIntSpace = ['-'] := by
      simp [List.dropWhile, hspace, hdash, List.rdropWhile]
    rw [parseInt_eq, hstrip]
    rfl
  · have hstrip : ([c, '-'].dropWhile isIntSpace).rdropWhile isIntSpace = [c, '-'] := by
      simp [List.dropWhile, hspace, hdash, List.rdropWhile]
    rw [parseInt_eq, hstrip]
    by_cases hsign : c = '-' ∨ c = '+'
    · rcases hsign with rfl | rfl <;> rfl
    · have hsplit : Decimal.splitSign [c, '-'] = (false, [c, '-']) := by
        unfold Decimal.splitSign
        split <;> simp_all
      rw [hsplit, mapM_dash]
      rfl

end Lengths

section Fields

/-- The length of the field in front of a text. -/
def fieldLength (text : List Char) : Option ℤ := parseInt ((text.take 4).drop 2)

/-- The first text is a number of fields, each as long as its length says and 3 characters shorter at the least,
and then the second. -/
inductive Leads : List Char → List Char → Prop
  | refl (text : List Char) : Leads text text
  | field {text rest : List Char} {n : ℤ} (hne : text ≠ []) (hn : fieldLength text = some n) (hforward : -4 < n)
      (h : Leads (text.drop (4 + n).toNat) rest) : Leads text rest

/-- Behind such fields there stands one with this length. -/
def Meets (text : List Char) (length : Option ℤ) : Prop :=
  ∃ rest, Leads text rest ∧ rest ≠ [] ∧ fieldLength rest = length

variable {payload text rest : List Char}

/-- A text is made of such fields, up to its end, a length that `int` refuses or one that leads back. -/
theorem meets_cases (text : List Char) : Leads text [] ∨ Meets text none ∨ ∃ n ≤ -4, Meets text (some n) := by
  by_cases hne : text = []
  · subst hne
    exact .inl (.refl [])
  cases hn : fieldLength text with
  | none => exact .inr (.inl ⟨text, .refl text, hne, hn⟩)
  | some n =>
    by_cases hforward : -4 < n
    · have hshorter : (text.drop (4 + n).toNat).length < text.length := by
        have := List.length_pos_iff.mpr hne
        rw [List.length_drop]
        omega
      rcases meets_cases (text.drop (4 + n).toNat) with hend | ⟨rest, h, hrest⟩ | ⟨m, hm, rest, h, hrest⟩
      · exact .inl (.field hne hn hforward hend)
      · exact .inr (.inl ⟨rest, .field hne hn hforward h, hrest⟩)
      · exact .inr (.inr ⟨m, hm, rest, .field hne hn hforward h, hrest⟩)
    · exact .inr (.inr ⟨n, by omega, text, .refl text, hne, hn⟩)
termination_by text.length

theorem tlvLength_drop {i : ℕ} (hi : i ≤ payload.length) : tlvLength payload i = fieldLength (payload.drop i) := by
  have hslice := @slice_append _ (payload.take i) (payload.drop i) 2 4
  rw [List.take_append_drop, List.length_take_of_le hi] at hslice
  exact congrArg parseInt hslice

theorem tlvNext_drop {i : ℕ} (h : payload.drop i ≠ []) :
    tlvNext payload i = (fieldLength (payload.drop i)).map fun length => (i : ℤ) + 4 + length := by
  have hi : i < payload.length := by
    by_contra hout
    exact h (List.drop_eq_nil_of_le (by omega))
  rw [tlvNext, if_pos (by exact_mod_cast hi), tlvLength_drop hi.le]

/-- The walk goes over the fields. -/
theorem Leads.reaches {i : ℕ} (h : Leads (payload.drop i) rest) :
    ∃ j : ℕ, payload.drop j = rest ∧ Reaches (tlvNext payload) i j := by
  generalize htext : payload.drop i = text at h
  induction h generalizing i with
  | refl => exact ⟨i, htext, .refl⟩
  | @field text rest n hne hn hforward _ ih =>
    subst htext
    obtain ⟨j, hj, hreach⟩ := @ih (i + (4 + n).toNat) (by rw [List.drop_drop])
    have hstep : tlvNext payload i = some ((i + (4 + n).toNat : ℕ) : ℤ) := by
      rw [tlvNext_drop hne, hn, Option.map_some]
      congr 1
      omega
    exact ⟨j, hj, .head hstep hreach⟩

theorem Leads.suffix (h : Leads text rest) : rest <:+ text := by
  induction h with
  | refl => exact List.suffix_refl _
  | field _ _ _ _ ih => exact ih.trans (List.drop_suffix _ _)

theorem fieldLength_neg {n : ℤ} (h : fieldLength text = some n) (hn : n < 0) :
    ∃ c, (text.take 4).drop 2 = ['-', c] := by
  apply parseInt_neg h hn
  rw [List.length_drop, List.length_take]
  omega

/-- A negative length stands in the text. -/
theorem Meets.dash {n : ℤ} (h : Meets text (some n)) (hn : n < 0) :
    ∃ c, ['-', c] <:+: text ∧ parseInt ['-', c] = some n := by
  obtain ⟨rest, hleads, -, hlength⟩ := h
  obtain ⟨c, hc⟩ := fieldLength_neg hlength hn
  refine ⟨c, ?_, ?_⟩
  · have hinfix : (rest.take 4).drop 2 <:+: rest :=
      (List.drop_suffix _ _).isInfix.trans (List.take_prefix _ _).isInfix
    rw [hc] at hinfix
    exact hinfix.trans hleads.suffix.isInfix
  · rw [← hc]
    exact hlength

variable {payload : String}

theorem Meets.walk {length : Option ℤ} (h : Meets payload.toList length) :
    ∃ j : ℕ, Reaches (tlvNext payload.toList) 0 j ∧ payload.toList.drop j ≠ [] ∧
      fieldLength (payload.toList.drop j) = length := by
  obtain ⟨rest, hleads, hne, hlength⟩ := h
  obtain ⟨j, rfl, hreach⟩ := @Leads.reaches payload.toList rest 0 hleads
  exact ⟨j, hreach, hne, hlength⟩

/-- Fields up to the end are returned. -/
theorem Leads.returns (h : Leads payload.toList []) : ∃ fields, ParseTlv payload (.ok fields) := by
  obtain ⟨j, hj, hreach⟩ := @Leads.reaches payload.toList [] 0 h
  have hout : ¬(j : ℤ) < payload.toList.length := by
    have := List.drop_eq_nil_iff.mp hj
    omega
  obtain ⟨fields, hparse⟩ := parseTlv_of_reaches hreach (by rw [tlvNext, if_neg hout])
  rw [tlvEnd, if_neg hout] at hparse
  exact ⟨fields, hparse⟩

theorem raises_of_refused {j : ℤ} (hreach : Reaches (tlvNext payload.toList) 0 j) (hj : j < payload.toList.length)
    (hrefused : tlvLength payload.toList j = none) : ∃ e, ParseTlv payload (.error e) := by
  obtain ⟨fields, hparse⟩ := parseTlv_of_reaches hreach (by rw [tlvNext, if_pos hj, hrefused, Option.map_none])
  rw [tlvEnd, if_pos hj] at hparse
  exact ⟨_, hparse⟩

theorem Meets.raises (h : Meets payload.toList none) : ∃ e, ParseTlv payload (.error e) := by
  obtain ⟨j, hreach, hne, hlength⟩ := h.walk
  have hj : j < payload.toList.length := by
    by_contra hout
    exact hne (List.drop_eq_nil_of_le (by omega))
  apply raises_of_refused hreach (by exact_mod_cast hj)
  rw [tlvLength_drop hj.le, hlength]

theorem take_drop_before {c d : Char} (h : (text.take 4).drop 2 = [c, d]) : ∃ b, (text.take 3).drop 1 = [b, c] := by
  match text, h with
  | [_, _, _], h => simp at h
  | _ :: b :: _ :: _ :: _, h =>
    simp only [List.take_succ_cons, List.take_zero, List.drop_succ_cons, List.drop_zero] at h ⊢
    exact ⟨b, by rw [(List.cons.inj h).1]⟩

/-- The length "-5" leads back by one character, to where the sign stands in the second place of the length. -/
theorem Meets.raises_back (h : Meets payload.toList (some (-5))) : ∃ e, ParseTlv payload (.error e) := by
  obtain ⟨j, hreach, hne, hlength⟩ := h.walk
  obtain ⟨c, hc⟩ := fieldLength_neg hlength (by omega)
  have hj : j < payload.toList.length := by
    by_contra hout
    exact hne (List.drop_eq_nil_of_le (by omega))
  have hback : tlvNext payload.toList j = some ((j : ℤ) - 1) := by
    rw [tlvNext_drop hne, hlength, Option.map_some]
    congr 1
    omega
  have hsign : tlvLength payload.toList ((j : ℤ) - 1) = none := by
    have hslice := @slice_append _ (payload.toList.take j) (payload.toList.drop j) 1 3
    rw [List.take_append_drop, List.length_take_of_le hj.le] at hslice
    obtain ⟨b, hb⟩ := take_drop_before hc
    have hat : (slice payload.toList ((j : ℤ) - 1 + 2) ((j : ℤ) - 1 + 4)) = [b, '-'] := by
      rw [show (j : ℤ) - 1 + 2 = j + (1 : ℕ) by omega, show (j : ℤ) - 1 + 4 = j + (3 : ℕ) by omega, hslice, hb]
    rw [tlvLength, hat, parseInt_dash]
  exact raises_of_refused (hreach.tail hback) (by omega) hsign

/-- The length "-4" leads back to its own field. -/
theorem Meets.runs (h : Meets payload.toList (some (-4))) : ¬∃ r, ParseTlv payload r := by
  obtain ⟨j, hreach, hne, hlength⟩ := h.walk
  have hloop : tlvNext payload.toList j = some j := by
    rw [tlvNext_drop hne, hlength, Option.map_some]
    congr 1
    omega
  rw [parseTlv_ends_iff]
  rintro ⟨e, he, hend⟩
  have hstays (k : ℤ) (hk : Reaches (tlvNext payload.toList) j k) : k = j := by
    induction hk with
    | refl => rfl
    | tail _ hstep ih =>
      subst ih
      exact (Option.mem_unique hstep hloop)
  rcases reaches_total hreach he with hje | hej
  · obtain rfl := hstays e hje
    rw [hend] at hloop
    cases hloop
  · rcases hej.cases_head with rfl | ⟨k, hstep, -⟩
    · rw [hend] at hloop
      cases hloop
    · rw [hend] at hstep
      cases hstep

end Fields

section Termination

/-- Parsing ends if no length of a field leads back, one of -5 apart. -/
theorem parseTlv_ends {payload : String} (h : ∀ n ≤ -4, Meets payload.toList (some n) → n = -5) :
    ∃ r, ParseTlv payload r := by
  rcases meets_cases payload.toList with hend | hrefused | ⟨n, hn, hback⟩
  · obtain ⟨fields, hparse⟩ := hend.returns
    exact ⟨_, hparse⟩
  · obtain ⟨e, hparse⟩ := hrefused.raises
    exact ⟨_, hparse⟩
  · obtain rfl := h n hn hback
    obtain ⟨e, hparse⟩ := hback.raises_back
    exact ⟨_, hparse⟩

/-- Parsing ends where no field has a length from -4 down, one of -5 apart; so on every text without a minus and
such a digit. At a length of -4 it runs on. -/
theorem parseTlv_terminates (payload : String) :
    ((∀ n ≤ -4, Meets payload.toList (some n) → n = -5) → ∃ r, ParseTlv payload r) ∧
    ((∀ c n, ['-', c] <:+: payload.toList → parseInt ['-', c] = some n → n ≤ -4 → n = -5) →
      ∃ r, ParseTlv payload r) ∧
    (Meets payload.toList (some (-4)) → ¬∃ r, ParseTlv payload r) := by
  refine ⟨parseTlv_ends, ?_, Meets.runs⟩
  intro h
  apply parseTlv_ends
  intro n hn hmeets
  obtain ⟨c, hc, hread⟩ := hmeets.dash (by omega)
  exact h c n hc hread hn

/-- The length "-4" leads back to its own field. -/
theorem parseTlv_runs_forever : ¬∃ r, ParseTlv "00-4" r := by
  apply Meets.runs
  exact ⟨_, .refl _, by decide, by decide +kernel⟩

-- a length of -6 leads into the tag, which may lead to the end or back again
example : ParseTlv "02-6" (.ok [("02", ""), ("", "-6")]) := ⟨3, by decide +kernel⟩

end Termination
end PaymentLedger
