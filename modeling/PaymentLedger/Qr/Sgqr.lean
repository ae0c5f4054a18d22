import PaymentLedger.Math.Crc
import PaymentLedger.Math.DecimalText

namespace PaymentLedger

/-- ISO 4217 numeric codes, for tag 53. -/
def currencyNumeric : List (String × String) := [("SGD", "702"), ("USD", "840"), ("EUR", "978"), ("GBP", "826")]

/-- The exceptions that `build_sgqr` ends in. -/
inductive SgqrFailure where
  | sgqr (message : String)
  -- the `UnicodeEncodeError` of `data.encode("ascii")`
  | unicodeEncode
  | signal (s : DecimalSignal)
  deriving DecidableEq, Repr

structure SgqrPayload where
  payload : String
  pngBytes : List UInt8
  deriving DecidableEq

/-- `f"{n:02d}"`, of a number below 100. -/
def twoDigits (n : ℕ) : String := String.ofList [Nat.digitChar (n / 10), Nat.digitChar (n % 10)]

/-- A field: the tag, the length of the value and the value; `repr` is `str.__repr__`. -/
def tlv (repr : String → String) (tag value : String) : Except SgqrFailure String :=
  if 99 < value.length then .error (.sgqr ("TLV value for tag " ++ tag ++ " exceeds 99 characters: " ++ repr value))
  else .ok (tag ++ twoDigits value.length ++ value)

def Ascii (s : String) : Prop := ∀ c ∈ s.toList, c.toNat < 128

instance (s : String) : Decidable (Ascii s) := by unfold Ascii; infer_instance

/-- The register after the bytes of an ASCII text: each enters at the top and is shifted eight times. -/
def crc16 (l : List Char) : BitVec 16 :=
  Crc.remainder 0x1021#16 8 0xFFFF#16 (l.map fun c => BitVec.ofNat 16 c.toNat <<< 8)

def hexDigit (n : ℕ) : Char := if n < 10 then Char.ofNat (48 + n) else Char.ofNat (55 + n)

/-- `f"{crc:04X}"`. -/
def hex4 (crc : BitVec 16) : List Char :=
  [hexDigit (crc.toNat / 4096), hexDigit (crc.toNat / 256 % 16), hexDigit (crc.toNat / 16 % 16),
    hexDigit (crc.toNat % 16)]

/-- CRC-16/CCITT-FALSE over ASCII bytes. -/
def crc16Ccitt (data : String) : Except SgqrFailure String :=
  if Ascii data then .ok (String.ofList (hex4 (crc16 data.toList))) else .error .unicodeEncode

section Build

variable (repr : String → String)

/-- The fields in front of the checksum. -/
def sgqrFields (accountNumber merchantName merchantCity numeric : String) (amount : Option Decimal) :
    Except SgqrFailure String := do
  let scheme ← tlv repr "00" "SG.PAYNOW"
  let account ← tlv repr "01" accountNumber
  let merchantAccountInfo := scheme ++ account
  let pointOfInitiation := if amount.isSome then "12" else "11"
  let format ← tlv repr "00" "01"
  let initiation ← tlv repr "01" pointOfInitiation
  let template ← tlv repr "26" merchantAccountInfo
  let category ← tlv repr "52" "0000"
  let currency ← tlv repr "53" numeric
  let amountField ← match amount with
    | some amount => tlv repr "54" amount.str
    | none => .ok ""
  let country ← tlv repr "58" "SG"
  let name ← tlv repr "59" (String.ofList (merchantName.toList.take 25))
  let city ← tlv repr "60" (String.ofList (merchantCity.toList.take 15))
  return format ++ initiation ++ template ++ category ++ currency ++ amountField ++ country ++ name ++ city

/-- The check of the amount, if there is one. -/
def checkAmount : Option Decimal → Except SgqrFailure Unit
  | none => .ok ()
  | some amount =>
    match amount.nonPositive with
    | .error s => .error (.signal s)
    | .ok true => .error (.sgqr ("amount must be positive, got " ++ amount.str))
    | .ok false => .ok ()

/-- Builds a payment QR; `make` renders a payload as PNG. -/
def buildSgqr (make : String → List UInt8) (accountNumber merchantName merchantCity currency : String)
    (amount : Option Decimal) : Except SgqrFailure SgqrPayload :=
  match currencyNumeric.lookup currency with
  | none => .error (.sgqr ("unsupported currency for SGQR: " ++ currency))
  | some numeric => do
    checkAmount amount
    let fields ← sgqrFields repr accountNumber merchantName merchantCity numeric amount
    let payloadWithoutCrc := fields ++ "6304"
    let crc ← crc16Ccitt payloadWithoutCrc
    let payload := payloadWithoutCrc ++ crc
    return ⟨payload, make payload⟩

end Build

section Parse

/-- An index into a sequence of this length as a slice takes it: a negative one counts from the end. -/
def sliceIndex (length : ℕ) (i : ℤ) : ℕ := if i < 0 then (i + length).toNat else min i.toNat length

/-- `l[a:b]`. -/
def slice {α : Type} (l : List α) (a b : ℤ) : List α :=
  (l.take (sliceIndex l.length b)).drop (sliceIndex l.length a)

/-- The white space that `int` strips: not the separators among the ASCII control characters. -/
def isIntSpace (c : Char) : Bool := isSpace c && !(28 ≤ c.toNat && c.toNat ≤ 31)

/-- `int(s)` of at most two characters, between which no underscore can stand; there is no result where it
raises `ValueError`. -/
def parseInt (l : List Char) : Option ℤ := do
  let (neg, ds) := Decimal.splitSign ((l.dropWhile isIntSpace).rdropWhile isIntSpace)
  let ds ← ds.mapM asciiChar
  let n ← Decimal.digits ds
  if neg then some (-n) else some n

/-- `fields[tag] = value`. -/
def setField (tag value : String) : List (String × String) → List (String × String)
  | [] => [(tag, value)]
  | (tag', value') :: fields =>
    if tag' = tag then (tag', value) :: fields else (tag', value') :: setField tag value fields

/-- The `ValueError` of `int`, with the text it refuses. -/
structure InvalidLiteral where
  literal : String
  deriving DecidableEq, Repr

/-- The loop of `parse_tlv`, for at most so many iterations; while it still runs there is no result. -/
def parseTlvLoop (payload : List Char) :
    ℕ → ℤ → List (String × String) → Option (Except InvalidLiteral (List (String × String)))
  | 0, _, _ => none
  | iterations + 1, i, fields =>
    if i < payload.length then
      match parseInt (slice payload (i + 2) (i + 4)) with
      | none => some (.error ⟨String.ofList (slice payload (i + 2) (i + 4))⟩)
      | some length =>
        parseTlvLoop payload iterations (i + 4 + length)
          (setField (String.ofList (slice payload i (i + 2)))
            (String.ofList (slice payload (i + 4) (i + 4 + length))) fields)
    else some (.ok fields)

/-- `parse_tlv` ends so: with the fields, or with the exception of `int`. -/
def ParseTlv (payload : String) (r : Except InvalidLiteral (List (String × String))) : Prop :=
  ∃ iterations, parseTlvLoop payload.toList iterations 0 [] = some r

/-- Whether the last four characters are the checksum of the others. -/
def verifyCrc (payload : String) : Except SgqrFailure Bool := do
  let body := String.ofList (payload.toList.take (payload.toList.length - 4))
  let crc := String.ofList (payload.toList.drop (payload.toList.length - 4))
  return decide ((← crc16Ccitt body) = crc)

end Parse
end PaymentLedger
