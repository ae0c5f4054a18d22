import PaymentLedger.Math.DecimalText
import PaymentLedger.Text.Xml
import Mathlib.Data.List.Infix

namespace PaymentLedger

def pain001Namespace : String := "urn:iso:std:iso:20022:tech:xsd:pain.001.001.09"

/-- A tag with the prefix `ns:`. -/
def ns (name : String) : QName := ⟨pain001Namespace, name⟩

inductive Pain001ParseError where
  | doctype
  | malformed (reason : String)
  | missing (fields : List String)
  | noCurrency
  | invalidAmount (text : String)
  deriving DecidableEq

/-- `str(exc)`; `repr` is `str.__repr__`. -/
def Pain001ParseError.message (repr : String → String) : Pain001ParseError → String
  | doctype => "DOCTYPE declarations are not permitted"
  | malformed reason => "malformed XML: " ++ reason
  | missing fields => "missing required field(s): " ++ ", ".intercalate fields
  | noCurrency => "Amt/InstdAmt is missing the required Ccy attribute"
  | invalidAmount text => "invalid amount: " ++ repr text

/-- How `parse_pain001` can end without a transfer. -/
inductive Pain001Failure where
  | parse (e : Pain001ParseError)
  | assertion
  deriving DecidableEq

structure Pain001CreditTransfer where
  messageId : String
  endToEndId : String
  debtorAccountNumber : String
  creditorAccountNumber : String
  amount : Decimal
  currency : String
  deriving DecidableEq

/-- `el.text.strip() if el is not None and el.text else None`. -/
def strippedText (el : Option Element) : Option String :=
  match el.bind Element.text with
  | some text => if text = "" then none else some (strip text)
  | none => none

namespace Element

variable (root : Element)

def findText (path : List QName) : Option String := strippedText (root.find path)

def messageIdPath : List QName := [ns "GrpHdr", ns "MsgId"]

def endToEndIdPath : List QName := [ns "PmtInf", ns "CdtTrfTxInf", ns "PmtId", ns "EndToEndId"]

def debtorPath : List QName := [ns "PmtInf", ns "DbtrAcct", ns "Id", ns "Othr", ns "Id"]

def creditorPath : List QName := [ns "PmtInf", ns "CdtTrfTxInf", ns "CdtrAcct", ns "Id", ns "Othr", ns "Id"]

def amountPath : List QName := [ns "PmtInf", ns "CdtTrfTxInf", ns "Amt", ns "InstdAmt"]

/-- The required fields that are absent or blank. -/
def missingFields : List String :=
  ([("GrpHdr/MsgId", root.findText messageIdPath), ("PmtId/EndToEndId", root.findText endToEndIdPath),
    ("DbtrAcct/Id/Othr/Id", root.findText debtorPath), ("CdtrAcct/Id/Othr/Id", root.findText creditorPath)].filter
      fun x => decide (x.2.getD "" = "")).map Prod.fst ++
    if (root.findText amountPath).getD "" = "" then ["Amt/InstdAmt"] else []

/-- What `parse_pain001` does with the parsed document. -/
def readTransfer : Except Pain001Failure Pain001CreditTransfer :=
  if root.missingFields ≠ [] then .error (.parse (.missing root.missingFields))
  else
    match root.find amountPath with
    | none => .error .assertion
    | some amountEl =>
      let currency := (amountEl.get "Ccy").getD ""
      let text := amountEl.text.getD ""
      if currency = "" then .error (.parse .noCurrency)
      else
        match Decimal.ofString (strip text) with
        | none => .error (.parse (.invalidAmount text))
        | some amount =>
          match root.findText messageIdPath, root.findText endToEndIdPath, root.findText debtorPath,
            root.findText creditorPath with
          | some messageId, some endToEndId, some debtorAccountNumber, some creditorAccountNumber =>
            .ok { messageId, endToEndId, debtorAccountNumber, creditorAccountNumber, amount, currency }
          | _, _, _, _ => .error .assertion

end Element

/-- `b"<!DOCTYPE"`. -/
def doctype : List UInt8 := [60, 33, 68, 79, 67, 84, 89, 80, 69]

/-- `fromstring` is the XML parser: the root element, or the message of its syntax error. -/
def parsePain001 (fromstring : List UInt8 → Except String Element) (xmlBytes : List UInt8) :
    Except Pain001Failure Pain001CreditTransfer :=
  if doctype <:+: xmlBytes then .error (.parse .doctype)
  else
    match fromstring xmlBytes with
    | .error reason => .error (.parse (.malformed reason))
    | .ok root => root.readTransfer

end PaymentLedger
