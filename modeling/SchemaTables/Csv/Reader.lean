import SchemaTables.Text.Utf8

/-!
Reading comma-separated tables. Records are found among the bytes first, by a scan that takes one byte
at a time; then they are read as texts. A record ends with a line feed, a carriage return or both, and
empty lines are passed over. A quote opens a quoted field only where a field starts; inside it a quote
is written twice, and what follows the closing quote belongs to the field as it is. The first record is
the header, and every record after it has as many fields, unless the table may be ragged.
-/

namespace SchemaTables.Csv

/-- A record as found among the bytes. -/
structure RawRecord where
  fields : List Bytes
  /-- The line in which the search for the record started, the first line being one. -/
  line : Nat
  /-- How many bytes there are before that. -/
  byte : Nat
deriving DecidableEq, Repr

/-- Where a scan stands. -/
inductive Phase where
  /-- Before a record; line ends are passed over. -/
  | recordStart
  | fieldStart
  | bareField
  | quotedField
  /-- A quote inside a quoted field: it closes the field unless another quote follows. -/
  | afterQuote
deriving DecidableEq, Repr

/-- What a scan has found. The newest stands first, in each list. -/
structure Scan where
  phase : Phase := .recordStart
  /-- The line of the next byte. -/
  line : Nat := 1
  /-- The number of bytes taken. -/
  byte : Nat := 0
  startLine : Nat := 1
  startByte : Nat := 0
  field : List UInt8 := []
  fields : List Bytes := []
  records : List RawRecord := []
deriving DecidableEq, Repr

namespace Scan

def lineFeed : UInt8 := 10
def carriageReturn : UInt8 := 13
def quote : UInt8 := 34
def comma : UInt8 := 44

def isLineEnd (b : UInt8) : Bool := b == lineFeed || b == carriageReturn

/-- Takes note of the place of a byte. -/
def advance (s : Scan) (b : UInt8) : Scan :=
  { s with byte := s.byte + 1, line := if b = lineFeed then s.line + 1 else s.line }

def push (s : Scan) (b : UInt8) (phase : Phase) : Scan :=
  { s with field := b :: s.field, phase := phase }

def endField (s : Scan) : Scan :=
  { s with field := [], fields := s.field.reverse :: s.fields, phase := .fieldStart }

/-- Ends a record with its last field; the search for the next one starts here. -/
def endRecord (s : Scan) : Scan :=
  { s with
    field := []
    fields := []
    records := ⟨(s.field.reverse :: s.fields).reverse, s.startLine, s.startByte⟩ :: s.records
    startLine := s.line
    startByte := s.byte
    phase := .recordStart }

/-- A byte outside quotes. -/
def outside (s : Scan) (b : UInt8) : Scan :=
  if b = comma then s.endField
  else if isLineEnd b then s.endRecord
  else s.push b .bareField

/-- A byte where a field starts. -/
def start (s : Scan) (b : UInt8) : Scan :=
  if b = quote then { s with phase := .quotedField } else s.outside b

def take (s : Scan) (b : UInt8) : Scan :=
  match s.phase with
  | .recordStart => if isLineEnd b then s else s.start b
  | .fieldStart => s.start b
  | .bareField => s.outside b
  | .quotedField => if b = quote then { s with phase := .afterQuote } else s.push b .quotedField
  | .afterQuote => if b = quote then s.push b .quotedField else s.outside b

/-- Takes one byte. -/
def step (s : Scan) (b : UInt8) : Scan := (s.advance b).take b

/-- All records found; what has begun is a record too. -/
def finish (s : Scan) : List RawRecord :=
  match s.phase with
  | .recordStart => s.records.reverse
  | _ => s.endRecord.records.reverse

end Scan

/-- The mark that a text is encoded as it is, at the front of a file. -/
def byteOrderMark : Bytes := [0xEF, 0xBB, 0xBF]

/-- The records of a file. A byte-order mark is passed over, but counts among the bytes. -/
def scan (content : Bytes) : List RawRecord :=
  let start : Scan :=
    if byteOrderMark.isPrefixOf content then
      (content.drop byteOrderMark.length).foldl Scan.step { byte := byteOrderMark.length }
    else content.foldl Scan.step {}
  start.finish

/-- Why a record cannot be read. Records are counted from the header, which is record zero. -/
inductive RecordError where
  | unequalLengths (number line byte found expected : Nat)
  /-- The bytes of a field are no text from the given place on. -/
  | notText (number line byte field place : Nat)
deriving DecidableEq, Repr

def RecordError.message : RecordError → String
  | unequalLengths number line byte found expected =>
    "CSV error: record " ++ toString number ++ " (line: " ++ toString line ++ ", byte: " ++
      toString byte ++ "): found record with " ++ toString found ++
      " fields, but the previous record has " ++ toString expected ++ " fields"
  | notText number line byte field place =>
    "CSV parse error: record " ++ toString number ++ " (line " ++ toString line ++ ", field: " ++
      toString field ++ ", byte: " ++ toString byte ++ "): invalid utf-8: invalid UTF-8 in field " ++
      toString field ++ " near byte index " ++ toString place

/-- The fields as texts. -/
def RawRecord.texts (r : RawRecord) (number : Nat) : Except RecordError (List String) :=
  r.fields.zipIdx.mapM fun (field, index) =>
    (Text.Utf8.decode field).mapError fun place => .notText number r.line r.byte index place

/-- A record after a header with `width` fields. -/
def RawRecord.row (r : RawRecord) (width? : Option Nat) (number : Nat) :
    Except RecordError (List String) :=
  match width? with
  | some width =>
    if r.fields.length ≠ width then
      .error (.unequalLengths number r.line r.byte r.fields.length width)
    else r.texts number
  | none => r.texts number

/-- The header; it has no fields when there is no record. -/
def header (records : List RawRecord) : Except RecordError (List String) :=
  match records with
  | [] => .ok []
  | r :: _ => r.texts 0

/-- The records after the header. -/
def rows (ragged : Bool) (records : List RawRecord) : Except RecordError (List (List String)) :=
  match records with
  | [] => .ok []
  | r :: rest =>
    (rest.zipIdx 1).mapM fun (row, number) =>
      row.row (if ragged then none else some r.fields.length) number

end SchemaTables.Csv
