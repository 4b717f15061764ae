import Telemetry.Document.Value

/-!
Reading values from JSON texts. A text is cut into tokens by a scanner that looks at one
character at a time, and the tokens build the value on a stack of open containers.
-/

namespace Telemetry.Document

namespace Number

/-- The digits of a number that fit an unsigned 64-bit word, and the power of ten left over. -/
structure Scaled where
  digits : Nat
  exponent : Int

/-- The greatest number of which digits are kept. -/
def limit : Nat := 2 ^ 64 - 1

/-- The number of a digit. -/
def digitValue (c : Char) : Nat :=
  c.toNat - '0'.toNat

/-- Reads the digits before the point; digits that no longer fit count as powers of ten. -/
def readWhole : List Char → Scaled → Scaled
  | [], acc => acc
  | c :: rest, acc =>
      let next := acc.digits * 10 + digitValue c
      if acc.exponent = 0 ∧ next ≤ limit then readWhole rest ⟨next, 0⟩
      else readWhole rest ⟨acc.digits, acc.exponent + 1⟩

/-- Reads the digits after the point; the first that no longer fits ends them. -/
def readFraction : List Char → Scaled → Scaled
  | [], acc => acc
  | c :: rest, acc =>
      let next := acc.digits * 10 + digitValue c
      if next ≤ limit then readFraction rest ⟨next, acc.exponent - 1⟩ else acc

/-- The double of digits times a power of ten, by steps that a double can hold. A number beyond
the range of doubles has none.
-/
def scale? (value : Double) (exponent : Int) : Option Double :=
  if value.magnitude = 0 then some value
  else if 308 < exponent then none
  else if exponent < -308 then scale? (value.scaleByPowerOfTen (-308)) (exponent + 308)
  else
    let scaled := value.scaleByPowerOfTen exponent
    if scaled.isFinite then some scaled else none
termination_by (-exponent).toNat

/-- The parts of a number token. -/
structure Parts where
  negative : Bool
  whole : List Char
  fraction : Option (List Char)
  exponent : Option (Bool × List Char)

/-- Takes a minus sign off a text, if there is one. -/
def cutSign : List Char → Bool × List Char
  | '-' :: rest => (true, rest)
  | rest => (false, rest)

/-- Takes a point and the digits after it off a text, if there is one. -/
def cutFraction : List Char → Option (List Char) × List Char
  | '.' :: rest => (some (rest.takeWhile Char.isDigit), rest.dropWhile Char.isDigit)
  | rest => (none, rest)

/-- The exponent that a text gives, which may have none but nothing else. -/
def exponent? : List Char → Option (Option (Bool × List Char))
  | [] => some none
  | mark :: rest => do
      guard (mark = 'e' ∨ mark = 'E')
      let (down, digits) := if rest.head? = some '+' then (false, rest.tail) else cutSign rest
      guard (digits ≠ [] ∧ digits.all Char.isDigit)
      some (some (down, digits))

/-- Cuts a number token into its parts, if it follows the grammar. -/
def parts? (token : List Char) : Option Parts := do
  let (negative, rest) := cutSign token
  let whole := rest.takeWhile Char.isDigit
  guard (whole ≠ [] ∧ (whole.head? ≠ some '0' ∨ whole.length = 1))
  let (fraction, rest) := cutFraction (rest.dropWhile Char.isDigit)
  guard (fraction ≠ some [])
  some ⟨negative, whole, fraction, ← exponent? rest⟩

/-- The number of a list of decimal digits. -/
def natOfDigits (digits : List Char) : Nat :=
  digits.foldl (fun acc c => acc * 10 + digitValue c) 0

/-- The power of ten that the exponent of a number stands for. -/
def Parts.shift (parts : Parts) : Int :=
  match parts.exponent with
  | none => 0
  | some (down, digits) => if down then -(natOfDigits digits : Int) else natOfDigits digits

/-- The value of a number token: an integer if it has neither fraction nor exponent and fits a
64-bit word, else a double. Negative zero is a double.
-/
def read? (token : List Char) : Option Value := do
  let parts ← parts? token
  let number := natOfDigits parts.whole
  let exact := parts.fraction.isNone && parts.exponent.isNone
    && if parts.negative then 0 < number && number ≤ 2 ^ 63 else number ≤ limit
  if exact then some (.int (if parts.negative then -number else number))
  else
    let whole := readWhole parts.whole ⟨0, 0⟩
    let scaled := readFraction (parts.fraction.getD []) whole
    let value ← scale? (.ofInt scaled.digits) (scaled.exponent + parts.shift)
    some (.float (if parts.negative then value.negate else value))

end Number

inductive Token where
  | beginList | endList | beginObject | endObject | comma | colon
  | text (text : String)
  | literal (value : Value)

/-- What the scanner is inside of. A text keeps its characters in reverse; a surrogate is the
first half of a character that two escapes spell.
-/
inductive Scan where
  | between
  | word (chars : List Char)
  | text (chars : List Char) (surrogate : Option Nat)
  | escape (chars : List Char) (surrogate : Option Nat)
  | hex (chars : List Char) (surrogate : Option Nat) (left : Nat) (value : Nat)

namespace Scan

/-- The value that a word of letters, digits, signs and points stands for. -/
def readWord? (chars : List Char) : Option Value :=
  match String.ofList chars with
  | "null" => some .null
  | "true" => some (.bool true)
  | "false" => some (.bool false)
  | _ => Number.read? chars

/-- Whether a character belongs to a word. -/
def isWordChar (c : Char) : Bool :=
  c.isAlphanum || c = '-' || c = '+' || c = '.'

/-- The character that an escape of one letter stands for. -/
def simpleEscape? : Char → Option Char
  | '"' => some '"'
  | '\\' => some '\\'
  | '/' => some '/'
  | 'b' => some '\x08'
  | 'f' => some '\x0c'
  | 'n' => some '\n'
  | 'r' => some '\r'
  | 't' => some '\t'
  | _ => none

/-- Ends a numeric escape. A first half waits for its second half, which cannot stand alone. -/
def endEscape (chars : List Char) (surrogate : Option Nat) (value : Nat) : Option Scan :=
  match surrogate with
  | none =>
      if 0xdc00 ≤ value ∧ value ≤ 0xdfff then none
      else if 0xd800 ≤ value ∧ value ≤ 0xdbff then some (.text chars (some value))
      else some (.text (Char.ofNat value :: chars) none)
  | some first =>
      if 0xdc00 ≤ value ∧ value ≤ 0xdfff then
        some (.text (Char.ofNat (0x10000 + (first - 0xd800) * 0x400 + (value - 0xdc00)) :: chars)
          none)
      else none

/-- One character between tokens. -/
def startToken (tokens : List Token) (c : Char) : Option (List Token × Scan) :=
  match c with
  | ' ' | '\n' | '\r' | '\t' => some (tokens, .between)
  | '[' => some (.beginList :: tokens, .between)
  | ']' => some (.endList :: tokens, .between)
  | '\x7b' => some (.beginObject :: tokens, .between)
  | '\x7d' => some (.endObject :: tokens, .between)
  | ',' => some (.comma :: tokens, .between)
  | ':' => some (.colon :: tokens, .between)
  | '"' => some (tokens, .text [] none)
  | c => if isWordChar c then some (tokens, .word [c]) else none

/-- One character of the text. Tokens are kept in reverse. -/
def step (state : List Token × Scan) (c : Char) : Option (List Token × Scan) :=
  let (tokens, scan) := state
  match scan with
  | .between => startToken tokens c
  | .word chars =>
      if isWordChar c then some (tokens, .word (c :: chars))
      else do startToken (.literal (← readWord? chars.reverse) :: tokens) c
  | .text chars surrogate =>
      if c = '\\' then some (tokens, .escape chars surrogate)
      else if surrogate.isSome ∨ c.toNat < 32 then none
      else if c = '"' then some (.text (String.ofList chars.reverse) :: tokens, .between)
      else some (tokens, .text (c :: chars) none)
  | .escape chars surrogate =>
      if c = 'u' then some (tokens, .hex chars surrogate 4 0)
      else if surrogate.isSome then none
      else do some (tokens, .text ((← simpleEscape? c) :: chars) none)
  | .hex chars surrogate left value => do
      let value := value * 16 + (← Text.hexDigit? c)
      if left ≤ 1 then some (tokens, ← endEscape chars surrogate value)
      else some (tokens, .hex chars surrogate (left - 1) value)

end Scan

def tokens? (text : List Char) : Option (List Token) := do
  let (tokens, scan) ← text.foldlM Scan.step ([], .between)
  match scan with
  | .between => some tokens.reverse
  | .word chars => some (.literal (← Scan.readWord? chars.reverse) :: tokens).reverse
  | _ => none

/-- A container that is still open, with its contents in reverse. -/
inductive Frame where
  | list (items : List Value)
  | object (fields : List (String × Value)) (name : String)

/-- What may come next. -/
inductive Expect where
  | value
  | itemOrEnd
  | nameOrEnd (fields : List (String × Value))
  | name (fields : List (String × Value))
  | colon (fields : List (String × Value)) (name : String)
  | separator
  | nothing (result : Value)

namespace Frame

/-- The greatest number of containers that a reader has open at a time. -/
def depthLimit : Nat := 127

/-- Hands a finished value to the innermost open container. -/
def deliver (stack : List Frame) (value : Value) : List Frame × Expect :=
  match stack with
  | [] => ([], .nothing value)
  | .list items :: rest => (.list (value :: items) :: rest, .separator)
  | .object fields name :: rest => (.object ((name, value) :: fields) name :: rest, .separator)

/-- Whether a limit, if there is one, allows for one more open container. -/
def hasRoom (limit : Option Nat) (stack : List Frame) : Bool :=
  limit.all (stack.length < ·)

/-- Starts a value at a token. -/
def start (limit : Option Nat) (stack : List Frame) (token : Token)
    : Option (List Frame × Expect) :=
  match token with
  | .text text => some (deliver stack (.text text))
  | .literal value => some (deliver stack value)
  | .beginList => if hasRoom limit stack then some (.list [] :: stack, .itemOrEnd) else none
  | .beginObject => if hasRoom limit stack then some (stack, .nameOrEnd []) else none
  | _ => none

/-- One token. -/
def step (limit : Option Nat) (state : List Frame × Expect) (token : Token)
    : Option (List Frame × Expect) :=
  let (stack, expect) := state
  match expect, token with
  | .value, token => start limit stack token
  | .itemOrEnd, .endList => some (deliver stack.tail (.list []))
  | .itemOrEnd, token => start limit stack token
  | .nameOrEnd _, .endObject => some (deliver stack (.object []))
  | .nameOrEnd fields, .text name => some (stack, .colon fields name)
  | .name fields, .text name => some (stack, .colon fields name)
  | .colon fields name, .colon => some (.object fields name :: stack, .value)
  | .separator, .comma =>
      match stack with
      | .object fields _ :: rest => some (rest, .name fields)
      | .list items :: rest => some (.list items :: rest, .value)
      | [] => none
  | .separator, .endList =>
      match stack with
      | .list items :: rest => some (deliver rest (.list items.reverse))
      | _ => none
  | .separator, .endObject =>
      match stack with
      | .object fields _ :: rest => some (deliver rest (.object fields.reverse))
      | _ => none
  | _, _ => none

end Frame

/-- The value of a JSON text that holds nothing else, with no more containers within each other
than a limit allows.
-/
def parse? (text : String) (limit : Option Nat := some Frame.depthLimit) : Option Value := do
  let tokens ← tokens? text.toList
  let (_, expect) ← tokens.foldlM (Frame.step limit) ([], .value)
  match expect with
  | .nothing value => some value
  | _ => none

end Telemetry.Document

namespace Telemetry

/-- A JSON text, as values are handed from one part of a program to another. -/
structure Json where
  text : String
  deriving DecidableEq

def Value.json (value : Value) : Json :=
  ⟨value.render⟩

namespace Json

def value? (json : Json) : Option Value :=
  Document.parse? json.text

/-- The value of a text as far as fields of it are concerned that the reader skips: these may nest
as deep as they like.
-/
def skimmed? (json : Json) : Option Value :=
  Document.parse? json.text none

/-- A text stands for its value, and for null if it has none. -/
instance : Coe Json Value where
  coe json := json.value?.getD .null

end Json

end Telemetry
