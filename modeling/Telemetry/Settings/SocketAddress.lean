import Telemetry.Text.Hex

/-!
Socket addresses: a dotted IPv4 address or a bracketed IPv6 address, with a port. Addresses are
written in their canonical form, the longest run of zero groups compressed.
-/

namespace Telemetry.Settings

/-- An address and a port. Groups are the eight 16-bit parts of an IPv6 address. -/
inductive SocketAddress where
  | ipv4 (octets : List Nat) (port : Nat)
  | ipv6 (groups : List Nat) (scope : Nat) (port : Nat)
  deriving DecidableEq

namespace SocketAddress

def digitValue? (radix : Nat) (c : Char) : Option Nat :=
  (Text.hexDigit? c).filter (· < radix)

/-- The digits at the start of a text, and the rest. -/
def takeDigits (radix : Nat) (text : List Char) : List Nat × List Char :=
  let isDigit (c : Char) : Bool := (digitValue? radix c).isSome
  ((text.takeWhile isDigit).filterMap (digitValue? radix), text.dropWhile isDigit)

/-- Reads a number of at least one digit that does not exceed a bound. -/
def number? (radix bound : Nat) (text : List Char) : Option (Nat × List Char) :=
  let (digits, rest) := takeDigits radix text
  let value := digits.foldl (fun acc digit => acc * radix + digit) 0
  if digits ≠ [] ∧ value ≤ bound then some (value, rest) else none

/-- Reads a number of one to three digits up to 255, without leading zeros. -/
def octet? (text : List Char) : Option (Nat × List Char) :=
  let (digits, _) := takeDigits 10 text
  if digits.length ≤ 3 ∧ (digits.head? ≠ some 0 ∨ digits.length = 1) then number? 10 255 text
  else none

/-- Reads a group of one to four hexadecimal digits. -/
def group? (text : List Char) : Option (Nat × List Char) :=
  if (takeDigits 16 text).1.length ≤ 4 then number? 16 65535 text else none

/-- Reads a character that must come next. -/
def char? (c : Char) : List Char → Option (List Char)
  | [] => none
  | first :: rest => if first = c then some rest else none

/-- Reads four octets with points between them. -/
def octets? (text : List Char) : Option (List Nat × List Char) := do
  let (a, rest) ← octet? text
  let (b, rest) ← octet? (← char? '.' rest)
  let (c, rest) ← octet? (← char? '.' rest)
  let (d, rest) ← octet? (← char? '.' rest)
  some ([a, b, c, d], rest)

/-- Skips the colon before every group but the first. -/
def separator? (isFirst : Bool) (text : List Char) : Option (List Char) :=
  if isFirst then some text else char? ':' text

/-- Reads up to `limit` groups. Four octets may stand for the last two of them; whether they did
is part of the answer.
-/
def groups (limit : Nat) (isFirst : Bool) (text : List Char) : List Nat × Bool × List Char :=
  match limit with
  | 0 => ([], false, text)
  | left + 1 =>
      let embedded := if left = 0 then none else (separator? isFirst text).bind octets?
      match embedded with
      | some ([a, b, c, d], rest) => ([a * 256 + b, c * 256 + d], true, rest)
      | _ =>
          match (separator? isFirst text).bind group? with
          | none => ([], false, text)
          | some (group, rest) =>
              let (later, ended, rest) := groups left false rest
              (group :: later, ended, rest)

/-- Reads eight groups, or fewer with a double colon in place of the zero groups between. -/
def ipv6Groups? (text : List Char) : Option (List Nat × List Char) := do
  let (head, ended, rest) := groups 8 true text
  if head.length = 8 then some (head, rest)
  else if ended then none
  else
    let rest ← char? ':' (← char? ':' rest)
    let (tail, _, rest) := groups (7 - head.length) true rest
    some (head ++ List.replicate (8 - head.length - tail.length) 0 ++ tail, rest)

/-- Reads a port up to the end of the text. -/
def port? (text : List Char) : Option Nat := do
  let (port, rest) ← number? 10 65535 (← char? ':' text)
  if rest.isEmpty then some port else none

/-- Reads the scope of an IPv6 address, zero if there is none. -/
def scope? (text : List Char) : Option (Nat × List Char) :=
  match text with
  | '%' :: rest => number? 10 (2 ^ 32 - 1) rest
  | rest => some (0, rest)

/-- Reads an IPv4 address with a port. -/
def parseIpv4? (text : List Char) : Option SocketAddress := do
  let (octets, rest) ← octets? text
  some (.ipv4 octets (← port? rest))

/-- Reads a bracketed IPv6 address with a port. -/
def parseIpv6? (text : List Char) : Option SocketAddress := do
  let (groups, rest) ← ipv6Groups? (← char? '[' text)
  let (scope, rest) ← scope? rest
  some (.ipv6 groups scope (← port? (← char? ']' rest)))

def parse? (text : String) : Option SocketAddress :=
  parseIpv4? text.toList <|> parseIpv6? text.toList

/-- The start and length of the longest run of zero groups, the first of equal ones. -/
def longestZeroRun (groups : List Nat) : Nat × Nat :=
  let runs := (List.range groups.length).map fun start =>
    (start, ((groups.drop start).takeWhile (· == 0)).length)
  runs.foldl (fun best run => if best.2 < run.2 then run else best) (0, 0)

/-- Four octets with points between them. -/
def octetsText (octets : List Nat) : String :=
  ".".intercalate (octets.map toString)

/-- Groups with colons between them. -/
def groupsText (groups : List Nat) : String :=
  ":".intercalate (groups.map fun group => String.ofList (Nat.toDigits 16 group))

/-- The groups of an IPv6 address in canonical form. -/
def ipv6Text (groups : List Nat) : String :=
  match groups with
  | [0, 0, 0, 0, 0, 65535, high, low] =>
      "::ffff:" ++ octetsText [high / 256, high % 256, low / 256, low % 256]
  | groups =>
      let (start, length) := longestZeroRun groups
      if 1 < length then
        groupsText (groups.take start) ++ "::" ++ groupsText (groups.drop (start + length))
      else groupsText groups

/-- The canonical text of an address. -/
def text : SocketAddress → String
  | ipv4 octets port => octetsText octets ++ ":" ++ toString port
  | ipv6 groups scope port =>
      "[" ++ ipv6Text groups ++ (if scope = 0 then "" else "%" ++ toString scope) ++ "]:"
        ++ toString port

end SocketAddress

end Telemetry.Settings
