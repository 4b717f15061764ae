import Telemetry.Collector.StreamRecord
import Telemetry.Document.Text

/-!
Replay files: stream records, one in each line. Lines that hold no record, or one that is not
accepted, are passed over. A line that is no text ends the replay.
-/

namespace Telemetry.Collector

namespace Replay

/-- Cuts bytes into lines at line feeds. Nothing after the last line feed is no line. -/
def splitLines : List UInt8 → List (List UInt8)
  | [] => []
  | byte :: rest =>
      if byte = 10 then [] :: splitLines rest
      else
        match splitLines rest with
        | [] => [[byte]]
        | line :: lines => (byte :: line) :: lines

def lineText? (line : List UInt8) : Option String :=
  String.fromUTF8? ⟨line.toArray⟩

def record? (text : String) : Option StreamRecord :=
  (Document.parse? text).bind StreamRecord.decode?

variable {σ : Type}

/-- Hands the records of lines to a consumer and counts those that it accepts. Without a count the
replay came upon a line that is no text.
-/
def feed (accept : StreamRecord → σ → Except Error Unit × σ) (count : Nat)
    : List (List UInt8) → σ → Option Nat × σ
  | [], state => (some count, state)
  | line :: rest, state =>
      match lineText? line with
      | none => (none, state)
      | some text =>
          match record? text with
          | none => feed accept count rest state
          | some record =>
              match accept record state with
              | (.ok _, state) => feed accept (count + 1) rest state
              | (.error _, state) => feed accept count rest state

/-- Replays the content of a file. -/
def run (accept : StreamRecord → σ → Except Error Unit × σ) (content : List UInt8) (state : σ)
    : Option Nat × σ :=
  feed accept 0 (splitLines content) state

end Replay

end Telemetry.Collector
