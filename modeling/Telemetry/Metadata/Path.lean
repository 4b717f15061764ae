import Telemetry.Error

/-!
Paths of the metadata store. The text of a path up to its third slash is the group, the rest is
the key within the group.
-/

namespace Telemetry.Metadata

/-- A group and a key within it. -/
structure Path where
  group : String
  key : String
  deriving DecidableEq

namespace Path

/-- The characters up to a slash after so many others, and the rest if there is that slash. -/
def splitAtSlash : Nat → List Char → List Char × Option (List Char)
  | _, [] => ([], none)
  | count, c :: rest =>
      if c = '/' then
        match count with
        | 0 => ([], some rest)
        | left + 1 =>
            let (before, after) := splitAtSlash left rest
            (c :: before, after)
      else
        let (before, after) := splitAtSlash count rest
        (c :: before, after)

/-- Reads a path, which must have at least three segments. Without a third slash its key is
empty.
-/
def parse (text : String) : Except MetadataError Path :=
  if text.toList.count '/' < 2 then .error (.tooFewSegments text)
  else
    let (group, key) := splitAtSlash 2 text.toList
    .ok ⟨String.ofList group, String.ofList (key.getD [])⟩

/-- Reads a path that can hold a value, which must have a key. -/
def parseKeyed (text : String) : Except MetadataError Path := do
  let path ← parse text
  if path.key = "" then throw (.noKey text) else return path

def text (path : Path) : String :=
  path.group ++ "/" ++ path.key

end Path

def startsWith (text start : String) : Bool :=
  start.toList.isPrefixOf text.toList

end Telemetry.Metadata
