import SourceIndex.Json.Printer
import SourceIndex.Json.Reader
import SourceIndex.Text.Utf8

/-! Settings files: where they are, how they are written and how they are read. A file that holds no
object counts as one without members. -/

namespace SourceIndex.Settings

/-- The members of a settings file. -/
abbrev Members := List (List Nat × Json)

/-- Why a settings file cannot be read. -/
inductive StoreError where
  | encoding (cause : Text.Utf8.DecodeError)
  | tooManyDigits (count : Nat)
  | tooDeep (container : Json.Container)
  deriving DecidableEq, Repr

/-- What is told of an ill-formed unit. -/
def defectMessage : Text.Utf8.Defect → String
  | .invalidStart => "invalid start byte"
  | .invalidContinuation => "invalid continuation byte"
  | .truncated => "unexpected end of data"

def StoreError.message : StoreError → String
  | .encoding e =>
    let place := match e.bytes with
      | [b] => s!"byte 0x{String.ofList (Text.hexDigits 2 b.toNat)} in position {e.position}"
      | bytes => s!"bytes in position {e.position}-{e.position + bytes.length - 1}"
    "'utf-8' codec can't decode " ++ place ++ ": " ++ defectMessage e.defect
  | .tooManyDigits count => Text.tooManyDigitsMessage count
  | .tooDeep container =>
    let name := match container with
      | .array => "array"
      | .object => "object"
    s!"maximum recursion depth exceeded while decoding a JSON {name} from a unicode string"

/-- The text of a settings file. -/
def storeText (members : Members) : Text :=
  Json.pretty (.object members) ++ ['\n']

/-- The bytes of a settings file. -/
def store (members : Members) : List UInt8 :=
  Text.Utf8.encode (storeText members)

/-- The members that a settings file holds. There is room for as many levels of arrays and objects
inside the outermost one. -/
def restore (room : Nat) (bytes : List UInt8) : Except StoreError Members :=
  match Text.Utf8.decode bytes with
  | .error cause => .error (.encoding cause)
  | .ok t =>
    match Json.read room t with
    | .ok (.object members) => .ok members
    | .ok _ | .error .malformed => .ok []
    | .error (.tooManyDigits count) => .error (.tooManyDigits count)
    | .error (.tooDeep container) => .error (.tooDeep container)

/-- The folder of the settings file under the home folder, unless the environment names another. -/
def folderName : String := ".codeembed"

def fileName : String := "config.json"

end SourceIndex.Settings
