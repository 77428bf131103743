import SourceIndex.File.Path
import SourceIndex.Text.Newline
import SourceIndex.Text.Quoted
import SourceIndex.Text.Utf8

/-! Contents of files: their bytes, their text, and why there may be none. -/

namespace SourceIndex

/-- Why a file cannot be read. -/
inductive FileError where
  | embeddedNul
  | missing
  | notFolder
  | isFolder
  | nameTooLong
  deriving DecidableEq, Repr

def FileError.message (path : Path) : FileError → String
  | .embeddedNul => "embedded null byte"
  | .missing => "[Errno 2] No such file or directory: " ++ shown
  | .notFolder => "[Errno 20] Not a directory: " ++ shown
  | .isFolder => "[Errno 21] Is a directory: " ++ shown
  | .nameTooLong => "[Errno 36] File name too long: " ++ shown
where
  shown : String := String.ofList (Text.quote path.text)

/-- What reads files: the bytes of the file at each path. -/
abbrev FileReader := Path → Except FileError (List UInt8)

namespace FileReader

/-- The text of the file at a path, whatever its bytes and line ends are. -/
def text (read : FileReader) (path : Path) : Except FileError Text :=
  (read path).map fun bytes => Text.unifyNewlines (Text.Utf8.decodeLenient bytes)

/-- Whether there is a file at a path. A path that is too long is no answer. -/
def isFile (read : FileReader) (path : Path) : Except FileError Bool :=
  match read path with
  | .ok _ => .ok true
  | .error .nameTooLong => .error .nameTooLong
  | .error _ => .ok false

end FileReader

end SourceIndex
