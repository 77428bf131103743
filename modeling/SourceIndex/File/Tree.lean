import SourceIndex.File.Content

/-! File trees, and what is found in one at a path. A path is walked component by component from the top
of the tree; above the top, and at the root of absolute paths, lies a folder of which nothing is
known. -/

namespace SourceIndex

/-- A file with its bytes, or a folder with its entries. -/
inductive FileTree where
  | file (bytes : List UInt8)
  | folder (entries : List (Text × FileTree))

namespace FileTree

/-- The most bytes of a component. -/
def maxComponent : Nat := 255

/-- The most bytes of a path. -/
def maxPath : Nat := 4095

/-- The folder of which nothing is known. -/
def outside : FileTree :=
  .folder []

/-- Walks on from an entry; `above` are the folders over it, nearest first. -/
def walk (above : List FileTree) (here : FileTree) : List Text → Except FileError FileTree
  | [] => .ok here
  | part :: parts =>
    match here with
    | .file _ => .error .notFolder
    | .folder entries =>
      if part = ['.', '.'] then
        match above with
        | [] => walk [] outside parts
        | up :: above => walk above up parts
      else if maxComponent < Text.Utf8.size part then .error .nameTooLong
      else
        match entries.lookup part with
        | none => .error .missing
        | some entry => walk (here :: above) entry parts

def find (top : FileTree) (path : Path) : Except FileError FileTree :=
  if path.text.contains '\x00' then .error .embeddedNul
  else if maxPath < Text.Utf8.size path.text then .error .nameTooLong
  else walk [] (if path.root.isEmpty then top else outside) path.parts

def read (top : FileTree) : FileReader := fun path =>
  match top.find path with
  | .error e => .error e
  | .ok (.folder _) => .error .isFolder
  | .ok (.file bytes) => .ok bytes

/-- Puts an entry at the end of components, below folders that are made where there are none. -/
def put (entry : FileTree) : List Text → FileTree → FileTree
  | [], _ => entry
  | part :: parts, tree =>
    let entries := match tree with
      | .folder entries => entries
      | .file _ => []
    let below := put entry parts ((entries.lookup part).getD outside)
    .folder ((part, below) :: entries.filter (·.1 != part))

end FileTree

end SourceIndex
