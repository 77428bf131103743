import SourceIndex.File.Path
import SourceIndex.Text.Lower

/-! The language of a file by the suffix of its path. -/

namespace SourceIndex.Language

/-- A language and the variant of it that a file holds. -/
structure Detected where
  language : String
  variant : Option String := none
  deriving DecidableEq, Repr

/-- The suffixes of each language. -/
def suffixes : List (String × Detected) := [
  (".py", ⟨"python", none⟩), (".pyw", ⟨"python", none⟩), (".pyi", ⟨"python", none⟩),
  (".js", ⟨"javascript", none⟩), (".mjs", ⟨"javascript", none⟩),
  (".cjs", ⟨"javascript", none⟩), (".jsx", ⟨"javascript", none⟩),
  (".ts", ⟨"typescript", none⟩), (".mts", ⟨"typescript", none⟩),
  (".cts", ⟨"typescript", none⟩), (".tsx", ⟨"typescript", some "tsx"⟩),
  (".java", ⟨"java", none⟩), (".c", ⟨"c", none⟩),
  (".cpp", ⟨"cpp", none⟩), (".cc", ⟨"cpp", none⟩), (".cxx", ⟨"cpp", none⟩),
  (".h", ⟨"cpp", none⟩), (".hpp", ⟨"cpp", none⟩),
  (".cs", ⟨"csharp", none⟩), (".go", ⟨"go", none⟩), (".rb", ⟨"ruby", none⟩),
  (".rs", ⟨"rust", none⟩), (".css", ⟨"css", none⟩),
  (".md", ⟨"markdown", none⟩), (".markdown", ⟨"markdown", none⟩),
  (".txt", ⟨"plaintext", none⟩), (".rst", ⟨"plaintext", none⟩)]

/-- The language of the file at a path; the case of the suffix does not matter. -/
def detect? (path : Text) : Option Detected :=
  suffixes.lookup (String.ofList (Text.lower (Path.ofText path).suffix))

end SourceIndex.Language
