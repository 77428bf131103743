import SourceIndex.Language.Spec

/-! The languages with a description, and the formats of prose. -/

namespace SourceIndex.Language

/-- Formats cut at blank lines instead of by their syntax. -/
def proseFormats : List String := ["markdown", "plaintext"]

/-- Whether a language is a format of prose. -/
def isProse (language : Option String) : Bool :=
  language.any proseFormats.contains

/-- Line comments from a hash sign. -/
private def hash : List Text := [['#']]

def javascript : LanguageSpec where
  grammar := ⟨"tree_sitter_javascript", "language"⟩
  pointsOfInterest := [
    "(class_declaration) @capture",
    "(function_declaration) @capture",
    "(variable_declarator value: (arrow_function)) @capture",
    "(export_statement) @capture",
    "(method_definition) @capture"]
  comments := ["(comment) @capture", "(decorator) @capture"]
  wrapperPolicy := [("export_statement", .parent)]

/-- TypeScript, with a variant for embedded markup. -/
def typescript : LanguageSpec where
  grammar := ⟨"tree_sitter_typescript", "language_typescript"⟩
  variants := [("tsx", ⟨"tree_sitter_typescript", "language_tsx"⟩)]
  pointsOfInterest := [
    "(internal_module) @capture",
    "(class_declaration) @capture",
    "(abstract_class_declaration) @capture",
    "(function_declaration) @capture",
    "(variable_declarator value: (arrow_function)) @capture",
    "(export_statement) @capture",
    "(method_definition) @capture",
    "(interface_declaration) @capture",
    "(type_alias_declaration) @capture",
    "(enum_declaration) @capture",
    "(module) @capture"]
  comments := ["(comment) @capture", "(decorator) @capture"]
  wrapperPolicy := [("export_statement", .parent)]

def python : LanguageSpec where
  grammar := ⟨"tree_sitter_python", "language"⟩
  pointsOfInterest := [
    "(decorated_definition) @capture",
    "(class_definition) @capture",
    "(function_definition) @capture"]
  comments := ["(comment) @capture", "(decorator) @capture"]
  wrapperPolicy := [("decorated_definition", .parent)]
  syntaxOfComments := ⟨hash, [], [[')'], [']'], ['}']]⟩

def java : LanguageSpec where
  grammar := ⟨"tree_sitter_java", "language"⟩
  pointsOfInterest := [
    "(class_declaration) @capture",
    "(interface_declaration) @capture",
    "(enum_declaration) @capture",
    "(record_declaration) @capture",
    "(method_declaration) @capture",
    "(constructor_declaration) @capture"]
  comments := [
    "(line_comment) @capture",
    "(block_comment) @capture",
    "(marker_annotation) @capture",
    "(annotation) @capture"]

/-- C++. A template header belongs to the construct it introduces. -/
def cpp : LanguageSpec where
  grammar := ⟨"tree_sitter_cpp", "language"⟩
  pointsOfInterest := [
    "(namespace_definition) @capture",
    "(template_declaration) @capture",
    "(class_specifier body: (field_declaration_list)) @capture",
    "(struct_specifier body: (field_declaration_list)) @capture",
    "(enum_specifier body: (enumerator_list)) @capture",
    "(function_definition) @capture",
    "(declaration declarator: (function_declarator)) @capture"]
  wrapperPolicy := [("template_declaration", .parent)]

def c : LanguageSpec where
  grammar := ⟨"tree_sitter_c", "language"⟩
  pointsOfInterest := [
    "(function_definition) @capture",
    "(declaration declarator: (function_declarator)) @capture",
    "(struct_specifier body: (field_declaration_list)) @capture",
    "(enum_specifier body: (enumerator_list)) @capture"]

def csharp : LanguageSpec where
  grammar := ⟨"tree_sitter_c_sharp", "language"⟩
  pointsOfInterest := [
    "(namespace_declaration) @capture",
    "(class_declaration) @capture",
    "(struct_declaration) @capture",
    "(interface_declaration) @capture",
    "(enum_declaration) @capture",
    "(record_declaration) @capture",
    "(delegate_declaration) @capture",
    "(method_declaration) @capture",
    "(constructor_declaration) @capture",
    "(property_declaration) @capture",
    "(destructor_declaration) @capture",
    "(operator_declaration) @capture"]
  comments := ["(comment) @capture", "(attribute_list) @capture"]

def go : LanguageSpec where
  grammar := ⟨"tree_sitter_go", "language"⟩
  pointsOfInterest := [
    "(package_clause) @capture",
    "(function_declaration) @capture",
    "(method_declaration) @capture",
    "(type_declaration) @capture"]

def ruby : LanguageSpec where
  grammar := ⟨"tree_sitter_ruby", "language"⟩
  pointsOfInterest := [
    "(class) @capture",
    "(module) @capture",
    "(method) @capture",
    "(singleton_method) @capture"]
  syntaxOfComments :=
    ⟨hash, [⟨['=', 'b', 'e', 'g', 'i', 'n'], ['=', 'e', 'n', 'd']⟩],
      [['e', 'n', 'd'], ['}'], [')'], [']']]⟩

def rust : LanguageSpec where
  grammar := ⟨"tree_sitter_rust", "language"⟩
  pointsOfInterest := [
    "(mod_item) @capture",
    "(struct_item) @capture",
    "(enum_item) @capture",
    "(trait_item) @capture",
    "(impl_item) @capture",
    "(function_item) @capture",
    "(function_signature_item) @capture"]
  comments := [
    "(line_comment) @capture",
    "(block_comment) @capture",
    "(attribute_item) @capture"]

/-- CSS, whose rules nest flatly. -/
def css : LanguageSpec where
  grammar := ⟨"tree_sitter_css", "language"⟩
  pointsOfInterest := [
    "(at_rule) @capture",
    "(media_statement) @capture",
    "(namespace_statement) @capture",
    "(keyframes_statement) @capture",
    "(rule_set) @capture"]
  outermostOnly := true
  syntaxOfComments := ⟨[], [CommentSyntax.cBlock], [['}']]⟩

def table : List (String × LanguageSpec) := [
  ("javascript", javascript),
  ("typescript", typescript),
  ("python", python),
  ("java", java),
  ("cpp", cpp),
  ("c", c),
  ("csharp", csharp),
  ("go", go),
  ("ruby", ruby),
  ("rust", rust),
  ("css", css)]

/-- The description of a language. -/
def spec? (language : Option String) : Option LanguageSpec :=
  language.bind (List.lookup · table)

/-- The comments and closing delimiters of a language; one without a description gets those of the
C family. -/
def commentSyntax (language : Option String) : CommentSyntax :=
  if isProse language then .prose
  else ((spec? language).map LanguageSpec.syntaxOfComments).getD .cFamily

end SourceIndex.Language
