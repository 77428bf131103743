import SourceIndex.CommandLine.Arguments
import SourceIndex.CommandLine.Summary
import SourceIndex.Settings.Basic

/-! Running a command line: the request is read, the file is looked for, and its summary is printed. An
error becomes a line of complaint and an exit code. -/

namespace SourceIndex.CommandLine

open Chunking (Chunker)
open SourceIndex.Embedding (Service)

/-- What the commands run against: the settings, the files, the tokenizers and models that can be
loaded, the way to find breakpoints, the executors, and the number of cores that were found. -/
structure Setup where
  settings : Settings
  read : FileReader
  tokenizer : Nat → Except String Token.Tokenizer
  extract : Chunking.Extractor
  source : Embedding.ModelSource
  site : Embedding.Site
  cores : Option Int := none

/-- An estimator as it was asked for; what is void is missing. -/
structure Sizing where
  model : Option Text
  contextLength : Option Int
  modelPath : Text
  deriving DecidableEq, Repr

/-- What came of a command line: the exit code, what is printed, the complaint, the estimators that were
asked for, and the models that were loaded. -/
structure Report where
  exit : Nat
  output : Text := []
  complaint : Text := []
  estimators : List Sizing := []
  loads : List Embedding.ModelRef := []

def line (s : String) : Text :=
  s.toList ++ ['\n']

/-- How a level of the command line is used. -/
def usage (l : Level) : String :=
  let options := l.options.map fun o => " [" ++ "|".intercalate o.names ++ "]"
  "usage: " ++ l.program ++ String.join options ++ " " ++ l.operand

def levelOf (program : String) : Level :=
  ((Command.all.map Command.level).find? (·.program == program)).getD mainLevel

/-- The report of a command line that asks for nothing. -/
def Refusal.report (r : Refusal) : Report :=
  match r.halt with
  | .help => { exit := 0, output := line (usage (levelOf r.program)) }
  | .usage cause => { exit := 2, complaint := line (r.program ++ ": error: " ++ cause.message) }

def failureReport (message : String) (estimators : List Sizing) : Report :=
  { exit := 1, complaint := line ("Error: " ++ message), estimators }

def Request.sizing (r : Request) (s : Settings) : Sizing where
  model := r.model.orDefault s.model
  contextLength := r.contextLength.orDefault s.contextLength
  modelPath := s.modelPath

/-- How a void value is written. -/
def voidText : String := "[]"

/-- Why there is no estimator. -/
inductive SizingError where
  | void
  | context (cause : Token.ContextError)
  deriving DecidableEq, Repr

def SizingError.message : SizingError → String
  | .void => "'<=' not supported between instances of 'list' and 'int'"
  | .context cause => cause.message

def Setup.chunker (x : Setup) (sizing : Sizing) : Except SizingError Chunker :=
  match sizing.contextLength with
  | none => .error .void
  | some contextLength =>
    match Token.Estimator.create contextLength none x.tokenizer with
    | .error cause => .error (.context cause)
    | .ok estimator => .ok { estimator, extract := x.extract, filter := x.settings.filter }

/-- The document of a request: a language that is not given, or is empty or void, follows from the
path. -/
def Request.document (r : Request) (text : Text) : Chunking.Document :=
  match r.language with
  | .value (c :: cs) => ⟨text, some (String.ofList (c :: cs)), none⟩
  | _ =>
    match Language.detect? r.file with
    | some found => ⟨text, some found.language, found.variant⟩
    | none => ⟨text, none, none⟩

def runChunk (x : Setup) (r : Request) : Report :=
  let path := Path.ofText r.file
  match x.read.text path with
  | .error cause => failureReport (cause.message path) []
  | .ok text =>
    let sizing := r.sizing x.settings
    match x.chunker sizing with
    | .error cause => failureReport cause.message [sizing]
    | .ok chunker =>
      let document := r.document text
      match (chunker.chunk document none).result with
      | .error reason => failureReport reason.message [sizing]
      | .ok chunks =>
        let summary := cutSummary r.file document.language chunks
        { exit := 0, output := summary.pretty ++ ['\n'], estimators := [sizing] }

def Setup.service (x : Setup) (sizing : Sizing) : Except Settings.CoreOverflow Service :=
  (x.settings.workerCount x.cores).map fun slots =>
    let name := (sizing.model.map String.ofList).getD voidText
    let model : Embedding.ModelRef := ⟨name, String.ofList sizing.modelPath⟩
    { site := x.site
      worker := { source := x.source }
      workload := { pool := { model, options := x.settings.options, slots } } }

/-- The file of a request; `language` is the language that is given. -/
def Request.sourceFile (r : Request) (language : Option String) : Indexing.SourceFile where
  id := r.file
  path := r.file
  language := language

/-- What is told where a void language would have to be looked up. -/
def voidLanguageMessage : String := "unhashable type: 'list'"

/-- What comes of a file whose language is void: nothing if the file is blank, else a failure, which may
be one of other causes. -/
def indexVoid (chunker : Chunker) (read : FileReader) (file : Indexing.SourceFile) :
    Indexing.Indexed :=
  match file.text read with
  | .error message => { id := file.id, ending := .failed message }
  | .ok text =>
    if Text.isBlank text then { id := file.id }
    else
      match (chunker.chunk ⟨text, none, none⟩ none).result with
      | .error reason => { id := file.id, ending := .failed reason.message }
      | .ok _ => { id := file.id, ending := .failed voidLanguageMessage }

def Request.index (r : Request) (x : Indexing.Indexer) (read : FileReader) :
    Option Indexing.Indexed × Indexing.Indexer :=
  match r.language with
  | .absent => x.index read (r.sourceFile none) none
  | .void => (some (indexVoid x.chunker read (r.sourceFile none)), x)
  | .value language => x.index read (r.sourceFile (String.ofList language)) none

/-- Cuts a file and embeds its chunks. A run whose executor is shut down under it prints nothing. -/
def runEmbed (x : Setup) (r : Request) : Report :=
  let sizing := r.sizing x.settings
  match x.chunker sizing with
  | .error cause => failureReport cause.message [sizing]
  | .ok chunker =>
    match x.service sizing with
    | .error cause => failureReport cause.message [sizing]
    | .ok service =>
      let (answer, service) := service.within fun service =>
        let (indexed, indexer) := r.index ⟨chunker, service⟩ x.read
        (indexed, indexer.service)
      let report : Report := match answer with
        | .error cause => failureReport cause.message [sizing]
        | .ok none => { exit := 1, estimators := [sizing] }
        | .ok (some indexed) =>
          let summary := indexSummary r.file indexed
          { exit := 0, output := summary.pretty ++ ['\n'], estimators := [sizing] }
      { report with loads := service.worker.loads }

/-- Runs a request, if there is a file that it is about. -/
def runRequest (x : Setup) (r : Request) : Except String Report :=
  let path := Path.ofText r.file
  match x.read.isFile path with
  | .error cause => .error (cause.message path)
  | .ok false =>
    .ok { exit := 1, complaint := line ("No such file: " ++ String.ofList r.file) }
  | .ok true =>
    .ok <| match r.command with
      | .chunk => runChunk x r
      | .embed => runEmbed x r

/-- Runs a command line. There is no report if it cannot even be told whether the file is there. -/
def run (x : Setup) (words : List Text) : Except String Report :=
  match request words with
  | .error refusal => .ok refusal.report
  | .ok r => runRequest x r

end SourceIndex.CommandLine
