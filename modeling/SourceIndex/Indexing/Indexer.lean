import SourceIndex.Chunking.Chunker
import SourceIndex.Embedding.Service
import SourceIndex.File.Content
import SourceIndex.Language.Detection

/-! Indexing of files: a file is read, its language is found, its text is cut into chunks, and each
chunk is embedded. -/

namespace SourceIndex.Indexing

open Chunking (Chunk Chunker)
open SourceIndex.Embedding (Service Interventions)

/-- A file to be indexed, with its text unless that is to be read. A language that is given is not
looked for. -/
structure SourceFile where
  id : Text
  path : Text
  content : Option Text := none
  language : Option String := none
  variant : Option String := none

/-- How the indexing of a file ended. -/
inductive Ending where
  | done
  | cancelled
  | failed (message : String)
  deriving DecidableEq, Repr

/-- What is told of an end that is not the desired one. -/
def Ending.message? : Ending → Option String
  | .done => none
  | .cancelled => some Chunking.cancelledMessage
  | .failed message => some message

/-- The chunks of a file, and what came of each if they were embedded. -/
structure Indexed where
  id : Text
  chunks : List Chunk := []
  results : List Embedding.Result := []
  ending : Ending := .done

/-- How many chunks have no vector. -/
def Indexed.failedCount (x : Indexed) : Nat :=
  x.results.countP fun r => r.message?.isSome

/-- A chunker and a service to embed what it cuts. -/
structure Indexer where
  chunker : Chunker
  service : Service

/-- The text of a file, which is read if it is not given. -/
def SourceFile.text (read : FileReader) (file : SourceFile) : Except String Text :=
  match file.content with
  | some t => .ok t
  | none =>
    let path := Path.ofText file.path
    (read.text path).mapError (FileError.message path)

/-- The variant to go with a language that was found: the given one, unless it is empty. -/
def chooseVariant (given : Option String) (found : Option String) : Option String :=
  match given with
  | none | some "" => found
  | some v => some v

/-- The document of a file: a language that is not given follows from the path. -/
def SourceFile.document (file : SourceFile) (text : Text) : Chunking.Document :=
  match file.language, Language.detect? file.path with
  | none, some found => ⟨text, some found.language, chooseVariant file.variant found.variant⟩
  | language, _ => ⟨text, language, file.variant⟩

/-- What there is to embed of a file: its chunks, by their numbers. -/
def SourceFile.passages (file : SourceFile) (chunks : List Chunk) : List Embedding.Passage :=
  chunks.mapIdx fun index c =>
    { file := file.id, path := file.path, index, text := c.content, offset := c.offset }

/-- What is told of a file whose chunks were given to the service. -/
def Indexed.ofResults (id : Text) (chunks : List Chunk) (results : List Embedding.Result) : Indexed :=
  { id, chunks, results
    ending := if results.any Embedding.Result.isCancelled then .cancelled else .done }

/-- What came of a batch; there is nothing to tell if its executor was shut down under it. -/
def Indexed.ofAnswer? (id : Text) (chunks : List Chunk) :
    Except Embedding.Crash (List Embedding.Result) → Option Indexed
  | .ok results => some (.ofResults id chunks results)
  | .error (.restart cause) => some { id, chunks, ending := .failed cause.text }
  | .error .revoked => none

namespace Indexer

def indexDocument (x : Indexer) (file : SourceFile) (document : Chunking.Document)
    (signal : Option Signal) (interventions : Interventions) : Option Indexed × Indexer :=
  let outcome := x.chunker.chunk document signal
  let x := { x with chunker := outcome.chunker }
  match outcome.result with
  | .error .cancelled => (some { id := file.id, ending := .cancelled }, x)
  | .error reason => (some { id := file.id, ending := .failed reason.message }, x)
  | .ok chunks =>
    if chunks.isEmpty then (some { id := file.id }, x)
    else
      let (answer, service) :=
        x.service.generate (file.passages chunks) outcome.signal interventions
      (Indexed.ofAnswer? file.id chunks answer, { x with service })

def index (x : Indexer) (read : FileReader) (file : SourceFile) (signal : Option Signal)
    (interventions : Interventions := {}) : Option Indexed × Indexer :=
  match file.text read with
  | .error message => (some { id := file.id, ending := .failed message }, x)
  | .ok text => x.indexDocument file (file.document text) signal interventions

end Indexer

end SourceIndex.Indexing
