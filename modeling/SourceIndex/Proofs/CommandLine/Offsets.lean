import SourceIndex.CommandLine.Run
import SourceIndex.Proofs.Chunking.Degradation
import SourceIndex.Proofs.Chunking.Rechunk
import SourceIndex.Proofs.Indexing.Outcome

/-!
# Both commands cut a file alike

A request that names no language, or one that is not empty, makes the same document for both commands
(`Request.document_sourceFile`). So the chunks that one prints are those that the other has embedded
(`exists_indexed`), and if the pool has a result for each, both print the same offsets
(`runEmbed_offsets`). An empty language is none to one command and a language to the other
(`printedOffsets_ne_of_empty`).
-/

namespace SourceIndex.CommandLine

open Chunking (Chunk Chunker)
open Indexing (Indexed Indexer)
open SourceIndex.Embedding (Service)

/-! ## Offsets -/

/-- The offsets that a summary tells, one for each chunk. -/
def printedOffsets (summary : Json) : List (Option Json) :=
  match summary.member? "chunks" with
  | some (.array items) => items.map (Json.member? "offset")
  | _ => []

theorem printedOffsets_cutSummary (file : Text) (language : Option String) (ks : List Chunk) :
    printedOffsets (cutSummary file language ks) = ks.map fun k => some (natural k.offset) := by
  have hchunks : (cutSummary file language ks).member? "chunks" =
      some (.array (ks.map chunkSummary)) := rfl
  rw [printedOffsets, hchunks]
  dsimp only
  rw [List.map_map]
  rfl

theorem printedOffsets_indexSummary (file : Text) {x : Indexed}
    (h : x.results.length = x.chunks.length) :
    printedOffsets (indexSummary file x) = x.chunks.map fun k => some (natural k.offset) := by
  have hchunks : (indexSummary file x).member? "chunks" =
      some (.array (List.zipWith vectorSummary x.chunks x.results)) := rfl
  rw [printedOffsets, hchunks]
  dsimp only
  rw [List.map_zipWith]
  conv_rhs => rw [← List.map_fst_zip h.ge, List.map_map]
  rw [← List.map_uncurry_zip_eq_zipWith]
  rfl

/-! ## Documents -/

namespace Request

/-- The language that is given for the file of a request. -/
def language? (r : Request) : Option String :=
  match r.language with
  | .value language => some (String.ofList language)
  | _ => none

/-- The request names no language, or one that is not empty, or else its path tells none. -/
def IsClear (r : Request) : Prop :=
  r.language = .absent ∨ (∃ c cs, r.language = .value (c :: cs)) ∨
    r.language = .value [] ∧ Language.detect? r.file = none

variable {r : Request}

theorem index_eq (h : r.IsClear) (x : Indexer) (read : FileReader) :
    r.index x read = x.index read (r.sourceFile r.language?) none := by
  rcases h with h | ⟨c, cs, h⟩ | ⟨h, -⟩ <;> rw [index, language?, h]

theorem document_sourceFile (h : r.IsClear) (hne : r.language ≠ .value []) (text : Text) :
    (r.sourceFile r.language?).document text = r.document text := by
  rcases h with h | ⟨c, cs, h⟩ | ⟨h, -⟩
  · rw [document, language?, h, sourceFile, Indexing.SourceFile.document]
    cases Language.detect? r.file <;> rfl
  · rw [document, language?, h]
    rfl
  · exact absurd h hne

/-- An empty language is as good as none, once it is given. -/
theorem chunk_sourceFile (h : r.IsClear) (c : Chunker) (text : Text) (signal : Option Signal) :
    c.chunk ((r.sourceFile r.language?).document text) signal = c.chunk (r.document text) signal := by
  rcases h with habsent | ⟨_, _, hvalue⟩ | ⟨hempty, hnone⟩
  · rw [document_sourceFile (.inl habsent) (by rw [habsent]; nofun)]
  · rw [document_sourceFile (.inr (.inl ⟨_, _, hvalue⟩)) (by rw [hvalue]; nofun)]
  · have hdocument : r.document text = ⟨text, none, none⟩ := by rw [document, hempty, hnone]
    rw [hdocument, language?, hempty]
    rfl

end Request

/-! ## Commands -/

variable {x : Setup} {r : Request}

/-- A file that is cut without a failure has chunks, which are printed. -/
theorem exists_chunks_of_exit (h : (runChunk x r).exit = 0) : ∃ text chunker chunks,
    x.read.text (Path.ofText r.file) = .ok text ∧ x.chunker (r.sizing x.settings) = .ok chunker ∧
      (chunker.chunk (r.document text) none).result = .ok chunks ∧
      (runChunk x r).output =
        (cutSummary r.file (r.document text).language chunks).pretty ++ ['\n'] := by
  cases htext : x.read.text (Path.ofText r.file) with
  | error =>
    simp only [runChunk, htext] at h
    cases h
  | ok text =>
    cases hchunker : x.chunker (r.sizing x.settings) with
    | error =>
      simp only [runChunk, htext, hchunker] at h
      cases h
    | ok chunker =>
      cases hchunks : (chunker.chunk (r.document text) none).result with
      | error =>
        simp only [runChunk, htext, hchunker, hchunks] at h
        cases h
      | ok chunks =>
        refine ⟨text, chunker, chunks, rfl, rfl, hchunks, ?_⟩
        simp only [runChunk, htext, hchunker, hchunks]

/-- The chunks of a file are those that are embedded. -/
theorem exists_indexed (hclear : r.IsClear) {text : Text} {chunker : Chunker} {chunks : List Chunk}
    {service : Service} (htext : x.read.text (Path.ofText r.file) = .ok text)
    (hchunks : (chunker.chunk (r.document text) none).result = .ok chunks)
    (hanswers : ∀ crash,
      (service.generate ((r.sourceFile r.language?).passages chunks) none {}).1 ≠ .error crash) :
    ∃ indexed, (r.index ⟨chunker, service⟩ x.read).1 = some indexed ∧ indexed.chunks = chunks ∧
      indexed.results.length = chunks.length := by
  have hfile : (r.sourceFile r.language?).text x.read = .ok text := by
    change (x.read.text (Path.ofText r.file)).mapError _ = _
    rw [htext]
    rfl
  have hsignal : (chunker.chunk (r.document text) none).signal = none := by
    rw [Chunker.signal_chunk]
    exact Chunking.Plan.signal_run_of_isSilent (.inl rfl)
  rw [Request.index_eq hclear]
  rw [← Request.chunk_sourceFile hclear] at hchunks hsignal
  apply Indexer.exists_index_of_chunks hfile hchunks
  rw [hsignal]
  exact hanswers

/-- A file that is embedded by a pool that starts is printed as it was indexed. -/
theorem runEmbed_eq {chunker : Chunker} {service : Service} {indexed : Indexed}
    (hchunker : x.chunker (r.sizing x.settings) = .ok chunker)
    (hservice : x.service (r.sizing x.settings) = .ok service)
    (hstarts : service.makeReady.1 = .ok ())
    (hindexed : (r.index ⟨chunker, service.makeReady.2⟩ x.read).1 = some indexed) :
    (runEmbed x r).exit = 0 ∧
      (runEmbed x r).output = (indexSummary r.file indexed).pretty ++ ['\n'] := by
  have hready : service.makeReady = (.ok (), service.makeReady.2) := Prod.ext hstarts rfl
  unfold runEmbed
  simp only [hchunker, hservice, Service.within]
  rw [hready]
  simp only [hindexed]
  exact ⟨trivial, trivial⟩

/-- Both commands cut a file alike, unless an empty language is named for a path that tells another one.
A language that is named, or the lack of one, makes the same document of a text. If the file is cut
without a failure, and a pool that starts has a result for each chunk, the offsets that are printed when
the file is embedded are those that are printed when it is cut. -/
theorem runEmbed_offsets (x : Setup) (r : Request) (hclear : r.IsClear) :
    (∀ indexer read, r.index indexer read = indexer.index read (r.sourceFile r.language?) none) ∧
    (r.language ≠ .value [] → ∀ text,
      (r.sourceFile r.language?).document text = r.document text) ∧
    ((runChunk x r).exit = 0 → ∃ text chunker chunks,
      x.read.text (Path.ofText r.file) = .ok text ∧ x.chunker (r.sizing x.settings) = .ok chunker ∧
      (chunker.chunk (r.document text) none).result = .ok chunks ∧
      (runChunk x r).output =
        (cutSummary r.file (r.document text).language chunks).pretty ++ ['\n'] ∧
      ∀ service, x.service (r.sizing x.settings) = .ok service → service.makeReady.1 = .ok () →
        (∀ crash, (service.makeReady.2.generate ((r.sourceFile r.language?).passages chunks) none
          {}).1 ≠ .error crash) →
        ∃ indexed, (runEmbed x r).exit = 0 ∧
          (runEmbed x r).output = (indexSummary r.file indexed).pretty ++ ['\n'] ∧
          printedOffsets (indexSummary r.file indexed) =
            printedOffsets (cutSummary r.file (r.document text).language chunks)) := by
  refine ⟨r.index_eq hclear, r.document_sourceFile hclear, fun hexit => ?_⟩
  obtain ⟨text, chunker, chunks, htext, hchunker, hchunks, houtput⟩ := exists_chunks_of_exit hexit
  refine ⟨text, chunker, chunks, htext, hchunker, hchunks, houtput, ?_⟩
  intro service hservice hstarts hanswers
  obtain ⟨indexed, hindexed, hsame, hlength⟩ := exists_indexed hclear htext hchunks hanswers
  obtain ⟨hembedded, hprinted⟩ := runEmbed_eq hchunker hservice hstarts hindexed
  refine ⟨indexed, hembedded, hprinted, ?_⟩
  rw [printedOffsets_cutSummary, printedOffsets_indexSummary r.file (hsame ▸ hlength), hsame]

/-- Files of these bytes, and executors that have a vector for every text. -/
def Setup.answering (bytes : List UInt8) : Setup where
  settings := {
    model := ['m'], modelPath := [], contextLength := 100, pooling := [], normalize := true
    filter := true, workers := some 1 }
  read _ := .ok bytes
  tokenizer _ := .ok .characters
  extract _ _ _ := .ok []
  source _ _ := .error ⟨"RuntimeError", "no model"⟩
  site _ := .ok fun _ => .answer (.returned (.ok []))

/-- A request for a Python file. -/
def pythonRequest (language : Given Text) : Request where
  command := .embed
  file := ['a', '.', 'p', 'y']
  language := language

/-- A Python file of one statement is told with one offset by both commands. -/
theorem runEmbed_offsets_answering :
    (runChunk (.answering [0x78, 0x0a]) (pythonRequest .absent)).exit = 0 ∧ ∃ chunks indexed,
      (runChunk (.answering [0x78, 0x0a]) (pythonRequest .absent)).output =
        (cutSummary ['a', '.', 'p', 'y'] (some "python") chunks).pretty ++ ['\n'] ∧
      (runEmbed (.answering [0x78, 0x0a]) (pythonRequest .absent)).output =
        (indexSummary ['a', '.', 'p', 'y'] indexed).pretty ++ ['\n'] ∧
      chunks = [.whole ['x']] ∧
      printedOffsets (indexSummary ['a', '.', 'p', 'y'] indexed) =
        printedOffsets (cutSummary ['a', '.', 'p', 'y'] (some "python") chunks) := by
  have hexit : (runChunk (.answering [0x78, 0x0a]) (pythonRequest .absent)).exit = 0 := by
    decide +kernel
  obtain ⟨-, -, hoffsets⟩ :=
    runEmbed_offsets (.answering [0x78, 0x0a]) (pythonRequest .absent) (.inl rfl)
  obtain ⟨text, chunker, chunks, htext, hchunker, hchunks, hcut, hembed⟩ := hoffsets hexit
  have hread : (Setup.answering [0x78, 0x0a]).read.text (Path.ofText (pythonRequest .absent).file) =
      .ok ['x', '\n'] := by decide +kernel
  obtain rfl : text = ['x', '\n'] := Except.ok.inj (htext.symm.trans hread)
  obtain ⟨c, hc, hcs⟩ : ∃ c, (Setup.answering [0x78, 0x0a]).chunker
      ((pythonRequest .absent).sizing (Setup.answering [0x78, 0x0a]).settings) = .ok c ∧
      (c.chunk ((pythonRequest .absent).document ['x', '\n']) none).result = .ok [.whole ['x']] :=
    ⟨_, rfl, by decide +kernel⟩
  obtain rfl : chunker = c := Except.ok.inj (hchunker.symm.trans hc)
  obtain rfl : chunks = [.whole ['x']] := Except.ok.inj (hchunks.symm.trans hcs)
  obtain ⟨service, hservice, hstarts, htold⟩ : ∃ service, (Setup.answering [0x78, 0x0a]).service
      ((pythonRequest .absent).sizing (Setup.answering [0x78, 0x0a]).settings) = .ok service ∧
      service.makeReady.1 = .ok () ∧
      (service.makeReady.2.generate [⟨['a', '.', 'p', 'y'], ['a', '.', 'p', 'y'], 0, ['x'], 0⟩] none
        {}).1 = .ok [⟨⟨['a', '.', 'p', 'y'], ['a', '.', 'p', 'y'], 0, ['x'], 0⟩, some [], none,
          false⟩] := ⟨_, rfl, rfl, rfl⟩
  have hlanguage : ((pythonRequest .absent).document ['x', '\n']).language = some "python" := by
    decide +kernel
  rw [hlanguage] at hcut hembed
  obtain ⟨indexed, -, hprinted, hsame⟩ := hembed service hservice hstarts (htold ▸ nofun)
  exact ⟨hexit, _, indexed, hcut, hprinted, rfl, hsame⟩

/-- An empty language is none to one command, which then finds Python and drops the comment, and it is
a language without a name to the other, which keeps it. -/
theorem printedOffsets_ne_of_empty :
    (runChunk (.answering [0x23, 0x20, 0x78, 0x0a]) (pythonRequest (.value []))).exit = 0 ∧
      (runEmbed (.answering [0x23, 0x20, 0x78, 0x0a]) (pythonRequest (.value []))).exit = 0 ∧
      ∃ chunks indexed,
        (runChunk (.answering [0x23, 0x20, 0x78, 0x0a]) (pythonRequest (.value []))).output =
          (cutSummary ['a', '.', 'p', 'y'] (some "python") chunks).pretty ++ ['\n'] ∧
        (runEmbed (.answering [0x23, 0x20, 0x78, 0x0a]) (pythonRequest (.value []))).output =
          (indexSummary ['a', '.', 'p', 'y'] indexed).pretty ++ ['\n'] ∧
        printedOffsets (cutSummary ['a', '.', 'p', 'y'] (some "python") chunks) = [] ∧
        printedOffsets (indexSummary ['a', '.', 'p', 'y'] indexed) = [some (natural 0)] := by
  refine ⟨by decide +kernel, by decide +kernel, [], {
    id := ['a', '.', 'p', 'y']
    chunks := [Chunk.whole ['#', ' ', 'x']]
    results := [⟨⟨['a', '.', 'p', 'y'], ['a', '.', 'p', 'y'], 0, ['#', ' ', 'x'], 0⟩, some [], none,
      false⟩] }, ?_, ?_, rfl, rfl⟩
  · decide +kernel
  · decide +kernel

end SourceIndex.CommandLine
