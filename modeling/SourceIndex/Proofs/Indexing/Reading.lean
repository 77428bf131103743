import SourceIndex.Proofs.Chunking.Quotation
import SourceIndex.Proofs.Indexing.Outcome
import SourceIndex.Proofs.Text.Newline

/-!
# Files that are read

A file that is read is indexed as if the text of its bytes were given with its line ends unified
(`Indexer.index_read`). That is the text itself as long as it has no carriage returns. In any other an
offset tells a place of the unified text, and the chunk stands further back in the text of the file, by
a character for each carriage return and newline in a row that are before it.
-/

namespace SourceIndex.Text.Utf8

theorem map_of_decodePieces {bytes : List UInt8} {position : Nat} {ps : List Piece} {t : Text}
    (h : decodePieces bytes position ps = .ok t) :
    ps.map (fun p => p.value.toOption.getD '\ufffd') = t := by
  induction ps generalizing position t with
  | nil => exact Except.ok.inj h
  | cons p ps ih =>
    rw [decodePieces] at h
    cases hvalue : p.value with
    | error defect => rw [hvalue] at h; nomatch h
    | ok c =>
      cases hcs : decodePieces bytes (position + p.width) ps with
      | error => rw [hvalue, hcs] at h; nomatch h
      | ok cs =>
        rw [hvalue, hcs] at h
        obtain rfl := Except.ok.inj h
        rw [List.map_cons, ih hcs, hvalue]
        rfl

/-- Bytes that are all well formed are read alike by both ways of reading. -/
theorem decodeLenient_of_decode {bytes : List UInt8} {t : Text} (h : decode bytes = .ok t) :
    decodeLenient bytes = t :=
  map_of_decodePieces h

end SourceIndex.Text.Utf8

namespace SourceIndex.Chunking

open Text

/-- A chunk starts in its text. -/
theorem Chunk.Quotes.offset_lt {t : Text} {k : Chunk} {taken : Text} (h : k.Quotes t taken) :
    k.offset < t.length := by
  obtain ⟨line, rest, hlines⟩ := List.exists_cons_of_ne_nil (lines_ne_nil k.content)
  obtain ⟨hblank, hstarts⟩ := h.first line (by rw [hlines]; rfl)
  by_contra hle
  rw [List.drop_eq_nil_of_le (Nat.le_of_not_lt hle), List.prefix_nil] at hstarts
  rw [hstarts] at hblank
  nomatch hblank

end SourceIndex.Chunking

namespace SourceIndex.Indexing

open Chunking (Chunk Chunker)
open SourceIndex.Embedding
open Text (unifyNewlines returns lines)

@[simp] theorem SourceFile.text_document (file : SourceFile) (text : Text) :
    (file.document text).text = text := by
  rw [document]
  split <;> rfl

/-- The text of a file that is read is that of its bytes, with line ends unified. -/
theorem SourceFile.text_of_read {file : SourceFile} {read : FileReader} {bytes : List UInt8}
    {t : Text} (hcontent : file.content = none) (hread : read (Path.ofText file.path) = .ok bytes)
    (hdecode : Text.Utf8.decode bytes = .ok t) : file.text read = .ok (unifyNewlines t) := by
  rw [text, hcontent]
  dsimp only
  rw [FileReader.text, hread, Except.map, Text.Utf8.decodeLenient_of_decode hdecode]
  rfl

theorem SourceFile.cut_eq_ok {file : SourceFile} {read : FileReader} {c : Chunker}
    {signal signal' : Option Signal} {chunks : List Chunk}
    (h : file.cut read c signal = .ok (chunks, signal')) :
    ∃ text, file.text read = .ok text ∧
      (c.chunk (file.document text) signal).result = .ok chunks := by
  unfold cut at h
  grind

theorem Indexed.chunks_of_ofAnswer? {id : Text} {chunks : List Chunk} {y : Indexed}
    {answer : Except Crash (List Result)} (h : ofAnswer? id chunks answer = some y) :
    y.chunks = chunks := by
  cases answer with
  | ok results => obtain rfl := Option.some.inj h; rfl
  | error crash =>
    cases crash with
    | restart cause => obtain rfl := Option.some.inj h; rfl
    | revoked => nomatch h

namespace Indexer

theorem index_of_text {x : Indexer} {read : FileReader} {file : SourceFile} {text : Text}
    (h : file.text read = .ok text) (signal : Option Signal) (interventions : Interventions) :
    x.index read file signal interventions =
      x.indexDocument file (file.document text) signal interventions := by
  rw [index, h]

/-- The chunks that are told of a file are those of its text. -/
theorem exists_text_of_mem_chunks {x : Indexer} {read : FileReader} {file : SourceFile}
    {signal : Option Signal} {interventions : Interventions} {y : Indexed} {k : Chunk}
    (h : (x.index read file signal interventions).1 = some y) (hk : k ∈ y.chunks) :
    ∃ text, file.text read = .ok text ∧
      (x.chunker.chunk (file.document text) signal).result = .ok y.chunks := by
  rw [index_eq] at h
  cases hcut : file.cut read x.chunker signal with
  | error early =>
    rw [hcut] at h
    obtain rfl := Option.some.inj h
    rw [(SourceFile.cut_eq_error hcut).1] at hk
    nomatch hk
  | ok cut =>
    rw [hcut] at h
    rw [Indexed.chunks_of_ofAnswer? h]
    exact SourceFile.cut_eq_ok hcut

/-- A file that is read is indexed as if its text were given with line ends unified, so as if the text
itself were given if there are no carriage returns in it. Each chunk that is told starts in the text of
the file, where line ends are unified behind and before it, as many characters behind its offset as
there are pairs of a carriage return and a newline before it. -/
theorem index_read (x : Indexer) {read : FileReader} {file : SourceFile} {bytes : List UInt8}
    {t : Text} (hcontent : file.content = none) (hread : read (Path.ofText file.path) = .ok bytes)
    (hdecode : Text.Utf8.decode bytes = .ok t) (signal : Option Signal)
    (interventions : Interventions) :
    x.index read file signal interventions =
        x.index read { file with content := some (unifyNewlines t) } signal interventions ∧
      ('\r' ∉ t → x.index read file signal interventions =
        x.index read { file with content := some t } signal interventions) ∧
      ∀ y, (x.index read file signal interventions).1 = some y → ∀ k ∈ y.chunks,
        ∃ p, p = k.offset + returns (t.take p) ∧
          unifyNewlines (t.take p) = (unifyNewlines t).take k.offset ∧
          unifyNewlines (t.drop p) = (unifyNewlines t).drop k.offset ∧
          ∀ line, (lines k.content).head? = some line → line <+: t.drop p := by
  have htext := SourceFile.text_of_read hcontent hread hdecode
  have hgiven (text : Text) (h : unifyNewlines t = text) : x.index read file signal interventions =
      x.index read { file with content := some text } signal interventions := by
    subst h
    rw [index_of_text htext]
    rfl
  refine ⟨hgiven _ rfl, fun hreturn => hgiven t (Text.unifyNewlines_of_notMem hreturn), ?_⟩
  intro y hy k hk
  obtain ⟨text, htext', hchunks⟩ := exists_text_of_mem_chunks hy hk
  obtain rfl : unifyNewlines t = text := Except.ok.inj (htext.symm.trans htext')
  obtain ⟨taken, hquotes⟩ := Chunker.exists_quotes _ _ _ _ hchunks k hk
  rw [SourceFile.text_document] at hquotes
  obtain ⟨p, hp, htake, hdrop⟩ := Text.exists_position t hquotes.offset_lt.le
  refine ⟨p, hp, htake, hdrop, fun line hline => ?_⟩
  have hstarts := (hquotes.first line hline).2
  rw [← hdrop] at hstarts
  have hnewline := Text.newline_notMem_of_mem_lines (List.mem_of_head? hline)
  exact Text.isPrefix_of_unifyNewlines hnewline hstarts

/-- A plain text file that starts with an empty line, which ends with a carriage return and a
newline. -/
def returned : SourceFile where
  id := ['i', 'd']
  path := ['a', '.', 't', 'x', 't']

/-- The text of that file. -/
def returnedText : Text :=
  ['\r', '\n', 'a', 'b']

/-- Finds the bytes of that file. -/
def returnedReader : FileReader :=
  fun _ => .ok [0x0d, 0x0a, 0x61, 0x62]

/-- A chunker that counts characters, and a pool of one slot whose executors have a vector for every
text. -/
def answering : Indexer where
  chunker := .ofTokenizer 100 .characters []
  service := {
    site _ := .ok fun _ => .answer (.returned (.ok []))
    worker := { source := fun _ _ => .error ⟨"RuntimeError", "no model"⟩ }
    workload := .started 1 }

theorem decode_returned : Text.Utf8.decode [0x0d, 0x0a, 0x61, 0x62] = .ok returnedText := by
  decide +kernel

theorem exists_index_returned :
    ∃ y, (answering.index returnedReader returned none).1 = some y ∧
      y.chunks.map (fun k => (k.content, k.offset)) = [(['a', 'b'], 1)] := by
  rw [index_of_text (SourceFile.text_of_read rfl rfl decode_returned)]
  exact ⟨_, rfl, rfl⟩

/-- The chunk `ab` is told with the offset 1, and stands one character further back in the file. -/
theorem index_read_returned :
    ∃ y, (answering.index returnedReader returned none).1 = some y ∧
      y.chunks.map (fun k => (k.content, k.offset)) = [(['a', 'b'], 1)] ∧
      ∃ p, p = 1 + returns (returnedText.take p) ∧ ['a', 'b'] <+: returnedText.drop p := by
  obtain ⟨y, hy, hchunks⟩ := exists_index_returned
  refine ⟨y, hy, hchunks, ?_⟩
  obtain ⟨-, -, hplaces⟩ := index_read answering (rfl : returned.content = none)
    (rfl : returnedReader (Path.ofText returned.path) = _) decode_returned none {}
  obtain ⟨k, ks, hks, hk, -⟩ := List.map_eq_cons_iff.mp hchunks
  obtain ⟨hcontent, hoffset⟩ := Prod.mk.inj hk
  obtain ⟨p, hp, -, -, hstarts⟩ := hplaces y hy k (hks ▸ List.mem_cons_self)
  exact ⟨p, hoffset ▸ hp, hstarts ['a', 'b'] (by rw [hcontent]; rfl)⟩

/-- The same chunk is told with the offset 2 if the text of the file is given instead. -/
theorem index_read_ne_given :
    ∃ y z, (answering.index returnedReader returned none).1 = some y ∧
      (answering.index returnedReader { returned with content := some returnedText } none).1 =
        some z ∧
      returnedReader (Path.ofText returned.path) = .ok [0x0d, 0x0a, 0x61, 0x62] ∧
      Text.Utf8.decode [0x0d, 0x0a, 0x61, 0x62] = .ok returnedText ∧
      y.chunks.map (fun k => (k.content, k.offset)) = [(['a', 'b'], 1)] ∧
      z.chunks.map (fun k => (k.content, k.offset)) = [(['a', 'b'], 2)] := by
  obtain ⟨y, hy, hchunks⟩ := exists_index_returned
  exact ⟨y, _, hy, rfl, rfl, decode_returned, hchunks, rfl⟩

end Indexer

end SourceIndex.Indexing
