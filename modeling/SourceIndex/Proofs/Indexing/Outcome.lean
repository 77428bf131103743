import SourceIndex.Indexing.Indexer
import SourceIndex.Proofs.Chunking.Filter
import SourceIndex.Proofs.Embedding.Answers
import SourceIndex.Proofs.Embedding.Service

/-!
# What becomes of a file

A file comes to its end without a chunk, or its chunks are given to the pool as one batch
(`SourceFile.cut`, `Indexer.index_eq`). In the first case there is nothing that could be out of step.
In the second the answer of the pool decides: it has a result for each chunk, which came of this chunk
(`Workload.cameOf_of_answers`), unless an event was among those that happened that no chunk has a result
for (`Fatal`). Then the chunks are told without results, or nothing is told at all
(`Indexer.index_isAligned`).
-/

namespace SourceIndex.Embedding.Workload

/-! ## Results and their passages -/

/-- A result came of a passage of a batch: the pool was not ready when the batch was taken in, or an
event ended the passage. If an executor had a task at its position then, it was to embed the text of
this passage, and if it carried the task out for a pool that was there, the result tells of the
outcome. -/
def CameOf (f : Factory) (w : Workload) (schedule : Nat → Event) (b i : Nat) (passage : Passage)
    (r : Result) : Prop :=
  r.IsOf passage ∧ (w.pool.isReady = false ∧ r = .notReady passage ∨
    ∃ n progress, (w.follow f schedule n).item? b i = some ⟨passage, progress⟩ ∧
      (∀ e task, progress = .running e task → task.text = passage.text) ∧
      (∀ outcome, schedule n = .settle b i (.returned outcome) →
        (w.follow f schedule n).pool.stage ≠ .disposed →
          (∀ v, r.vector? = some v ↔ outcome = .ok v) ∧
            ∀ message, r.message? = some message ↔ outcome = .error message) ∧
      Ends f (w.follow f schedule n) b i (schedule n) (.ok r))

variable {f : Factory} {w : Workload} {schedule : Nat → Event} {passages : List Passage}
  {signal : Option Signal} {i : Nat} {passage : Passage}

theorem task_text_of_follow {n e : Nat} {task : Task}
    (h : ((w.call passages signal).follow f schedule n).item? w.batches.length i =
      some ⟨passage, .running e task⟩) : task.text = passage.text := by
  -- A passage gets its task from the event that begins it, and keeps it while it runs.
  induction n with
  | zero =>
    obtain ⟨-, hprogress⟩ := of_item?_call h
    split at hprogress <;> cases hprogress
  | succ n ih =>
    obtain ⟨batch, hbatch, hitem⟩ := item?_eq_some_iff.mp h
    obtain ⟨before, hbefore, -⟩ := exists_accounts f w passages signal schedule n
    obtain ⟨batch', hbatch', hstep⟩ := exists_step (f := f) hbefore (schedule n)
    obtain rfl : batch' = batch := Option.some.inj (hbatch'.symm.trans hbatch)
    obtain ⟨progress, hprior, hprogress⟩ := hstep.exists_prior hitem
    cases hprogress with
    | keep => exact ih (item?_eq_some_iff.mpr ⟨before, hbefore, hprior⟩)
    | start => rfl

/-- What is carried out for a pool that is there is what the result tells of. -/
theorem tells_of_ends {b : Nat} {r : Result} {outcome : Except String Vec}
    (h : Ends f w b i (.settle b i (.returned outcome)) (.ok r)) (hstage : w.pool.stage ≠ .disposed) :
    r.Tells r.passage outcome := by
  generalize hending : (Except.ok r : Except Crash Result) = ending at h
  cases h with
  | settled _ _ hsettles =>
    cases hsettles with
    | returned _ htells => cases hending; exact htells.passage.symm ▸ htells
    | dropped hdisposed => exact absurd hdisposed hstage

/-- The result at a position of an answer came of the passage at this position. -/
theorem cameOf_of_answers {rs : List Result} {r : Result}
    (h : (w.call passages signal).Answers f schedule w.batches.length passages (.ok rs))
    (hpassage : passages[i]? = some passage) (hr : rs[i]? = some r) :
    (w.call passages signal).CameOf f schedule w.batches.length i passage r := by
  cases h with
  | results _ hresults _ =>
    obtain ⟨_, hsame, hisOf, hcause⟩ := hresults i r hr
    obtain rfl := Option.some.inj (hpassage.symm.trans hsame)
    refine ⟨hisOf, hcause.imp id fun ⟨n, hends⟩ => ?_⟩
    obtain ⟨passage', progress, hitem, -⟩ := exists_item_of_ends hends
    obtain ⟨batch, hbatch, haccounts⟩ := exists_accounts f w passages signal schedule n
    obtain rfl := Option.some.inj (hpassage.symm.trans (haccounts.passages_getElem? hbatch hitem))
    refine ⟨n, progress, hitem, ?_, ?_, hends⟩
    · rintro e task rfl
      exact task_text_of_follow hitem
    · intro outcome hevent hstage
      have htells := tells_of_ends (hevent ▸ hends) hstage
      exact ⟨htells.vector?, htells.message?⟩

end SourceIndex.Embedding.Workload

namespace SourceIndex.Indexing

open Chunking (Chunk Chunker)
open SourceIndex.Embedding

def Indexed.vectors (x : Indexed) : List (Option Vec) :=
  x.results.map Result.vector?

def Indexed.errors (x : Indexed) : List (Option String) :=
  x.results.map Result.message?

/-- The lists of a file share one index: each chunk, with its content, its offset and its metadata, has
a vector or else an error. -/
structure Indexed.IsAligned (x : Indexed) : Prop where
  vectors : x.vectors.length = x.chunks.length
  errors : x.errors.length = x.chunks.length
  apart : ∀ (i : Nat) vector error, x.vectors[i]? = some vector → x.errors[i]? = some error →
    (vector = none ↔ error ≠ none)

/-- What there is to embed of a file: its chunks, and the signal from then on. A file without chunks has
come to its end. -/
def SourceFile.cut (file : SourceFile) (read : FileReader) (c : Chunker) (signal : Option Signal) :
    Except Indexed (List Chunk × Option Signal) :=
  match file.text read with
  | .error message => .error { id := file.id, ending := .failed message }
  | .ok text =>
    let outcome := c.chunk (file.document text) signal
    match outcome.result with
    | .error .cancelled => .error { id := file.id, ending := .cancelled }
    | .error reason => .error { id := file.id, ending := .failed reason.message }
    | .ok chunks =>
      if chunks.isEmpty then .error { id := file.id } else .ok (chunks, outcome.signal)

theorem SourceFile.length_passages (file : SourceFile) (chunks : List Chunk) :
    (file.passages chunks).length = chunks.length :=
  List.length_mapIdx

/-- Results that are those of the passages of a file are aligned with its chunks. -/
theorem Indexed.isAligned_of_isOf {x : Indexed} {file : SourceFile}
    (h : List.Forall₂ Result.IsOf x.results (file.passages x.chunks)) : x.IsAligned := by
  have hlength := h.length_eq.trans (file.length_passages x.chunks)
  refine ⟨by rw [vectors, List.length_map, hlength], by rw [errors, List.length_map, hlength], ?_⟩
  intro i vector error hvector herror
  rw [vectors, List.getElem?_map, Option.map_eq_some_iff] at hvector
  rw [errors, List.getElem?_map] at herror
  obtain ⟨r, hr, rfl⟩ := hvector
  rw [hr, Option.map_some, Option.some.injEq] at herror
  subst herror
  obtain ⟨hi, rfl⟩ := List.getElem?_eq_some_iff.mp hr
  exact (h.get hi (h.length_eq ▸ hi)).apart

theorem SourceFile.cut_eq_error {file : SourceFile} {read : FileReader} {c : Chunker}
    {signal : Option Signal} {early : Indexed} (h : file.cut read c signal = .error early) :
    early.chunks = [] ∧ early.results = [] := by
  unfold cut at h
  grind

namespace Indexer

/-- What is told of a file whose chunks are embedded is what is told of the answer of the pool. -/
theorem index_eq (c : Chunker) (service : Service) (read : FileReader) (file : SourceFile)
    (signal : Option Signal) (interventions : Interventions) :
    (index ⟨c, service⟩ read file signal interventions).1 =
      match file.cut read c signal with
      | .error early => some early
      | .ok (chunks, signal) => Indexed.ofAnswer? file.id chunks
          (service.generate (file.passages chunks) signal interventions).1 := by
  rw [index, SourceFile.cut]
  cases file.text read with
  | error => rfl
  | ok text =>
    dsimp only [indexDocument]
    cases (c.chunk (file.document text) signal).result with
    | error reason => cases reason <;> rfl
    | ok chunks => cases chunks <;> rfl

/-- A file whose chunks are embedded by a pool that does not crash is told with all its chunks, each
with a result. -/
theorem exists_index_of_chunks {c : Chunker} {service : Service} {read : FileReader}
    {file : SourceFile} {signal : Option Signal} {interventions : Interventions} {text : Text}
    {chunks : List Chunk} (htext : file.text read = .ok text)
    (hchunks : (c.chunk (file.document text) signal).result = .ok chunks)
    (hanswers : ∀ crash, (service.generate (file.passages chunks)
      (c.chunk (file.document text) signal).signal interventions).1 ≠ .error crash) :
    ∃ y, (index ⟨c, service⟩ read file signal interventions).1 = some y ∧ y.chunks = chunks ∧
      y.results.length = chunks.length := by
  rw [index_eq, SourceFile.cut, htext]
  dsimp only
  rw [hchunks]
  cases chunks with
  | nil => exact ⟨_, rfl, rfl, rfl⟩
  | cons k ks =>
    dsimp only [List.isEmpty_cons]
    rw [if_neg Bool.false_ne_true]
    dsimp only
    cases hanswer : (service.generate (file.passages (k :: ks))
      (c.chunk (file.document text) signal).signal interventions).1 with
    | error crash => exact absurd hanswer (hanswers crash)
    | ok rs =>
      refine ⟨_, rfl, rfl, ?_⟩
      exact (Service.forall₂_of_generate hanswer).length_eq.trans (file.length_passages _)

/-- The lists of a file share one index, whatever becomes of it, unless an event happens that no chunk
has a result for. A file that ends without a chunk has empty lists. The chunks of any other are given to
the pool, and what is told is what is told of its answer; if that has results, these are aligned with
the chunks. In every fair course of events the pool comes to an answer, and either each chunk has a
result, which came of it, or a fatal event happened, and then no result is told of any chunk. -/
theorem index_isAligned (c : Chunker) (read : FileReader) (file : SourceFile)
    (signal : Option Signal) :
    (∀ early, file.cut read c signal = .error early →
      early.IsAligned ∧ ∀ service interventions,
        (index ⟨c, service⟩ read file signal interventions).1 = some early) ∧
    ∀ chunks signal', file.cut read c signal = .ok (chunks, signal') →
      (∀ service interventions,
        (index ⟨c, service⟩ read file signal interventions).1 = Indexed.ofAnswer? file.id chunks
          (service.generate (file.passages chunks) signal' interventions).1 ∧
        ∀ rs, (service.generate (file.passages chunks) signal' interventions).1 = .ok rs →
          (Indexed.ofResults file.id chunks rs).IsAligned) ∧
      ∀ (f : Factory) (w : Workload) (schedule : Nat → Event), 0 < w.pool.slots →
        (w.call (file.passages chunks) signal').Fair f schedule w.batches.length →
        ∃ answer,
          (∃ n, ∀ m, n ≤ m → ((w.call (file.passages chunks) signal').follow f schedule m).answer?
            w.batches.length = some answer) ∧
          ((∃ y, Indexed.ofAnswer? file.id chunks answer = some y ∧ y.chunks = chunks ∧ y.IsAligned ∧
              ∀ (i : Nat) k r, y.chunks[i]? = some k → y.results[i]? = some r →
                (w.call (file.passages chunks) signal').CameOf f schedule w.batches.length i
                  ⟨file.id, file.path, i, k.content, k.offset⟩ r) ∨
            ∃ crash n i, answer = .error crash ∧
              Fatal f ((w.call (file.passages chunks) signal').follow f schedule n)
                w.batches.length i (schedule n) crash ∧
              ∀ y, Indexed.ofAnswer? file.id chunks answer = some y →
                y.chunks = chunks ∧ y.results = []) := by
  refine ⟨?_, ?_⟩
  · intro early hearly
    obtain ⟨hchunks, hresults⟩ := SourceFile.cut_eq_error hearly
    have hnone : List.Forall₂ Result.IsOf early.results (file.passages early.chunks) := by
      rw [hchunks, hresults]
      exact .nil
    refine ⟨Indexed.isAligned_of_isOf hnone, ?_⟩
    intro service interventions
    rw [index_eq, hearly]
  intro chunks signal' hcut
  refine ⟨?_, ?_⟩
  · intro service interventions
    refine ⟨by rw [index_eq, hcut], fun rs hrs => ?_⟩
    exact Indexed.isAligned_of_isOf (Service.forall₂_of_generate hrs)
  · intro f w schedule hslots hfair
    obtain ⟨answer, n, hforever⟩ :=
      Workload.exists_answer_of_fair f w (file.passages chunks) signal' hslots hfair
    have hanswers := Workload.answers_of_forever hforever
    refine ⟨answer, ⟨n, hforever⟩, ?_⟩
    cases answer with
    | ok rs =>
      refine .inl ⟨.ofResults file.id chunks rs, rfl, rfl, ?_, ?_⟩
      · exact Indexed.isAligned_of_isOf hanswers.forall₂
      · intro i k r hk hr
        refine Workload.cameOf_of_answers hanswers ?_ hr
        exact List.getElem?_mapIdx.trans (congrArg (Option.map _) hk)
    | error crash =>
      cases hanswers with
      | @crashed _ n i hfatal =>
        refine .inr ⟨crash, n, i, rfl, hfatal, fun y hy => ?_⟩
        cases crash with
        | restart => cases hy; exact ⟨rfl, rfl⟩
        | revoked => cases hy

/-- A file of two lines, and a chunker that makes a chunk of each. -/
def twoLines : SourceFile where
  id := ['i', 'd']
  path := ['a', '.', 'p', 'y']
  content := some ['a', 'a', '\n', 'b', 'b']
  language := some "python"

def lineCutter : Chunker :=
  .ofTokenizer 4 .characters []

/-- The executor breaks under the first line, and the one in its place embeds the second. -/
theorem index_isAligned_afterBreak :
    ∃ chunks answer y, twoLines.cut (fun _ => .error .missing) lineCutter none = .ok (chunks, none) ∧
      (((Workload.started 1).call (twoLines.passages chunks) none).follow (fun _ => .ok ())
        Workload.afterBreak 4).answer? 0 = some answer ∧
      Indexed.ofAnswer? twoLines.id chunks answer = some y ∧
      y.vectors = [none, some [Binary.binary32.ofInt 1]] ∧
      y.errors = [some "Worker failed: died", none] ∧ y.IsAligned := by
  obtain ⟨chunks, hcut, hpassages⟩ : ∃ chunks,
      twoLines.cut (fun _ => .error .missing) lineCutter none = .ok (chunks, none) ∧
        twoLines.passages chunks = [⟨['i', 'd'], ['a', '.', 'p', 'y'], 0, ['a', 'a'], 0⟩,
          ⟨['i', 'd'], ['a', '.', 'p', 'y'], 1, ['b', 'b'], 3⟩] := ⟨_, rfl, rfl⟩
  have hover : (((Workload.started 1).call (twoLines.passages chunks) none).follow (fun _ => .ok ())
      Workload.afterBreak 4).rank 0 = 0 := by
    rw [hpassages]
    decide
  have htold : (((Workload.started 1).call (twoLines.passages chunks) none).follow (fun _ => .ok ())
      Workload.afterBreak 4).answer? 0 = some (.ok [
        ⟨⟨['i', 'd'], ['a', '.', 'p', 'y'], 0, ['a', 'a'], 0⟩, none, some "Worker failed: died", false⟩,
        ⟨⟨['i', 'd'], ['a', '.', 'p', 'y'], 1, ['b', 'b'], 3⟩, some [Binary.binary32.ofInt 1], none,
          false⟩]) := by
    rw [hpassages]
    rfl
  obtain ⟨-, hembed⟩ := index_isAligned lineCutter (fun _ => .error .missing) twoLines none
  obtain ⟨answer, ⟨n, hforever⟩, haligned⟩ := (hembed chunks none hcut).2 (fun _ => .ok ())
    (.started 1) Workload.afterBreak Nat.one_pos (.of_rank_eq_zero (Workload.batch?_call _ none) hover)
  have hsame := (hforever _ (Nat.le_max_left n 4)).symm.trans
    (Workload.answer?_follow (Nat.le_max_right n 4) htold)
  cases hsame
  refine ⟨chunks, _, _, hcut, htold, rfl, rfl, rfl, ?_⟩
  rcases haligned with ⟨_, ⟨⟩, -, haligned, -⟩ | ⟨_, _, _, ⟨⟩, -⟩
  exact haligned

/-- A file of one line, which fits whole. -/
def oneLine : SourceFile where
  id := ['i', 'd']
  path := ['n', '.', 't', 'x', 't']
  content := some ['t', '0', ' ', 'x']

/-- A pool of two slots whose first executor breaks under `aa` and `t0 x` and keeps any other text, and
which can start so many executors. -/
def breaking (starts : Nat) : Service where
  site k :=
    if starts < k then .error ⟨"OSError", "no start"⟩
    else .ok fun text =>
      if text = ['a', 'a'] ∨ text = ['t', '0', ' ', 'x'] then .answer (.broke "m") else .hold
  worker := { source := fun _ _ => .error ⟨"RuntimeError", "no model"⟩ }
  workload := .started 2

/-- If no executor can be started in place of the broken one, the chunk is told without a result; and if
one can, the other chunk hears of the shutdown, and nothing is told of the file. -/
theorem not_isAligned_index :
    (∃ y, (index ⟨.ofTokenizer 100 .characters [], breaking 1⟩ (fun _ => .error .missing) oneLine
        none).1 = some y ∧ y.chunks.length = 1 ∧ y.results = [] ∧ ¬y.IsAligned) ∧
      (index ⟨lineCutter, breaking 2⟩ (fun _ => .error .missing) twoLines none).1.isNone := by
  refine ⟨⟨_, rfl, rfl, rfl, fun haligned => ?_⟩, rfl⟩
  exact absurd haligned.vectors (by decide)

end Indexer

end SourceIndex.Indexing
