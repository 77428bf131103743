import SourceIndex.Proofs.Chunking.Orderly
import SourceIndex.Proofs.Chunking.Placement

/-! # What becomes of a document

A chunker that is not cancelled gives chunks, unless its context length is too large for a budget
(`Chunker.exists_chunks`); and the chunks that it gives are those of candidates that its plan has
for the sizes it read (`Chunker.exists_candidates`). -/

namespace SourceIndex.Chunking.Chunker

open Text

def plan (c : Chunker) (doc : Document) : Plan (List Chunk) :=
  chunkPlan c.estimator.contextLength c.filter c.breakpoints doc

/-- The events while a document is chunked. -/
def trace (c : Chunker) (doc : Document) (signal : Option Signal) : List Event :=
  (c.plan doc).trace { estimator := c.estimator, signal }

/-- Whether a text is small enough to be left whole. -/
def fitsWhole (c : Chunker) (doc : Document) : Bool :=
  match budgets c.estimator.contextLength with
  | .ok (_, fit) => (c.estimator.measure doc.text).1 ≤ fit
  | .error _ => false

variable {c : Chunker} {doc : Document} {signal : Option Signal} {ks : List Chunk}

theorem result_chunk : (c.chunk doc signal).result =
    ((c.plan doc).run { estimator := c.estimator, signal }).1 := rfl

theorem chunker_chunk : (c.chunk doc signal).chunker =
    { c with
      estimator := ((c.plan doc).run { estimator := c.estimator, signal }).2.estimator } := rfl

/-- Chunks come from candidates that the plan has for the sizes that were read. -/
theorem exists_candidates (h : (c.chunk doc signal).result = .ok ks) :
    ∃ cs, ks = finalize (Language.commentSyntax doc.language) c.filter cs ∧
      (candidatePlan c.estimator.contextLength c.breakpoints doc).Gives
        (readings (c.trace doc signal)) cs := by
  have hgives : (c.plan doc).Gives (readings (c.trace doc signal)) ks := Plan.gives_of_run h
  rw [plan, chunkPlan, Plan.gives_bind] at hgives
  obtain ⟨rs, cs, rest, hrs, hcs, hks⟩ := hgives
  obtain ⟨rfl, rfl⟩ := Plan.gives_done.mp hks
  rw [List.append_nil] at hrs
  exact ⟨cs, rfl, hrs ▸ hcs⟩

/-- Each chunk is what is left of a candidate, with a number. -/
theorem exists_candidate_of_mem (h : (c.chunk doc signal).result = .ok ks) {k : Chunk}
    (hk : k ∈ ks) :
    ∃ candidate : Candidate, candidate.excerpt.IsOf doc.text ∧
      candidate.chunk? (Language.commentSyntax doc.language) c.filter = some k.unnumbered := by
  obtain ⟨cs, rfl, hgives⟩ := exists_candidates h
  have hmem := List.mem_map_of_mem (f := Chunk.unnumbered) hk
  rw [map_unnumbered_finalize] at hmem
  obtain ⟨candidate, hcandidate, hchunk⟩ := List.mem_filterMap.mp hmem
  exact ⟨candidate, isOf_of_candidatePlan hgives candidate hcandidate, hchunk⟩

theorem exists_madeOf (h : (c.chunk doc signal).result = .ok ks) {k : Chunk} (hk : k ∈ ks) :
    ∃ above own below, k.MadeOf doc.text above own below := by
  obtain ⟨candidate, ⟨above, below, hrows, hstart⟩, hchunk⟩ := exists_candidate_of_mem h hk
  have hmade := madeOf_of_chunk? hrows hstart hchunk
  exact ⟨_, _, _, hmade.rows_eq, hmade.ne_nil, hmade.first, hmade.last, hmade.offset_eq,
    hmade.lines_eq⟩

/-- The text is what is measured first. -/
theorem size_of_readings {n : Nat} {rest : List (Text × Nat)}
    (h : readings (c.trace doc signal) = (doc.text, n) :: rest) :
    n = (c.estimator.measure doc.text).1 := by
  have hread := Plan.readings_trace (c.plan doc) { estimator := c.estimator, signal }
  rw [trace] at h
  rw [h, List.map_cons, Token.Estimator.read, List.cons.injEq, Prod.mk.injEq] at hread
  exact hread.1.2

/-- A text that fits whole is its only candidate; any other that is not blank is cut. -/
theorem exists_candidates_of_ne_blank (h : (c.chunk doc signal).result = .ok ks)
    (hblank : isBlank doc.text = false) :
    ∃ budget fit cs, budgets c.estimator.contextLength = .ok (budget, fit) ∧
      ks = finalize (Language.commentSyntax doc.language) c.filter cs ∧
      if c.fitsWhole doc then cs = [{ excerpt := .whole doc.text }]
      else ∃ rest, readings (c.trace doc signal) =
          (doc.text, (c.estimator.measure doc.text).1) :: rest ∧
        (cutPlan budget doc (c.breakpoints doc)).Gives rest cs := by
  obtain ⟨cs, hks, hgives⟩ := exists_candidates h
  rw [gives_candidatePlan, hblank, if_neg nofun] at hgives
  obtain ⟨budget, fit, hbudgets, n, rest, hrs, hcs⟩ := hgives
  obtain rfl := size_of_readings hrs
  refine ⟨budget, fit, cs, hbudgets, hks, ?_⟩
  simp only [fitsWhole, hbudgets, decide_eq_true_eq]
  split at hcs
  · rw [if_pos ‹_›]
    exact hcs.2
  · rw [if_neg ‹_›]
    exact ⟨rest, hrs, hcs⟩

/-! ## When there are chunks -/

/-- The only reason to stop is that there is no budget for the context length. -/
theorem orderly_plan (c : Chunker) (doc : Document) :
    (c.plan doc).Orderly
      (fun reason => isBlank doc.text = false ∧
        ∃ cause, budgets c.estimator.contextLength = .error cause ∧ reason = .budget cause)
      false := by
  refine Plan.Orderly.bind ?_ fun _ => trivial
  rw [candidatePlan]
  split
  · trivial
  · rename_i hblank
    rw [Plan.Orderly]
    split
    · rename_i cause hbudgets
      exact ⟨Bool.eq_false_iff.mpr hblank, cause, hbudgets, rfl⟩
    · refine ⟨rfl, fun n => ?_⟩
      dsimp only
      split
      · trivial
      · exact orderly_cutPlan _ _ _

/-- A run that is not cancelled gives chunks, unless there is no budget for the context length. -/
theorem exists_chunks (h : (c.chunk doc signal).result ≠ .error .cancelled) :
    (∃ ks, (c.chunk doc signal).result = .ok ks) ∨
      isBlank doc.text = false ∧ ∃ cause, budgets c.estimator.contextLength = .error cause ∧
        (c.chunk doc signal).result = .error (.budget cause) := by
  rcases (c.orderly_plan doc).run { estimator := c.estimator, signal } with
    hok | hcancelled | ⟨_, ⟨hblank, cause, hbudgets, rfl⟩, hstopped⟩
  · exact .inl hok
  · exact absurd hcancelled h
  · exact .inr ⟨hblank, cause, hbudgets, hstopped⟩

/-! ## A small document -/

/-- A header, a construct of two lines with a blank one below, a line of nine characters, and
`x`. -/
def sample : Document where
  text := ['h', '\n', 'd', 'e', 'f', '\n', ' ', ' ', 'b', '\n', '\n'] ++ List.replicate 9 'c' ++
    ['\n', 'x', '\n']
  language := some "python"

/-- Where its constructs start. -/
def sampleBreakpoints : List Syntax.Breakpoint :=
  [⟨1, some "f"⟩, ⟨4, none⟩, ⟨5, some "g"⟩]

/-- A chunker that keeps every chunk, with a tokenizer at hand and the breakpoints of any
document. -/
def ofTokenizer (contextLength : Nat) (tokenizer : Token.Tokenizer)
    (breakpoints : List Syntax.Breakpoint) : Chunker where
  estimator := { contextLength, load := fun _ => .error "", tokenizer := some tokenizer }
  extract _ _ _ := .ok breakpoints
  filter := false

/-- A chunker that counts characters, with a budget of eight. -/
def sampleChunker : Chunker :=
  ofTokenizer 10 .characters sampleBreakpoints

end SourceIndex.Chunking.Chunker
