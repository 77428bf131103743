import SourceIndex.Proofs.Chunking.Cancellation
import SourceIndex.Proofs.Chunking.Numbering

/-!
# What the filter does

The filter comes last: a run makes the same candidates whether it is on or off (`Chunker.run_plan`),
and only then are those that hold no code left out and the others numbered (`finalize_true`). So with
the filter on, a document has the chunks that it has with it off, without those that hold no code, and
numbered anew (`Chunker.result_withFilter_true`). Nothing else of a chunker knows of the filter, so
it may be set at any time (`Chunker.serveAll_withFilter`).
-/

namespace SourceIndex.Chunking

/-- Numbers chunks anew: each by how many of those before it share the name of its origin. -/
def recount (ks : List Chunk) : List Chunk :=
  ks.mapIdx fun i k => { k with
    order := k.origin.map fun o =>
      (ks.take i).countP fun k' => k'.origin.map Origin.name == some o.name }

/-! ## Numbers -/

theorem origin_beq_name (origin : Option Origin) (o : Origin) :
    (origin.map Origin.name == some o.name) = (origin == some o) := by
  rw [Bool.eq_iff_iff, beq_iff_eq, beq_iff_eq]
  cases origin with
  | none => simp
  | some o' => simp [Origin.name_injective.eq_iff]

/-- The number of a chunk tells how many chunks of its origin there are before it. -/
theorem numberFrom_map_unnumbered (seen : List Origin) (ks : List Chunk) :
    numberFrom seen (ks.map Chunk.unnumbered) = ks.mapIdx fun i k => { k with
      order := k.origin.map fun o =>
        seen.count o + (ks.take i).countP fun k' => k'.origin == some o } := by
  -- The origin of the first chunk moves from those before to those that were seen.
  induction ks generalizing seen with
  | nil => rfl
  | cons k ks ih =>
    rw [List.map_cons, numberFrom, List.mapIdx_cons]
    cases horigin : k.origin with
    | none =>
      simp only [Chunk.unnumbered, horigin, ih, List.take_succ_cons, List.countP_cons]
      simp
    | some o =>
      simp only [Chunk.unnumbered, horigin, ih, List.take_succ_cons, List.countP_cons,
        List.count_cons, Option.some_beq_some, Nat.add_assoc, Nat.add_comm (if _ then _ else _)]
      simp

theorem recount_eq_numberFrom (ks : List Chunk) :
    recount ks = numberFrom [] (ks.map Chunk.unnumbered) := by
  simp only [numberFrom_map_unnumbered, recount, origin_beq_name, List.count_nil, Nat.zero_add]

/-! ## Candidates -/

variable {s : CommentSyntax}

theorem Candidate.chunk?_true (s : CommentSyntax) (c : Candidate) :
    c.chunk? s true = (c.chunk? s false).filter fun k => !isInsignificant s k.content := by
  rw [chunk?, chunk?]
  split
  · rfl
  · rename_i trimmed _
    cases h : isInsignificant s trimmed.content <;> simp [Option.filter, h]

/-- What is numbered in the end is what is left over by the filter. -/
theorem finalize_true (s : CommentSyntax) (cs : List Candidate) :
    finalize s true cs =
      recount ((finalize s false cs).filter fun k => !isInsignificant s k.content) := by
  -- Numbers play no part in what is dropped, so it may be dropped before these are given.
  have hfilter : ((finalize s false cs).filter fun k => !isInsignificant s k.content).map
      Chunk.unnumbered = cs.filterMap (·.chunk? s true) := by
    have hcomp : (fun k : Chunk => !isInsignificant s k.content) =
        (fun k => !isInsignificant s k.content) ∘ Chunk.unnumbered := rfl
    rw [hcomp, ← List.filter_map, map_unnumbered_finalize, List.filter_filterMap]
    exact List.filterMap_congr fun c _ => (c.chunk?_true s).symm
  rw [recount_eq_numberFrom, hfilter, finalize_eq_numberFrom]

namespace Plan

variable {α β : Type}

theorem trace_bind_done (plan : Plan α) (g : α → β) (setting : Setting) :
    (plan.bind fun a => .done (g a)).trace setting = plan.trace setting := by
  induction plan generalizing setting with
  | done | stop => rfl
  | look next ih => simp only [bind, trace, ih]
  | measure text next ih => simp only [bind, trace, ih]

theorem run_bind_done (plan : Plan α) (g : α → β) (setting : Setting) :
    (plan.bind fun a => .done (g a)).run setting =
      ((plan.run setting).1.map g, (plan.run setting).2) := by
  rw [run_bind]
  split <;> rename_i heq <;> rw [heq] <;> rfl

end Plan

/-! ## Chunkers -/

namespace Chunker

def withFilter (on : Bool) (c : Chunker) : Chunker :=
  { c with filter := on }

/-- What a chunker is asked for: to cut a document, or to set its filter. -/
inductive Request where
  | chunk (doc : Document) (signal : Option Signal)
  | setFilter (on : Bool)

def Request.isChunk : Request → Bool
  | .chunk .. => true
  | .setFilter _ => false

/-- Whether the filter is on after a request; `on` tells whether it was before. -/
def Request.leavesFilter (on : Bool) : Request → Bool
  | .chunk .. => on
  | .setFilter on' => on'

def serve (c : Chunker) : Request → Chunker
  | .chunk doc signal => (c.chunk doc signal).chunker
  | .setFilter on => c.withFilter on

/-- A chunker after it did what it was asked for, one request after another. -/
def serveAll (c : Chunker) (requests : List Request) : Chunker :=
  requests.foldl serve c

/-- The candidates of a document, as a run makes them, and what becomes of the setting. -/
def candidates (c : Chunker) (doc : Document) (signal : Option Signal) :
    Except Stop (List Candidate) × Plan.Setting :=
  (candidatePlan c.estimator.contextLength c.breakpoints doc).run { estimator := c.estimator, signal }

theorem run_plan (c : Chunker) (doc : Document) (signal : Option Signal) :
    (c.plan doc).run { estimator := c.estimator, signal } =
      ((c.candidates doc signal).1.map (finalize (Language.commentSyntax doc.language) c.filter),
        (c.candidates doc signal).2) :=
  Plan.run_bind_done _ _ _

theorem trace_withFilter (on : Bool) (c : Chunker) (doc : Document) (signal : Option Signal) :
    (c.withFilter on).trace doc signal = c.trace doc signal := by
  rw [trace, trace, plan, plan, chunkPlan, chunkPlan, Plan.trace_bind_done, Plan.trace_bind_done]
  rfl

theorem result_withFilter_true (c : Chunker) (doc : Document) (signal : Option Signal) :
    ((c.withFilter true).chunk doc signal).result =
      ((c.withFilter false).chunk doc signal).result.map fun ks =>
        recount (ks.filter fun k =>
          !isInsignificant (Language.commentSyntax doc.language) k.content) := by
  rw [result_chunk, result_chunk, run_plan, run_plan]
  change (c.candidates doc signal).1.map _ = ((c.candidates doc signal).1.map _).map _
  cases (c.candidates doc signal).1 with
  | error => rfl
  | ok cs => exact congrArg Except.ok (finalize_true _ cs)

theorem chunker_withFilter (on : Bool) (c : Chunker) (doc : Document) (signal : Option Signal) :
    ((c.withFilter on).chunk doc signal).chunker =
      (c.chunk doc signal).chunker.withFilter on := by
  rw [chunker_chunk, chunker_chunk, run_plan, run_plan]
  rfl

theorem signal_withFilter (on : Bool) (c : Chunker) (doc : Document) (signal : Option Signal) :
    ((c.withFilter on).chunk doc signal).signal = (c.chunk doc signal).signal := by
  change ((c.withFilter on).plan doc |>.run _).2.signal = ((c.plan doc).run _).2.signal
  rw [run_plan, run_plan]
  rfl

theorem serveAll_withFilter (on : Bool) (c : Chunker) (requests : List Request) :
    (c.withFilter on).serveAll requests =
      (c.serveAll (requests.filter Request.isChunk)).withFilter
        (requests.foldl Request.leavesFilter on) := by
  induction requests generalizing c on with
  | nil => rfl
  | cons request requests ih =>
    cases request with
    | chunk doc signal =>
      rw [serveAll, List.foldl_cons, serve, chunker_withFilter]
      exact ih on (c.chunk doc signal).chunker
    | setFilter on' => exact ih on' c

/-- Requests leave an estimator that measured some texts, and the filter that was set last. -/
theorem exists_serveAll (c : Chunker) (requests : List Request) :
    ∃ texts, c.serveAll requests = { c with
      estimator := c.estimator.after texts
      filter := requests.foldl Request.leavesFilter c.filter } := by
  induction requests generalizing c with
  | nil => exact ⟨[], rfl⟩
  | cons request requests ih =>
    obtain ⟨texts, hserved⟩ := ih (c.serve request)
    cases request with
    | setFilter on => exact ⟨texts, hserved⟩
    | chunk doc signal =>
      refine ⟨(readings (c.trace doc signal)).map Prod.fst ++ texts, ?_⟩
      rw [Token.Estimator.after_append]
      apply hserved.trans
      rw [serve, chunker_chunk, Plan.run_snd, Plan.estimator_foldl_after]
      rfl

theorem result_chunk_serveAll (on : Bool) (c : Chunker) (hstateless : c.estimator.IsStateless)
    (requests : List Request) (doc : Document) (signal : Option Signal) :
    (((c.withFilter on).serveAll requests).chunk doc signal).result =
      ((c.withFilter (requests.foldl Request.leavesFilter on)).chunk doc signal).result := by
  obtain ⟨texts, hserved⟩ := (c.withFilter on).exists_serveAll requests
  rw [hserved, result_chunk, result_chunk, plan, plan, Token.Estimator.contextLength_after]
  exact Plan.run_after hstateless texts [] signal

/-- Switching the filter on only removes chunks: a document has those chunks that it has with the
filter off, without those that hold no code in its language, and numbered anew for each origin. Setting
the filter at any time does nothing else: the chunker is the one that was never set but for the filter,
and if its estimator is stateless, its next document has the chunks that it would have had at first. -/
theorem chunk_filter (c : Chunker) :
    (∀ doc signal, ((c.withFilter true).chunk doc signal).result =
        ((c.withFilter false).chunk doc signal).result.map fun ks =>
          recount (ks.filter fun k =>
            !isInsignificant (Language.commentSyntax doc.language) k.content)) ∧
    (∀ on requests, (c.withFilter on).serveAll requests =
      (c.serveAll (requests.filter Request.isChunk)).withFilter
        (requests.foldl Request.leavesFilter on)) ∧
    (∀ on doc signal, ((c.withFilter on).chunk doc signal).signal = (c.chunk doc signal).signal ∧
      (c.withFilter on).trace doc signal = c.trace doc signal) ∧
    (c.estimator.IsStateless → ∀ on requests doc signal,
      (((c.withFilter on).serveAll requests).chunk doc signal).result =
        ((c.withFilter (requests.foldl Request.leavesFilter on)).chunk doc signal).result) := by
  refine ⟨c.result_withFilter_true, fun on => c.serveAll_withFilter on, ?_, ?_⟩
  · exact fun on doc signal => ⟨c.signal_withFilter on doc signal, c.trace_withFilter on doc signal⟩
  · exact fun hstateless on => c.result_chunk_serveAll on hstateless

/-- A comment between two lines. -/
def commented : Document where
  text := List.replicate 4 'a' ++ ['\n', '#', 'b', '\n'] ++ List.replicate 4 'c' ++ ['\n']
  language := some "python"

/-- The comment goes, and what follows it gets its number; switching the filter off brings it back. -/
theorem chunk_filter_commented :
    let c := ofTokenizer 6 .characters [⟨0, some "f"⟩]
    (((c.withFilter true).chunk commented none).result.toOption.map
        (List.map fun k => (k.offset, k.order))) = some [(0, some 0), (8, some 1)] ∧
      (((c.withFilter false).chunk commented none).result.toOption.map
        (List.map fun k => (k.offset, k.order))) =
          some [(0, some 0), (5, some 1), (8, some 2)] ∧
      ((c.withFilter true).serveAll [.chunk commented none, .setFilter false]
        |>.chunk commented none).result = ((c.withFilter false).chunk commented none).result := by
  intro c
  obtain ⟨hfilter, -, -, hserve⟩ := chunk_filter c
  have hoff : ((c.withFilter false).chunk commented none).result.toOption.map
      (List.map fun k => (k.offset, k.order)) = some [(0, some 0), (5, some 1), (8, some 2)] := by
    decide +kernel
  refine ⟨?_, hoff, ?_⟩
  · rw [hfilter]
    decide +kernel
  · exact hserve (Token.Estimator.isStateless_of_tokenizer rfl fun _ _ _ => rfl) true
      [.chunk commented none, .setFilter false] commented none

end Chunker

end SourceIndex.Chunking
