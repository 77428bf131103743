import SourceIndex.Proofs.Chunking.Budget
import SourceIndex.Proofs.Chunking.Filter
import SourceIndex.Proofs.Chunking.Quotation

/-!
# Chunks are chunks of themselves

Trimming has nothing to do on what it left: no line at an edge is blank, and what the lines share at
their start has already been taken (`sharedIndent_map_unindent`, `trim?_content`). A chunk that is not
flagged is within budget, so it fits whole, and a text that fits whole and is trimmed is its own chunk
(`Chunker.result_chunk_of_trimmed`). So cutting a chunk once more gives the chunk
(`Chunker.chunk_content`).
-/

namespace SourceIndex.Chunking

open Text

/-! ## Shared indentation -/

theorem commonStart_append (p s t : Text) : commonStart (p ++ s) (p ++ t) = p ++ commonStart s t := by
  induction p with
  | nil => rfl
  | cons a p ih =>
    rw [List.cons_append, List.cons_append, commonStart, if_pos rfl, ih, List.cons_append]

theorem sharedStart_map_append (p : Text) {ts : List Text} (h : ts ≠ []) :
    sharedStart (ts.map (p ++ ·)) = p ++ sharedStart ts := by
  induction ts with
  | nil => exact absurd rfl h
  | cons t ts ih =>
    cases ts with
    | nil => rfl
    | cons t' ts =>
      calc sharedStart ((t :: t' :: ts).map (p ++ ·))
          = commonStart (p ++ t) (sharedStart ((t' :: ts).map (p ++ ·))) := rfl
        _ = commonStart (p ++ t) (p ++ sharedStart (t' :: ts)) := by
          rw [ih (List.cons_ne_nil t' ts)]
        _ = p ++ sharedStart (t :: t' :: ts) := commonStart_append p t _

/-- Of indentation that is shared, nothing is left to be shared. -/
theorem sharedIndent_map_unindent (ls : List Text) :
    sharedIndent (ls.map (unindent (sharedIndent ls))) = [] := by
  generalize hrest : ls.map (unindent (sharedIndent ls)) = rest
  have hblank : (fun line => !isBlank line) ∘ unindent (sharedIndent ls) =
      fun line => !isBlank line := funext fun l => congrArg Bool.not (isBlank_unindent ls l)
  -- Without what is shared, the indents of the lines that are not blank are those behind it.
  have hindents : (ls.filter fun line => !isBlank line).map indent =
      ((rest.filter fun line => !isBlank line).map indent).map (sharedIndent ls ++ ·) := by
    rw [← hrest, List.filter_map, hblank, List.map_map, List.map_map]
    apply List.map_congr_left
    intro l hl
    obtain ⟨hmem, hl⟩ := List.mem_filter.mp hl
    have hsplit := eq_sharedIndent_append hmem ((Bool.not_eq_true' _).mp hl)
    conv_lhs => rw [hsplit]
    exact List.takeWhile_append_of_pos fun _ => isIndent_of_mem_sharedIndent
  by_cases hnil : (rest.filter fun line => !isBlank line).map indent = []
  · rw [sharedIndent, hnil, sharedStart]
  · have hshared : sharedIndent ls = sharedIndent ls ++ sharedIndent rest := by
      conv_lhs => rw [sharedIndent, hindents, sharedStart_map_append _ hnil]
      rfl
    exact List.append_right_eq_self.mp hshared.symm

/-! ## Trimming once more -/

variable {ls : List Text}

theorem takeWhile_isBlank_trimLines (ls : List Text) : (trimLines ls).takeWhile isBlank = [] := by
  cases h : trimLines ls with
  | nil => rfl
  | cons l kept =>
    have hl : isBlank l = false := isBlank_head?_trimLines (by rw [h]; rfl)
    rw [List.takeWhile_cons, hl, if_neg Bool.false_ne_true]

theorem trimLines_trimLines (ls : List Text) : trimLines (trimLines ls) = trimLines ls := by
  have hdrop : (trimLines ls).dropWhile isBlank = trimLines ls := by
    conv_rhs => rw [← List.takeWhile_append_dropWhile (p := isBlank) (l := trimLines ls),
      takeWhile_isBlank_trimLines, List.nil_append]
  rw [trimLines_eq_rdropWhile (trimLines ls), hdrop, trimLines_eq_rdropWhile,
    List.rdropWhile_idempotent]

/-- Lines whose edges are not blank and that share no indentation are left as they are. -/
theorem trim?_ofLines (hne : ls ≠ []) (hlines : lines (ofLines ls) = ls) (hkept : trimLines ls = ls)
    (hshared : sharedIndent ls = []) : trim? (ofLines ls) = some ⟨ofLines ls, 0⟩ := by
  have habove : ls.takeWhile isBlank = [] := by rw [← hkept, takeWhile_isBlank_trimLines]
  have hunindent : ls.map (unindent []) = ls :=
    (List.map_congr_left fun _ _ => rfl).trans ls.map_id
  rw [trim?, hlines, hkept, habove]
  split
  · exact absurd rfl hne
  · simp only [hshared, hunindent, List.foldl_nil, List.length_nil]

/-- Trimming leaves what it made as it is. -/
theorem trim?_content {t : Text} {trimmed : Trimmed} (h : trim? t = some trimmed) :
    trim? trimmed.content = some ⟨trimmed.content, 0⟩ := by
  have hare : AreRows (rows t) := by rw [AreRows, flatten_rows]
  rw [← flatten_rows t, hare.trim?_flatten] at h
  split at h
  · cases h
  · rename_i hne
    cases h
    have hkept : trimLines ((trimLines (rows t)).map chomp) = (trimLines (rows t)).map chomp := by
      rw [← hare.trimLines_lines, trimLines_trimLines]
    refine trim?_ofLines ?_ (lines_ofLines_keptLines hne) ?_ (sharedIndent_map_unindent _)
    · simpa [keptLines] using hne
    · rw [keptLines, sharedOf, trimLines_map fun l _ => isBlank_unindent _ l, hkept]

theorem isBlank_of_trim? {t : Text} {trimmed : Trimmed} (h : trim? t = some trimmed) :
    isBlank t = false := by
  have hare : AreRows (rows t) := by rw [AreRows, flatten_rows]
  rw [← flatten_rows t, hare.trim?_flatten] at h
  by_contra hblank
  rw [Bool.not_eq_false] at hblank
  have hrows : trimLines (rows t) = [] := by
    apply trimLines_eq_nil_iff.mpr
    intro row hrow
    apply List.all_eq_true.mpr
    intro c hc
    exact List.all_eq_true.mp hblank c (flatten_rows t ▸ List.mem_flatten.mpr ⟨row, hrow, hc⟩)
  rw [if_pos hrows] at h
  cases h

/-! ## Chunks of chunks -/

/-- The chunk of a text that is left whole and has nothing to be trimmed. -/
def Chunk.whole (text : Text) : Chunk where
  content := text
  offset := 0
  origin := none
  order := none
  oversized := false
  kind := none

theorem finalize_whole {s : CommentSyntax} {filter : Bool} {text : Text}
    (htrim : trim? text = some ⟨text, 0⟩) (hkeep : (filter && isInsignificant s text) = false) :
    finalize s filter [{ excerpt := .whole text }] = [Chunk.whole text] := by
  have hchunk : Candidate.chunk? s filter { excerpt := .whole text } = some (Chunk.whole text) :=
    chunk?_eq_some_iff.mpr ⟨⟨text, 0⟩, by rw [Excerpt.text_whole, htrim], hkeep, rfl⟩
  rw [finalize_eq_numberFrom, List.filterMap_cons_some hchunk]
  rfl

namespace Chunker

variable {c : Chunker} {doc : Document} {signal : Option Signal} {ks : List Chunk} {k : Chunk}
  {budget fit : Nat} {size : Text → Nat}

/-- A text that fits whole and is trimmed is its only chunk. -/
theorem result_chunk_of_trimmed (hbudgets : budgets c.estimator.contextLength = .ok (budget, fit))
    (hfit : (c.estimator.measure doc.text).1 ≤ fit) (htrim : trim? doc.text = some ⟨doc.text, 0⟩)
    (hkeep : (c.filter && isInsignificant (Language.commentSyntax doc.language) doc.text) = false) :
    (c.chunk doc none).result = .ok [.whole doc.text] := by
  have hcandidates : (c.candidates doc none).1 = .ok [{ excerpt := .whole doc.text }] := by
    have hblank : ¬isBlank doc.text = true := by rw [isBlank_of_trim? htrim]; nofun
    rw [candidates, candidatePlan, if_neg hblank, hbudgets]
    change (Plan.run (if (c.estimator.measure doc.text).1 ≤ fit then _ else _) _).1 = _
    rw [if_pos hfit]
    rfl
  rw [result_chunk, run_plan, hcandidates]
  exact congrArg Except.ok (finalize_whole htrim hkeep)

theorem isBlank_of_mem (h : (c.chunk doc signal).result = .ok ks) (hk : k ∈ ks) :
    isBlank doc.text = false := by
  by_contra hblank
  obtain ⟨cs, rfl, hgives⟩ := exists_candidates h
  rw [gives_candidatePlan, if_pos (Bool.not_eq_false _ ▸ hblank)] at hgives
  rw [hgives.2] at hk
  cases hk

/-- A chunk of a text that fits whole is what trimming leaves of the text. -/
theorem exists_trim?_of_fitsWhole (h : (c.chunk doc signal).result = .ok ks) (hk : k ∈ ks)
    (hwhole : c.fitsWhole doc = true) : ∃ skipped, trim? doc.text = some ⟨k.content, skipped⟩ := by
  obtain ⟨_, _, cs, -, rfl, hcs⟩ := exists_candidates_of_ne_blank h (isBlank_of_mem h hk)
  rw [if_pos hwhole] at hcs
  have hmem := List.mem_map_of_mem (f := Chunk.unnumbered) hk
  rw [map_unnumbered_finalize, hcs] at hmem
  obtain ⟨candidate, hcandidate, hchunk⟩ := List.mem_filterMap.mp hmem
  rw [List.mem_singleton.mp hcandidate] at hchunk
  obtain ⟨trimmed, htrim, -, hk⟩ := chunk?_eq_some_iff.mp hchunk
  rw [Excerpt.text_whole] at htrim
  have hcontent : k.content = trimmed.content := congrArg Chunk.content hk
  exact ⟨trimmed.skipped, hcontent ▸ htrim⟩

/-- A chunk that is not flagged fits whole, if sizes add up and do not grow by trimming. -/
theorem size_content_le (hbudgets : budgets c.estimator.contextLength = .ok (budget, fit))
    (hle : budget ≤ fit) (hcounts : c.estimator.Counts size)
    (hadd : ∀ a b, size (a ++ b) ≤ size a + size b)
    (htrims : ∀ t trimmed, trim? t = some trimmed → size trimmed.content ≤ size t)
    (h : (c.chunk doc signal).result = .ok ks) (hk : k ∈ ks) (hflag : k.oversized = false) :
    size k.content ≤ fit := by
  -- A text that is cut has chunks within budget; one that fits whole has no larger chunk than itself.
  cases hwhole : c.fitsWhole doc with
  | false =>
    exact (size_content_le_budget hbudgets hwhole h hcounts hadd htrims hk hflag).trans hle
  | true =>
    have hfit : size doc.text ≤ fit := by
      simpa only [fitsWhole, hbudgets, decide_eq_true_eq, hcounts.size_eq] using hwhole
    obtain ⟨_, htrim⟩ := exists_trim?_of_fitsWhole h hk hwhole
    exact (htrims _ _ htrim).trans hfit

/-- Cutting a chunk once more gives the chunk: let a tokenizer that never fails count sizes that add
up and do not grow by trimming. Then a chunk that is not flagged has one chunk, which is all of it and
starts where it starts, is not numbered, has no type and is not flagged, whatever documents the chunker
has cut in the meantime. -/
theorem chunk_content (c : Chunker) (doc : Document) (signal : Option Signal) (ks : List Chunk)
    (size : Text → Nat) (hcounts : c.estimator.Counts size)
    (hadd : ∀ a b, size (a ++ b) ≤ size a + size b)
    (htrims : ∀ t trimmed, trim? t = some trimmed → size trimmed.content ≤ size t)
    (hle : ∀ budget fit, budgets c.estimator.contextLength = .ok (budget, fit) → budget ≤ fit)
    (h : (c.chunk doc signal).result = .ok ks) :
    ∀ k ∈ ks, k.oversized = false → ∀ docs : List (Document × Option Signal),
      ((c.serveAll (docs.map fun d => .chunk d.1 d.2)).chunk { doc with text := k.content }
        none).result = .ok [.whole k.content] := by
  intro k hk hflag docs
  obtain ⟨budget, fit, -, hbudgets, -, -⟩ := exists_candidates_of_ne_blank h (isBlank_of_mem h hk)
  have hfit := size_content_le hbudgets (hle budget fit hbudgets) hcounts hadd htrims h hk hflag
  obtain ⟨candidate, -, hchunk⟩ := exists_candidate_of_mem h hk
  obtain ⟨trimmed, htrim, hkeep, hunnumbered⟩ := chunk?_eq_some_iff.mp hchunk
  have hcontent : trimmed.content = k.content := (congrArg Chunk.content hunnumbered).symm
  obtain ⟨texts, hserved⟩ := c.exists_serveAll (docs.map fun d => .chunk d.1 d.2)
  have hfilter : (docs.map fun d => Request.chunk d.1 d.2).foldl Request.leavesFilter c.filter =
      c.filter := by
    rw [List.foldl_map]
    exact List.foldl_fixed _
  have hafter : (c.estimator.after texts).Counts size := by
    intro before text
    rw [← Token.Estimator.after_append]
    exact hcounts (texts ++ before) text
  rw [← Token.Estimator.contextLength_after texts] at hbudgets
  rw [hserved, hfilter]
  apply result_chunk_of_trimmed hbudgets
  · rw [hafter.size_eq]
    exact hfit
  · rw [← hcontent]
    exact trim?_content htrim
  · rw [← hcontent]
    exact hkeep

theorem chunk_content_sample :
    ∃ ks, (sampleChunker.chunk sample none).result = .ok ks ∧
      ks.map Chunk.oversized = [false, true, false] ∧
      ∀ k ∈ ks, k.oversized = false →
        (sampleChunker.chunk { sample with text := k.content } none).result =
          .ok [.whole k.content] := by
  refine ⟨_, rfl, rfl, fun k hk hflag => ?_⟩
  refine chunk_content sampleChunker sample none _ List.length ?_ (fun _ _ => List.length_append.le)
    ?_ ?_ rfl k hk hflag []
  · exact Token.Estimator.counts_of_tokenizer rfl fun _ text => ⟨_, rfl, List.length_range⟩
  · exact fun _ _ htrim => (content_sublist_of_trim? htrim).length_le
  · intro budget fit hbudgets
    have hten : budgets sampleChunker.estimator.contextLength = .ok (8, 9) := rfl
    rw [hten] at hbudgets
    cases hbudgets
    decide

end Chunker

end SourceIndex.Chunking
