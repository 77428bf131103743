import SourceIndex.Proofs.Chunking.Outcome
import SourceIndex.Proofs.Token.Budget

/-! # Chunks cover their text

No line is lost, none is doubled, and none changes its place. Excerpts that tile rows make chunks
that cover each row that is not blank once, in order (`coversRows_of_tiling`); the candidates of a
document are such tiles, so its chunks cover it from its first kept line on
(`Chunker.chunk_coversFrom`). -/

namespace SourceIndex.Chunking

open Text

/-- A chunk covers the lines from its first on, as many as its content has. -/
def Chunk.Covers (t : Text) (k : Chunk) (line : Nat) : Prop :=
  k.firstLine t ≤ line ∧ line < k.endLine t

instance (t : Text) (k : Chunk) (line : Nat) : Decidable (k.Covers t line) :=
  inferInstanceAs (Decidable (_ ∧ _))

/-- Chunks cover a text from a line on: each line from there on that is not blank is covered by
exactly one chunk, no line before is covered, and each chunk covers lines behind those of the chunks
before it. -/
structure CoversFrom (t : Text) (first : Nat) (ks : List Chunk) : Prop where
  once : ∀ number line, (lines t)[number]? = some line → isBlank line = false → first ≤ number →
    ks.countP (fun k => k.Covers t number) = 1
  above : ∀ number < first, ∀ k ∈ ks, ¬k.Covers t number
  ascending : ks.Pairwise fun k k' => k.endLine t ≤ k'.firstLine t
  nonempty : ∀ k ∈ ks, k.firstLine t < k.endLine t

variable {t : Text} {ks : List Chunk}

/-! ## Rows of tiles -/

/-- Chunks cover a run of rows: they lie among these rows, in order, and each row that is not blank
is covered once. -/
structure CoversRows (t : Text) (above rs : List Text) (ks : List Chunk) : Prop where
  within : ∀ k ∈ ks, above.length ≤ k.firstLine t ∧ k.endLine t ≤ above.length + rs.length
  ascending : ks.Pairwise fun k k' => k.endLine t ≤ k'.firstLine t
  once : ∀ i row, rs[i]? = some row → isBlank row = false →
    ks.countP (fun k => k.Covers t (above.length + i)) = 1

namespace CoversRows

variable {above rs : List Text}

theorem nil : CoversRows t above [] [] :=
  ⟨nofun, .nil, fun _ _ h => by simp at h⟩

theorem skip {row : Text} (hrow : isBlank row = true)
    (h : CoversRows t (above ++ [row]) rs ks) : CoversRows t above (row :: rs) ks := by
  have hlen : (above ++ [row]).length = above.length + 1 := by simp
  refine ⟨?_, h.ascending, ?_⟩
  · intro k hk
    have := h.within k hk
    rw [hlen] at this
    rw [List.length_cons]
    omega
  · intro i r hr hblank
    cases i with
    | zero =>
      cases hr
      rw [hrow] at hblank
      cases hblank
    | succ i =>
      have := h.once i r hr hblank
      rwa [hlen, Nat.add_right_comm, Nat.add_assoc] at this

theorem of_blank {own : List Text} (hown : ∀ row ∈ own, isBlank row = true)
    (h : CoversRows t (above ++ own) rs ks) : CoversRows t above (own ++ rs) ks := by
  induction own generalizing above with
  | nil => simpa using h
  | cons row own ih =>
    obtain ⟨hrow, hown⟩ := List.forall_mem_cons.mp hown
    exact .skip hrow (ih hown (by simpa using h))

theorem cons {own below : List Text} {k : Chunk} (hk : k.MadeOf t above own below)
    (h : CoversRows t (above ++ own) rs ks) : CoversRows t above (own ++ rs) (k :: ks) := by
  have hfirst := hk.firstLine_eq
  have hend := hk.endLine_eq
  have hwithin : ∀ k' ∈ ks, above.length + own.length ≤ k'.firstLine t ∧
      k'.endLine t ≤ above.length + (own ++ rs).length := by
    intro k' hk'
    have := h.within k' hk'
    simp only [List.length_append] at this ⊢
    omega
  refine ⟨?_, ?_, ?_⟩
  · refine List.forall_mem_cons.mpr ⟨?_, ?_⟩
    · rw [hfirst, hend, List.length_append]
      omega
    · intro k' hk'
      have := hwithin k' hk'
      omega
  · refine List.pairwise_cons.mpr ⟨?_, h.ascending⟩
    intro k' hk'
    rw [hend]
    exact (hwithin k' hk').1
  · intro i row hrow hblank
    by_cases hi : i < own.length
    · have hcovers : k.Covers t (above.length + i) := by
        rw [Chunk.Covers, hfirst, hend]
        omega
      have hnone : ∀ k' ∈ ks, ¬k'.Covers t (above.length + i) := by
        intro k' hk' hcovers
        have := (hwithin k' hk').1
        have := hcovers.1
        omega
      rw [List.countP_cons_of_pos (by simpa using hcovers),
        List.countP_eq_zero.mpr (by simpa using hnone)]
    · have hnot : ¬k.Covers t (above.length + i) := by
        rw [Chunk.Covers, hfirst, hend]
        omega
      have hrest : above.length + i = (above ++ own).length + (i - own.length) := by
        rw [List.length_append]
        omega
      rw [List.countP_cons_of_neg (by simpa using hnot), hrest]
      rw [List.getElem?_append_right (Nat.le_of_not_lt hi)] at hrow
      exact h.once _ row hrow hblank

end CoversRows

/-- Candidates that tile rows make chunks that cover them. -/
theorem coversRows_of_tiling {s : CommentSyntax} {above rs below : List Text} {pos : Nat}
    {es : List Excerpt} (h : Tiling pos rs es) (hrows : rows t = above ++ (rs ++ below))
    (hpos : pos = above.flatten.length) {cs : List Candidate}
    (hcs : cs.map Candidate.excerpt = es) :
    CoversRows t above rs (cs.filterMap (·.chunk? s false)) := by
  induction h generalizing above cs with
  | nil =>
    rw [List.map_eq_nil_iff.mp hcs]
    exact .nil
  | @skip _ row _ _ hrow _ ih =>
    exact .skip hrow (ih (by simp [hrows]) (by simp [hpos]) hcs)
  | @tile rs es pos own _ ih =>
    obtain ⟨c, cs, rfl, hc, hcs⟩ := List.map_eq_cons_iff.mp hcs
    have hown : c.excerpt.rows = own := by rw [hc]
    have hrest : CoversRows t (above ++ own) rs (cs.filterMap (·.chunk? s false)) :=
      ih (by simp [hrows]) (by simp [hpos]) hcs
    have hrows' : rows t = above ++ (c.excerpt.rows ++ (rs ++ below)) := by
      rw [hrows, hown, List.append_assoc]
    have hstart : c.excerpt.start = above.flatten.length := by rw [hc, hpos]
    cases hk : c.chunk? s false with
    | none =>
      rw [List.filterMap_cons_none hk]
      exact .of_blank (hown ▸ isBlank_of_chunk?_eq_none ⟨above, _, hrows', hstart⟩ hk) hrest
    | some k =>
      have hmade := madeOf_of_chunk? hrows' hstart hk
      rw [List.filterMap_cons_some hk]
      rw [hown] at hmade
      -- The rows that trimming takes from both edges are blank.
      have hlead : ∀ row ∈ own.takeWhile isBlank, isBlank row = true := fun row =>
        List.mem_takeWhile_imp
      have htrail : ∀ row ∈ (own.dropWhile isBlank).rtakeWhile isBlank, isBlank row = true :=
        fun row => List.mem_rtakeWhile_imp
      rw [eq_trimLines own] at hrest ⊢
      rw [List.append_assoc, List.append_assoc]
      refine .of_blank hlead (.cons hmade (.of_blank htrail ?_))
      rwa [List.append_assoc, List.append_assoc]

/-! ## Lines of texts -/

/-- A line that is not blank is on the row of its number. -/
theorem exists_row_of_line {number : Nat} {line : Text} (h : (lines t)[number]? = some line)
    (hblank : isBlank line = false) :
    ∃ row, (rows t)[number]? = some row ∧ isBlank row = false := by
  rw [lines_eq] at h
  by_cases hlt : number < ((rows t).map chomp).length
  · rw [List.getElem?_append_left hlt, List.getElem?_map] at h
    obtain ⟨row, hrow, rfl⟩ := Option.map_eq_some_iff.mp h
    exact ⟨row, hrow, by rw [← hblank, isBlank_chomp (List.mem_of_getElem? hrow)]⟩
  · rw [List.getElem?_append_right (Nat.le_of_not_lt hlt)] at h
    have hmem := List.mem_of_getElem? h
    split at hmem
    · rw [List.mem_singleton.mp hmem] at hblank
      cases hblank
    · exact absurd hmem List.not_mem_nil

/-- Chunks that cover the rows from a line on cover the text from there on. -/
theorem CoversRows.coversFrom {first : Nat}
    (h : CoversRows t ((rows t).take first) ((rows t).drop first) ks) : CoversFrom t first ks := by
  refine ⟨?_, ?_, h.ascending, fun k _ => k.firstLine_lt_endLine t⟩
  · intro number line hline hblank hle
    obtain ⟨row, hrow, hblank⟩ := exists_row_of_line hline hblank
    have hlen : number < (rows t).length := (List.getElem?_eq_some_iff.mp hrow).1
    have hfirst : ((rows t).take first).length + (number - first) = number := by
      rw [List.length_take]
      omega
    have hrow' : ((rows t).drop first)[number - first]? = some row := by
      rw [List.getElem?_drop, Nat.add_sub_cancel' hle]
      exact hrow
    exact hfirst ▸ h.once _ row hrow' hblank
  · intro number hlt k hk hcovers
    have hwithin := h.within k hk
    have hnonempty := k.firstLine_lt_endLine t
    rw [List.length_take, List.length_drop] at hwithin
    have := hcovers.1
    omega

theorem coversFrom_of_isBlank (h : isBlank t = true) (first : Nat) : CoversFrom t first [] := by
  refine ⟨?_, nofun, .nil, nofun⟩
  intro number line hline hblank _
  obtain ⟨row, hrow, hblank⟩ := exists_row_of_line hline hblank
  have hrow : row.all isSpace = true := by
    refine List.all_eq_true.mpr fun ch hch => List.all_eq_true.mp h ch ?_
    rw [← flatten_rows t]
    exact List.mem_flatten_of_mem (List.mem_of_getElem? hrow) hch
  rw [isBlank, hrow] at hblank
  cases hblank

/-- Covering does not depend on the numbers of the chunks. -/
theorem CoversFrom.of_map_unnumbered {first : Nat}
    (h : CoversFrom t first (ks.map Chunk.unnumbered)) : CoversFrom t first ks := by
  refine ⟨?_, ?_, ?_, fun k _ => k.firstLine_lt_endLine t⟩
  · intro number line hline hblank hle
    have honce := h.once number line hline hblank hle
    rwa [List.countP_map] at honce
  · intro number hlt k hk
    exact h.above number hlt k.unnumbered (List.mem_map_of_mem hk)
  · exact List.pairwise_map.mp h.ascending

/-- The lines that are covered and not blank are those from the first kept line on. -/
theorem CoversFrom.exists_covers_iff {first number : Nat} {line : Text} (h : CoversFrom t first ks)
    (hline : (lines t)[number]? = some line) (hblank : isBlank line = false) :
    (∃ k ∈ ks, k.Covers t number) ↔ first ≤ number := by
  constructor
  · rintro ⟨k, hk, hcovers⟩
    exact Nat.le_of_not_lt fun hlt => h.above number hlt k hk hcovers
  · intro hle
    have hpos : 0 < ks.countP fun k => k.Covers t number := by
      rw [h.once number line hline hblank hle]
      exact Nat.one_pos
    simpa using List.countP_pos_iff.mp hpos

/-! ## Documents -/

/-- There are budgets only for a context length whose parts are finite numbers. -/
theorem hasParts_of_budgets {contextLength : Nat} {sizes : Nat × Nat}
    (h : budgets contextLength = .ok sizes) : Token.HasParts contextLength := by
  rw [budgets] at h
  cases hchunk : Token.part contextLength Token.chunkFactor with
  | error cause =>
    rw [hchunk] at h
    cases h
  | ok chunk =>
    cases hfit : Token.part contextLength Token.fitFactor with
    | error cause =>
      rw [hchunk, hfit] at h
      cases h
    | ok fit =>
      exact List.forall_mem_cons.mpr
        ⟨Token.finite_of_part hchunk, List.forall_mem_singleton.mpr (Token.finite_of_part hfit)⟩

namespace Chunker

variable {c : Chunker} {doc : Document} {signal : Option Signal}

/-- The first line that is kept: that of the first breakpoint, if the text is cut at breakpoints. -/
def firstLine (c : Chunker) (doc : Document) : Nat :=
  if c.fitsWhole doc then 0 else cutFrom doc (c.breakpoints doc)

theorem coversFrom_of_result (hfilter : c.filter = false)
    (hlines : (c.breakpoints doc).Pairwise fun b b' => b.line < b'.line)
    (h : (c.chunk doc signal).result = .ok ks) : CoversFrom doc.text (c.firstLine doc) ks := by
  cases hblank : isBlank doc.text with
  | true =>
    obtain ⟨cs, rfl, hgives⟩ := exists_candidates h
    rw [gives_candidatePlan, if_pos hblank] at hgives
    rw [hgives.2]
    exact coversFrom_of_isBlank hblank _
  | false =>
    obtain ⟨budget, fit, cs, -, rfl, hcs⟩ := exists_candidates_of_ne_blank h hblank
    refine CoversFrom.of_map_unnumbered (CoversRows.coversFrom ?_)
    rw [map_unnumbered_finalize, hfilter]
    have hrows : rows doc.text = (rows doc.text).take (c.firstLine doc) ++
        ((rows doc.text).drop (c.firstLine doc) ++ []) := by
      rw [List.append_nil, List.take_append_drop]
    refine coversRows_of_tiling ?_ hrows rfl rfl
    rw [firstLine]
    split at hcs
    · rw [if_pos ‹_›, hcs]
      exact .single (.whole doc.text)
    · rw [if_neg ‹_›]
      obtain ⟨rest, -, hgives⟩ := hcs
      exact tiling_cutPlan hlines hgives

/-- A text that is not blank cannot be cut without budgets. -/
theorem exists_budgetError (hblank : isBlank doc.text = false)
    (hparts : ¬Token.HasParts c.estimator.contextLength)
    (hrun : (c.chunk doc signal).result ≠ .error .cancelled) :
    ∃ cause, budgets c.estimator.contextLength = .error cause ∧
      (c.chunk doc signal).result = .error (.budget cause) := by
  rcases exists_chunks hrun with ⟨ks, hks⟩ | ⟨-, hstopped⟩
  · obtain ⟨_, _, _, hbudgets, -⟩ := exists_candidates_of_ne_blank hks hblank
    exact absurd (hasParts_of_budgets hbudgets) hparts
  · exact hstopped

/-- Without the filter and a cancellation, the chunks of a document cover its text from the first
kept line on; if the text is not left whole, neither the tokenizer nor the context length changes
which of its lines are covered. There are no chunks only where there is no budget for the context
length; and where a part of it is no finite number, a text that is not blank has none. -/
theorem chunk_coversFrom (c : Chunker) (doc : Document) (signal : Option Signal)
    (hfilter : c.filter = false)
    (hlines : (c.breakpoints doc).Pairwise fun b b' => b.line < b'.line)
    (hrun : (c.chunk doc signal).result ≠ .error .cancelled) :
    ((∃ ks, (c.chunk doc signal).result = .ok ks ∧ CoversFrom doc.text (c.firstLine doc) ks ∧
        ∀ (c' : Chunker) (signal' : Option Signal) (ks' : List Chunk),
          c'.filter = false → c'.breakpoints doc = c.breakpoints doc →
          c.fitsWhole doc = false → c'.fitsWhole doc = false →
          (c'.chunk doc signal').result = .ok ks' →
          ∀ number line, (lines doc.text)[number]? = some line → isBlank line = false →
            ((∃ k ∈ ks, k.Covers doc.text number) ↔ ∃ k ∈ ks', k.Covers doc.text number)) ∨
      isBlank doc.text = false ∧ ∃ cause, budgets c.estimator.contextLength = .error cause ∧
        (c.chunk doc signal).result = .error (.budget cause)) ∧
    (isBlank doc.text = false → ¬Token.HasParts c.estimator.contextLength →
      ∃ cause, budgets c.estimator.contextLength = .error cause ∧
        (c.chunk doc signal).result = .error (.budget cause)) := by
  refine ⟨?_, fun hblank hparts => exists_budgetError hblank hparts hrun⟩
  apply (exists_chunks hrun).imp_left
  rintro ⟨ks, hks⟩
  have hcovers := coversFrom_of_result hfilter hlines hks
  refine ⟨ks, hks, hcovers, ?_⟩
  intro c' signal' ks' hfilter' hbreaks hcut hcut' hks'
  have hcovers' := coversFrom_of_result hfilter' (hbreaks ▸ hlines) hks'
  have hfirst : c'.firstLine doc = c.firstLine doc := by
    rw [firstLine, firstLine, hcut, hcut', hbreaks]
  intro number line hline hblank
  rw [hcovers.exists_covers_iff hline hblank, hcovers'.exists_covers_iff hline hblank, hfirst]

theorem chunk_coversFrom_sample :
    ∃ ks ks', (sampleChunker.chunk sample none).result = .ok ks ∧
      ((ofTokenizer 3 .lines sampleBreakpoints).chunk sample none).result = .ok ks' ∧
      CoversFrom sample.text 1 ks ∧
      ∀ number line, (lines sample.text)[number]? = some line → isBlank line = false →
        ((∃ k ∈ ks, k.Covers sample.text number) ↔ ∃ k ∈ ks', k.Covers sample.text number) := by
  have hfirst : sampleChunker.firstLine sample = 1 := by decide +kernel
  have hother : ∃ ks',
      ((ofTokenizer 3 .lines sampleBreakpoints).chunk sample none).result = .ok ks' := ⟨_, rfl⟩
  obtain ⟨ks', hks'⟩ := hother
  rcases (chunk_coversFrom sampleChunker sample none rfl (by decide) (by decide +kernel)).1 with
    ⟨ks, hks, hcovers, hsame⟩ | ⟨-, _, hbudgets, -⟩
  · refine ⟨ks, ks', hks, hks', hfirst ▸ hcovers, ?_⟩
    exact hsame (ofTokenizer 3 .lines sampleBreakpoints) none ks' rfl rfl (by decide +kernel)
      (by decide +kernel) hks'
  · cases hbudgets

/-- A chunker with a context length that no binary64 number can hold. -/
def largeChunker : Chunker :=
  ofTokenizer (Nat.pow 2 1024) .characters []

/-- With such a context length, a document is left without chunks. -/
theorem not_coversFrom_of_large :
    largeChunker.filter = false ∧
      (largeChunker.breakpoints ⟨['x'], none, none⟩).Pairwise (fun b b' => b.line < b'.line) ∧
      (largeChunker.chunk ⟨['x'], none, none⟩ none).result = .error (.budget .lengthTooLarge) ∧
      ¬∃ ks, (largeChunker.chunk ⟨['x'], none, none⟩ none).result = .ok ks ∧
        CoversFrom ['x'] 0 ks := by
  have hresult : (largeChunker.chunk ⟨['x'], none, none⟩ none).result =
      .error (.budget .lengthTooLarge) := by decide +kernel
  refine ⟨rfl, .nil, hresult, ?_⟩
  rintro ⟨ks, hks, -⟩
  rw [hresult] at hks
  cases hks

end Chunker

end SourceIndex.Chunking
