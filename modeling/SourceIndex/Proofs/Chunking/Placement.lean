import SourceIndex.Proofs.Chunking.Candidates
import SourceIndex.Proofs.Chunking.Trim

/-! # Where chunks stand in their text

A chunk is made of consecutive rows of its text, the first and the last of them not blank
(`Chunk.MadeOf`), which is what trimming leaves of an excerpt (`madeOf_of_chunk?`). Its offset and
its content therefore tell the lines that it covers (`Chunk.MadeOf.firstLine_eq`,
`Chunk.MadeOf.endLine_eq`). -/

namespace SourceIndex.Chunking

open Text

/-- The number of the line that a chunk starts on. -/
def Chunk.firstLine (t : Text) (k : Chunk) : Nat :=
  (t.take k.offset).count '\n'

/-- The number of the line behind a chunk. -/
def Chunk.endLine (t : Text) (k : Chunk) : Nat :=
  k.firstLine t + (lines k.content).length

theorem Chunk.firstLine_lt_endLine (t : Text) (k : Chunk) : k.firstLine t < k.endLine t :=
  Nat.lt_add_of_pos_right (List.length_pos_iff.mpr (lines_ne_nil k.content))

/-- A chunk made of rows of a text, with the rows above and below them. -/
structure Chunk.MadeOf (t : Text) (k : Chunk) (above own below : List Text) : Prop where
  rows_eq : rows t = above ++ (own ++ below)
  ne_nil : own ≠ []
  first : ∀ row, own.head? = some row → isBlank row = false
  last : ∀ row, own.getLast? = some row → isBlank row = false
  offset_eq : k.offset = above.flatten.length + (sharedIndent (own.map chomp)).length
  lines_eq : lines k.content = (own.map chomp).map (unindent (sharedIndent (own.map chomp)))

namespace Chunk.MadeOf

variable {t : Text} {k : Chunk} {above own below : List Text}

/-- No more than the blanks before its first line are taken from a chunk. -/
theorem length_sharedIndent_le (h : k.MadeOf t above own below) {row : Text}
    (hrow : own.head? = some row) : (sharedIndent (own.map chomp)).length ≤ (chomp row).length := by
  have hmem : row ∈ own := List.mem_of_head? hrow
  have hblank : isBlank (chomp row) = false := by
    rw [isBlank_chomp (t := t) (by rw [h.rows_eq]; simp [hmem])]
    exact h.first row hrow
  exact (sharedIndent_isPrefix (List.mem_map_of_mem hmem) hblank).length_le

theorem firstLine_eq (h : k.MadeOf t above own below) : k.firstLine t = above.length := by
  obtain ⟨row, own', hown⟩ := List.exists_cons_of_ne_nil h.ne_nil
  have hrows := h.rows_eq
  rw [hown, List.cons_append] at hrows
  rw [Chunk.firstLine, h.offset_eq]
  exact count_newline_above hrows (h.length_sharedIndent_le (by rw [hown]; rfl))

theorem endLine_eq (h : k.MadeOf t above own below) :
    k.endLine t = above.length + own.length := by
  rw [Chunk.endLine, h.firstLine_eq, h.lines_eq, List.length_map, List.length_map]

end Chunk.MadeOf

/-! ## From candidates to chunks -/

theorem Excerpt.IsOf.areRows {e : Excerpt} {t : Text} (h : e.IsOf t) : AreRows e.rows := by
  obtain ⟨above, below, hrows, -⟩ := h
  have := (rows_flatten_of_append hrows).2
  exact (rows_flatten_of_append this).1

/-- The chunk of a candidate is what trimming leaves of its excerpt. -/
theorem chunk?_eq_some_iff {s : CommentSyntax} {filter : Bool} {c : Candidate} {k : Chunk} :
    c.chunk? s filter = some k ↔
      ∃ trimmed, trim? c.excerpt.text = some trimmed ∧
        (filter && isInsignificant s trimmed.content) = false ∧
        k = { content := trimmed.content, offset := c.excerpt.start + trimmed.skipped,
              origin := c.origin, order := none, oversized := c.oversized, kind := c.kind } := by
  rw [Candidate.chunk?]
  split
  · rename_i hnone
    rw [hnone]
    exact ⟨nofun, fun ⟨_, h, _⟩ => nomatch h⟩
  · rename_i trimmed htrim
    rw [htrim]
    split
    · rename_i hdrop
      refine ⟨nofun, ?_⟩
      rintro ⟨_, ⟨⟩, hkeep, -⟩
      rw [hdrop] at hkeep
      cases hkeep
    · rename_i hkeep
      constructor
      · rintro ⟨⟩
        exact ⟨trimmed, rfl, Bool.eq_false_iff.mpr hkeep, rfl⟩
      · rintro ⟨_, ⟨⟩, -, rfl⟩
        rfl

/-- Without the filter, a candidate has no chunk only if its rows are blank. -/
theorem isBlank_of_chunk?_eq_none {s : CommentSyntax} {c : Candidate} {t : Text}
    (hc : c.excerpt.IsOf t) (h : c.chunk? s false = none) :
    ∀ row ∈ c.excerpt.rows, isBlank row = true := by
  rw [← trimLines_eq_nil_iff]
  by_contra hne
  rw [Candidate.chunk?, Excerpt.text, hc.areRows.trim?_flatten, if_neg hne] at h
  cases h

/-- A chunk is made of what trimming keeps of its candidate's rows. -/
theorem madeOf_of_chunk? {s : CommentSyntax} {filter : Bool} {c : Candidate} {k : Chunk} {t : Text}
    {above below : List Text} (hrows : rows t = above ++ (c.excerpt.rows ++ below))
    (hstart : c.excerpt.start = above.flatten.length) (h : c.chunk? s filter = some k) :
    k.MadeOf t (above ++ c.excerpt.rows.takeWhile isBlank) (trimLines c.excerpt.rows)
      ((c.excerpt.rows.dropWhile isBlank).rtakeWhile isBlank ++ below) := by
  obtain ⟨trimmed, htrim, -, rfl⟩ := chunk?_eq_some_iff.mp h
  have hare : AreRows c.excerpt.rows := Excerpt.IsOf.areRows ⟨above, below, hrows, hstart⟩
  rw [Excerpt.text, hare.trim?_flatten] at htrim
  split at htrim
  · cases htrim
  · rename_i hne
    cases htrim
    refine ⟨?_, hne, fun _ => isBlank_head?_trimLines, fun _ => isBlank_getLast?_trimLines, ?_,
      lines_ofLines_keptLines hne⟩
    · conv_lhs => rw [hrows, eq_trimLines c.excerpt.rows]
      simp only [List.append_assoc]
    · rw [hstart, List.flatten_append, List.length_append, ← Nat.add_assoc]
      rfl

/-! ## Numbering -/

/-- A chunk without its number. -/
def Chunk.unnumbered (k : Chunk) : Chunk :=
  { k with order := none }

theorem length_renumberFrom {κ : Type} [BEq κ] (seen : List κ)
    (entries : List (Option κ × Option Nat)) :
    (renumberFrom seen entries).length = entries.length := by
  fun_induction renumberFrom seen entries <;> simp_all

/-- Numbering changes nothing else of the chunks. -/
theorem map_unnumbered_finalize (s : CommentSyntax) (filter : Bool) (cs : List Candidate) :
    (finalize s filter cs).map Chunk.unnumbered = cs.filterMap (·.chunk? s filter) := by
  have hnone : ∀ k ∈ cs.filterMap (·.chunk? s filter), k.unnumbered = k := by
    intro k hk
    obtain ⟨c, -, hc⟩ := List.mem_filterMap.mp hk
    obtain ⟨_, -, -, rfl⟩ := chunk?_eq_some_iff.mp hc
    rfl
  have hlen : (cs.filterMap (·.chunk? s filter)).length =
      (renumber ((cs.filterMap (·.chunk? s filter)).map fun c => (c.origin, c.order))).length := by
    rw [renumber, length_renumberFrom, List.length_map]
  rw [finalize, ← List.map_uncurry_zip_eq_zipWith, List.map_map]
  refine Eq.trans ?_ ((List.map_congr_left hnone).trans (List.map_id _))
  conv_rhs => rw [← List.map_fst_zip hlen.le, List.map_map]
  rfl

end SourceIndex.Chunking
