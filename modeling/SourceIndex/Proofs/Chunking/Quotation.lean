import SourceIndex.Proofs.Chunking.Outcome

/-! # Chunks quote their text

A chunk is whole lines of its text, each without some white space at its start, and its offset is
where its first line starts after that white space (`Chunk.Quotes`). This holds of what is made of
rows (`Chunk.MadeOf.quotes`), so of every chunk of a document (`Chunker.exists_quotes`), whatever
the filter does and in whatever order the breakpoints are. -/

namespace SourceIndex.Chunking

open Text

/-- A chunk quotes a text: its line with a number is the line of the text as many lines below its
first, without some blanks at the start, which are the blanks `taken` unless the line is blank. It
starts behind these blanks, and neither its first line nor its last is blank. -/
structure Chunk.Quotes (t : Text) (k : Chunk) (taken : Text) : Prop where
  indent : ∀ c ∈ taken, isIndent c = true
  offset : ∃ start, (lineStarts t)[k.firstLine t]? = some start ∧ k.offset = start + taken.length
  lines : ∀ (j : Nat) (line : Text), (Text.lines k.content)[j]? = some line →
    ∃ source gone, (Text.lines t)[k.firstLine t + j]? = some source ∧ source = gone ++ line ∧
      (∀ c ∈ gone, isIndent c = true) ∧ (isBlank source = false → gone = taken)
  first : ∀ line, (Text.lines k.content).head? = some line →
    isBlank line = false ∧ line <+: t.drop k.offset
  last : ∀ line, (Text.lines k.content).getLast? = some line → isBlank line = false

/-- Indentation does not change whether a line is blank. -/
theorem isBlank_append {gone line : Text} (h : ∀ c ∈ gone, isIndent c = true) :
    isBlank (gone ++ line) = isBlank line := by
  have hgone : gone.all isSpace = true := isBlank_of_isIndent h
  rw [isBlank, List.all_append, hgone, Bool.true_and, isBlank]

theorem isBlank_unindent (ls : List Text) (l : Text) :
    isBlank (unindent (sharedIndent ls) l) = isBlank l := by
  obtain ⟨gone, hgone, hl, -⟩ := exists_unindent ls l
  conv_rhs => rw [hl, isBlank_append hgone]

/-- What is left of a line that is not blank is the line behind the shared indentation. -/
theorem eq_sharedIndent_append {ls : List Text} {l : Text} (h : l ∈ ls) (hl : isBlank l = false) :
    l = sharedIndent ls ++ unindent (sharedIndent ls) l := by
  obtain ⟨gone, -, heq, hshared⟩ := exists_unindent ls l
  conv_lhs => rw [heq, hshared (sharedIndent_isPrefix h hl)]

namespace Chunk.MadeOf

variable {t : Text} {k : Chunk} {above own below : List Text}

theorem isBlank_chomp_own (h : k.MadeOf t above own below) {row : Text} (hrow : row ∈ own) :
    isBlank (chomp row) = isBlank row :=
  isBlank_chomp (t := t) (by rw [h.rows_eq]; simp [hrow])

/-- Each of its rows gives a line of the text and a line of the chunk. -/
theorem exists_line (h : k.MadeOf t above own below) {j : Nat} {line : Text}
    (hline : (lines k.content)[j]? = some line) :
    ∃ row ∈ own, (lines t)[k.firstLine t + j]? = some (chomp row) ∧
      line = unindent (sharedIndent (own.map chomp)) (chomp row) := by
  rw [h.lines_eq, List.getElem?_map, List.getElem?_map, Option.map_map] at hline
  obtain ⟨row, hrow, rfl⟩ := Option.map_eq_some_iff.mp hline
  refine ⟨row, List.mem_of_getElem? hrow, ?_, rfl⟩
  rw [h.firstLine_eq]
  exact getElem?_lines h.rows_eq hrow

theorem quotes (h : k.MadeOf t above own below) :
    k.Quotes t (sharedIndent (own.map chomp)) := by
  obtain ⟨row, own', hown⟩ := List.exists_cons_of_ne_nil h.ne_nil
  have hrows : rows t = above ++ row :: (own' ++ below) := by
    rw [h.rows_eq, hown, List.cons_append]
  have hrow : row ∈ own := hown ▸ List.mem_cons_self
  have hblank : isBlank (chomp row) = false := by
    rw [h.isBlank_chomp_own hrow]
    exact h.first row (by rw [hown]; rfl)
  have hsplit := eq_sharedIndent_append (List.mem_map_of_mem hrow) hblank
  refine ⟨fun _ => isIndent_of_mem_sharedIndent, ?_, ?_, ?_, ?_⟩
  · refine ⟨above.flatten.length, ?_, h.offset_eq⟩
    rw [h.firstLine_eq]
    exact lineStarts_above hrows
  · intro j line hline
    obtain ⟨row, hrow, hsource, rfl⟩ := h.exists_line hline
    obtain ⟨gone, hgone, heq, hshared⟩ := exists_unindent (own.map chomp) (chomp row)
    refine ⟨chomp row, gone, hsource, heq, hgone, fun hblank => hshared ?_⟩
    exact sharedIndent_isPrefix (List.mem_map_of_mem hrow) hblank
  · intro line hline
    have hline : unindent (sharedIndent (own.map chomp)) (chomp row) = line := by
      rw [h.lines_eq, List.map_map, List.head?_map, hown] at hline
      rw [hown]
      exact Option.some.inj hline
    refine ⟨by rw [← hline, isBlank_unindent, hblank], ?_⟩
    -- The text from the offset on is the rest of the first line, its newline and the other rows.
    have hprefix : chomp row <+: row ++ (own' ++ below).flatten :=
      (List.takeWhile_prefix _).trans (List.prefix_append _ _)
    rw [hsplit, hline] at hprefix
    obtain ⟨rest, hrest⟩ := hprefix
    rw [h.offset_eq, ← flatten_rows t, hrows, List.flatten_append, List.flatten_cons,
      List.drop_length_add_append, ← hrest, List.append_assoc, List.drop_left]
    exact List.prefix_append line rest
  · intro line hline
    rw [h.lines_eq, List.map_map, List.getLast?_map] at hline
    obtain ⟨row, hrow, rfl⟩ := Option.map_eq_some_iff.mp hline
    rw [Function.comp_apply, isBlank_unindent,
      h.isBlank_chomp_own (List.mem_of_getLast? hrow)]
    exact h.last row hrow

end Chunk.MadeOf

/-- Every chunk of a document quotes its text. A chunk carries its own offset and metadata, so there
are as many of these as there are contents. -/
theorem Chunker.exists_quotes (c : Chunker) (doc : Document) (signal : Option Signal)
    (ks : List Chunk) (h : (c.chunk doc signal).result = .ok ks) :
    ∀ k ∈ ks, ∃ taken, k.Quotes doc.text taken := by
  intro k hk
  obtain ⟨above, own, below, hmade⟩ := exists_madeOf h hk
  exact ⟨_, hmade.quotes⟩

theorem Chunker.exists_quotes_sample :
    ∃ ks, ((ofTokenizer 10 .characters [⟨4, none⟩, ⟨1, some "f"⟩, ⟨1, none⟩, ⟨9, none⟩]).chunk
        sample none).result = .ok ks ∧
      ks.length = 3 ∧ ∀ k ∈ ks, ∃ taken, k.Quotes sample.text taken := by
  have hchunks : ∃ ks, ((ofTokenizer 10 .characters
      [⟨4, none⟩, ⟨1, some "f"⟩, ⟨1, none⟩, ⟨9, none⟩]).chunk sample none).result = .ok ks ∧
        ks.length = 3 := ⟨_, rfl, rfl⟩
  obtain ⟨ks, hks, hlength⟩ := hchunks
  exact ⟨ks, hks, hlength, exists_quotes _ sample none ks hks⟩

end SourceIndex.Chunking
