import SourceIndex.Proofs.Chunking.Significance
import Mathlib.Data.List.Infix
import Mathlib.Tactic.MkIffOfInductiveProp

/-! # Texts of remarks

A text of remarks is white space, closing delimiters and comments from its start to its end (`Remarks`).
The marks of a language are words, and what stands at a place is told by the mark there (`IsClear`), so
each line of such a text is read to its end, up to a block comment that passes on to the next line
(`Remarks.exists_reaches_trim`), and the filter reads it in the same way
(`IsClear.scanLine_of_reaches`). There is one exception: a comment that opens behind a closing delimiter
is not passed on (`LosesComment`). So the filter drops every text of remarks, unless it lost a comment
and takes the lines below for code (`isInsignificant_or_losesComment`). -/

namespace SourceIndex.Chunking

open Relation (ReflTransGen)
open Text

/-- A text of remarks: white space, closing delimiters, line comments up to the ends of their lines, and
block comments up to their first closing, or to the end of the text if there is none. `pending` is the
closing of the block comment that is open at its start. -/
inductive Remarks (s : CommentSyntax) : Option Text → Text → Prop where
  | nil : Remarks s none []
  | space {c : Char} {rest : Text} : isSpace c = true → Remarks s none rest →
      Remarks s none (c :: rest)
  | closer {k rest : Text} : k ∈ s.closers → Remarks s none rest → Remarks s none (k ++ rest)
  | lineComment {m rest : Text} : m ∈ s.line → Remarks s none (rest.dropWhile (· != '\n')) →
      Remarks s none (m ++ rest)
  | opening {b : BlockComment} {rest : Text} : b ∈ s.block → Remarks s (some b.closing) rest →
      Remarks s none (b.opening ++ rest)
  | closing {mark text : Text} {index : Nat} : IsFirstAt mark text index →
      Remarks s none (text.drop (index + mark.length)) → Remarks s (some mark) text
  | unclosed {mark text : Text} : (∀ index, ¬mark <+: text.drop index) → Remarks s (some mark) text

/-- Behind a closing delimiter on the line a block comment opens, and it is open at the end of the
line. -/
inductive LosesComment (s : CommentSyntax) (pending : Option Text) (line : Text) : Prop where
  | intro {k rest mark : Text} : k ∈ s.closers → Reaches s (pending, line) (none, k ++ rest) →
      Reaches s (none, rest) (some mark, []) → LosesComment s pending line

/-! ## Marks -/

/-- A text that is not empty and has no white space in it. -/
def IsWord (t : Text) : Prop :=
  t ≠ [] ∧ ∀ c ∈ t, isSpace c = false

instance (t : Text) : Decidable (IsWord t) :=
  -- Only the characters of `t` are to be looked at, not all that there are.
  haveI : Decidable (∀ c ∈ t, isSpace c = false) := List.decidableBAll _ t
  inferInstanceAs (Decidable (t ≠ [] ∧ ∀ c ∈ t, isSpace c = false))

/-- No text starts with both. -/
def IsApart (mark mark' : Text) : Prop :=
  ¬mark <+: mark' ∧ ¬mark' <+: mark

instance (mark mark' : Text) : Decidable (IsApart mark mark') :=
  inferInstanceAs (Decidable (¬mark <+: mark' ∧ ¬mark' <+: mark))

/-- What stands where a closing delimiter or a comment starts is told by the mark there: marks are
words, marks of different kinds are apart, and no closing delimiter looks like a piece of a block
comment. -/
@[mk_iff]
structure IsClear (s : CommentSyntax) : Prop where
  closers : ∀ k ∈ s.closers, IsWord k ∧ k.head? ≠ some '*'
  line : ∀ m ∈ s.line, IsWord m ∧ ∀ k ∈ s.closers, IsApart k m
  block : ∀ b ∈ s.block, IsWord b.opening ∧ IsWord b.closing ∧
    (∀ k ∈ s.closers, IsApart k b.opening) ∧ (∀ m ∈ s.line, IsApart m b.opening) ∧
    ∀ b' ∈ s.block, b'.opening <+: b.opening → b' = b

theorem IsApart.not_isPrefix {mark mark' t : Text} (h : IsApart mark mark') (hmark : mark <+: t) :
    ¬mark' <+: t := by
  intro hmark'
  rcases List.prefix_or_prefix_of_prefix hmark hmark' with hle | hle
  · exact h.1 hle
  · exact h.2 hle

namespace IsWord

variable {mark t u : Text}

theorem not_isPrefix_nil (h : IsWord mark) : ¬mark <+: [] :=
  fun hmark => h.1 (List.prefix_nil.mp hmark)

theorem not_isPrefix_cons (h : IsWord mark) {c : Char} (hc : isSpace c = true) : ¬mark <+: c :: t := by
  intro hmark
  obtain ⟨d, mark, rfl⟩ := List.exists_cons_of_ne_nil h.1
  obtain rfl := (List.cons_prefix_cons.mp hmark).1
  rw [h.2 d List.mem_cons_self] at hc
  cases hc

theorem ne_nil (h : IsWord mark) (hmark : mark <+: t) : t ≠ [] := by
  rintro rfl
  exact h.not_isPrefix_nil hmark

theorem head?_of_isPrefix (h : IsWord mark) (hmark : mark <+: t) :
    ∀ c ∈ t.head?, isSpace c = false := by
  intro c hc
  obtain ⟨t, rfl⟩ := List.head?_eq_some_iff.mp hc
  by_contra hspace
  exact h.not_isPrefix_cons (Bool.not_eq_false _ ▸ hspace) hmark

/-- A word at the start of a text stands in the part of it that white space goes behind. -/
theorem isPrefix_of_append (h : IsWord mark) (hu : ∀ c ∈ u.head?, isSpace c = true)
    (hmark : mark <+: t ++ u) : mark <+: t := by
  rcases List.prefix_or_prefix_of_prefix hmark (List.prefix_append t u) with hle | ⟨rest, rfl⟩
  · exact hle
  · rw [List.prefix_append_right_inj] at hmark
    cases rest with
    | nil => simp
    | cons c rest =>
      obtain ⟨rest', rfl⟩ := hmark
      have hc := hu c rfl
      rw [h.2 c (List.mem_append_right _ List.mem_cons_self)] at hc
      cases hc

theorem exists_eq_append (h : IsWord mark) (hu : ∀ c ∈ u.head?, isSpace c = true) {rest : Text}
    (heq : t ++ u = mark ++ rest) : ∃ rest', t = mark ++ rest' ∧ rest = rest' ++ u := by
  obtain ⟨rest', rfl⟩ := h.isPrefix_of_append hu ⟨rest, heq.symm⟩
  rw [List.append_assoc] at heq
  exact ⟨rest', rfl, (List.append_cancel_left heq).symm⟩

theorem not_isPrefix_drop (h : IsWord mark) (hnone : ∀ i ≤ t.length, ¬mark <+: (t ++ u).drop i)
    (i : Nat) : ¬mark <+: t.drop i := by
  intro hmark
  by_cases hi : i ≤ t.length
  · apply hnone i hi
    rw [List.drop_append_of_le_length hi]
    exact hmark.trans (List.prefix_append _ u)
  · rw [List.drop_of_length_le (by omega)] at hmark
    exact h.not_isPrefix_nil hmark

/-- The first place of a word is in the part of a text that white space goes behind, or the word is not
in that part. -/
theorem isFirstAt_of_append (h : IsWord mark) (hu : ∀ c ∈ u.head?, isSpace c = true) {index : Nat}
    (hfirst : IsFirstAt mark (t ++ u) index) :
    IsFirstAt mark t index ∧ index + mark.length ≤ t.length ∨
      (∀ i, ¬mark <+: t.drop i) ∧ ∃ i, index = t.length + i ∧ IsFirstAt mark u i := by
  by_cases hindex : index ≤ t.length
  · have hoccurs : mark <+: t.drop index :=
      h.isPrefix_of_append hu (List.drop_append_of_le_length hindex ▸ hfirst.occurs)
    refine .inl ⟨⟨hoccurs, fun i hi hmark => hfirst.first i hi ?_⟩, ?_⟩
    · rw [List.drop_append_of_le_length (by omega)]
      exact hmark.trans (List.prefix_append _ u)
    · have hle := hoccurs.length_le
      rw [List.length_drop] at hle
      omega
  · obtain ⟨i, rfl⟩ := Nat.exists_eq_add_of_le (Nat.le_of_not_le hindex)
    refine .inr ⟨h.not_isPrefix_drop fun j hj => hfirst.first j (by omega), i, rfl, ?_, ?_⟩
    · simpa only [List.drop_length_add_append] using hfirst.occurs
    · intro j hj
      simpa only [List.drop_length_add_append] using hfirst.first (t.length + j) (by omega)

end IsWord

/-! ## Reading lines of remarks -/

variable {s : CommentSyntax} {pending pending' : Option Text} {line t u : Text}

/-- What stands first on a line that is read to its end, if no white space stands there. -/
theorem exists_mark_of_reaches (hne : line ≠ []) (hspace : ∀ c ∈ line.head?, isSpace c = false)
    (h : Reaches s (none, line) (pending', [])) :
    (∃ k ∈ s.closers, ∃ rest, line = k ++ rest ∧ Reaches s (none, rest) (pending', [])) ∨
    (∃ m ∈ s.line, m <+: line ∧ Reaches s (none, []) (pending', [])) ∨
    ∃ b ∈ s.block, ∃ rest, line = b.opening ++ rest ∧
      Reaches s (some b.closing, rest) (pending', []) := by
  rcases ReflTransGen.cases_head h with heq | ⟨x, hreads, hrest⟩
  · cases heq
    exact absurd rfl hne
  · rw [reads_none_iff] at hreads
    rcases hreads with ⟨c, rest, hc, rfl, rfl⟩ | ⟨k, hk, rest, rfl, rfl⟩ | ⟨m, hm, rest, rfl, rfl⟩ |
      ⟨b, hb, rest, rfl, rfl⟩
    · rw [hspace c rfl] at hc
      cases hc
    · exact .inl ⟨k, hk, rest, rfl, hrest⟩
    · exact .inr (.inl ⟨m, hm, List.prefix_append m rest, hrest⟩)
    · exact .inr (.inr ⟨b, hb, rest, rfl, hrest⟩)

/-- The closing of an open comment, if there is one, is a word. -/
def IsPending (pending : Option Text) : Prop :=
  ∀ mark ∈ pending, IsWord mark

theorem isPending_none : IsPending none := by
  rintro _ ⟨⟩

theorem isPending_some {mark : Text} : IsPending (some mark) ↔ IsWord mark := by
  simp [IsPending]

theorem IsFirstAt.unique {mark : Text} {index index' : Nat} (h : IsFirstAt mark t index)
    (h' : IsFirstAt mark t index') : index = index' := by
  rcases Nat.lt_trichotomy index index' with hlt | heq | hlt
  · exact absurd h.occurs (h'.first index hlt)
  · exact heq
  · exact absurd h'.occurs (h.first index' hlt)

namespace IsClear

/-- At the end of a line nothing is left to be read. -/
theorem eq_of_reaches_nil (hs : IsClear s) (hpending : IsPending pending)
    (h : Reaches s (pending, []) (pending', [])) : pending' = pending := by
  suffices H : ∀ x, Reaches s (pending, []) x → x = (pending, []) from (Prod.mk.inj (H _ h)).1
  intro x h
  induction h with
  | refl => rfl
  | tail _ hreads ih =>
    subst ih
    generalize hnil : ([] : Text) = rest at hreads
    cases hreads with
    | space => cases hnil
    | closer hk => exact absurd (List.append_eq_nil_iff.mp hnil.symm).1 (hs.closers _ hk).1.1
    | lineComment hm => exact absurd (List.append_eq_nil_iff.mp hnil.symm).1 (hs.line _ hm).1.1
    | opening hb => exact absurd (List.append_eq_nil_iff.mp hnil.symm).1 (hs.block _ hb).1.1
    | closing hfirst =>
      have hoccurs := hfirst.occurs
      rw [← hnil, List.drop_nil] at hoccurs
      exact absurd hoccurs (isPending_some.mp hpending).not_isPrefix_nil
    | inside => rw [hnil]

theorem reaches_of_space (hs : IsClear s) {c : Char} (hc : isSpace c = true)
    (h : Reaches s (none, c :: t) (pending', [])) : Reaches s (none, t) (pending', []) := by
  rcases ReflTransGen.cases_head h with heq | ⟨x, hreads, hrest⟩
  · cases heq
  · rw [reads_none_iff] at hreads
    rcases hreads with ⟨_, rest, _, heq, rfl⟩ | ⟨k, hk, rest, heq, rfl⟩ |
      ⟨m, hm, rest, heq, rfl⟩ | ⟨b, hb, rest, heq, rfl⟩
    · rw [(List.cons.inj heq).2]
      exact hrest
    · exact absurd ⟨rest, heq.symm⟩ ((hs.closers k hk).1.not_isPrefix_cons hc)
    · exact absurd ⟨rest, heq.symm⟩ ((hs.line m hm).1.not_isPrefix_cons hc)
    · exact absurd ⟨rest, heq.symm⟩ ((hs.block b hb).1.not_isPrefix_cons hc)

theorem reaches_trimStart (hs : IsClear s) (h : Reaches s (none, t) (pending', [])) :
    Reaches s (none, trimStart t) (pending', []) := by
  induction t with
  | nil => exact h
  | cons c t ih =>
    rw [trimStart, List.dropWhile_cons]
    split
    next hc => exact ih (hs.reaches_of_space hc h)
    next => exact h

theorem eq_none_of_lineComment (hs : IsClear s) {m : Text} (hm : m ∈ s.line) (hmark : m <+: line)
    (h : Reaches s (none, line) (pending', [])) : pending' = none := by
  have hword := (hs.line m hm).1
  rcases exists_mark_of_reaches (hword.ne_nil hmark) (hword.head?_of_isPrefix hmark) h with
    ⟨k, hk, rest, rfl, -⟩ | ⟨m', hm', -, hrest⟩ | ⟨b, hb, rest, rfl, -⟩
  · exact absurd hmark (((hs.line m hm).2 k hk).not_isPrefix (List.prefix_append k rest))
  · exact hs.eq_of_reaches_nil isPending_none hrest
  · exact absurd (List.prefix_append b.opening rest)
      (((hs.block b hb).2.2.2.1 m hm).not_isPrefix hmark)

theorem reaches_of_opening (hs : IsClear s) {b : BlockComment} (hb : b ∈ s.block)
    (h : Reaches s (none, b.opening ++ t) (pending', [])) :
    Reaches s (some b.closing, t) (pending', []) := by
  obtain ⟨hword, -, hclosers, hline, hsame⟩ := hs.block b hb
  have hmark := List.prefix_append b.opening t
  rcases exists_mark_of_reaches (hword.ne_nil hmark) (hword.head?_of_isPrefix hmark) h with
    ⟨k, hk, rest, heq, -⟩ | ⟨m, hm, hcomment, -⟩ | ⟨b', hb', rest, heq, hrest⟩
  · exact absurd hmark ((hclosers k hk).not_isPrefix ⟨rest, heq.symm⟩)
  · exact absurd hmark ((hline m hm).not_isPrefix hcomment)
  · have hb : b' = b := by
      rcases List.prefix_or_prefix_of_prefix hmark ⟨rest, heq.symm⟩ with hle | hle
      · exact ((hs.block b' hb').2.2.2.2 b hb hle).symm
      · exact hsame b' hb' hle
    subst hb
    rw [List.append_cancel_left heq]
    exact hrest

theorem reaches_of_after? (hs : IsClear s) {mark rest : Text} (hmark : IsWord mark)
    (ht : trimEnd t = t) (hafter : after? mark t = some rest)
    (h : Reaches s (some mark, t) (pending', [])) : Reaches s (none, trim rest) (pending', []) := by
  obtain ⟨index, hfirst, rfl⟩ := exists_isFirstAt_of_after? hafter
  rw [trim_of_isSuffix ht (List.drop_suffix _ t)]
  apply hs.reaches_trimStart
  rcases ReflTransGen.cases_head h with heq | ⟨x, hreads, hrest⟩
  · have hoccurs := hfirst.occurs
    rw [(Prod.mk.inj heq).2, List.drop_nil] at hoccurs
    exact absurd hoccurs hmark.not_isPrefix_nil
  · cases hreads with
    | closing hfirst' => rwa [hfirst'.unique hfirst] at hrest
    | inside hnone => exact absurd hfirst.occurs (hnone index)

theorem eq_of_after?_eq_none (hs : IsClear s) {mark : Text} (hmark : IsWord mark)
    (hafter : after? mark t = none) (h : Reaches s (some mark, t) (pending', [])) :
    pending' = some mark := by
  rcases ReflTransGen.cases_head h with heq | ⟨x, hreads, hrest⟩
  · exact (Prod.mk.inj heq).1.symm
  · cases hreads with
    | closing hfirst =>
      exact absurd hfirst.occurs (not_isPrefix_of_after?_eq_none hafter _)
    | inside => exact hs.eq_of_reaches_nil (isPending_some.mpr hmark) hrest

/-- Closing delimiters that are read to the end of the line are seen as such. -/
theorem isClosing_append (hs : IsClear s) {k rest : Text} (hk : k ∈ s.closers)
    (h : Reaches s (none, rest) (pending', [])) : isClosing s (k ++ rest) = true := by
  have hpositive : 0 < k.length := List.length_pos_iff.mpr (hs.closers k hk).1.1
  have htrim : (trimStart rest).length ≤ rest.length := (List.dropWhile_suffix _).length_le
  rw [isClosing, List.any_eq_true]
  refine ⟨k, hk, ?_⟩
  rw [isPrefixOf?_eq_some_iff.mpr rfl]
  simp only [Bool.or_eq_true]
  by_cases hnil : trimStart rest = []
  · exact .inl (.inl (.inl (List.isEmpty_iff.mpr hnil)))
  · rcases exists_mark_of_reaches hnil (head?_trimStart rest) (hs.reaches_trimStart h) with
      ⟨k', hk', rest', heq, hreaches⟩ | ⟨m, hm, hmark, -⟩ | ⟨b, hb, rest', heq, -⟩
    · -- Another closing delimiter, with less of the line behind it.
      have hpositive' : 0 < k'.length := List.length_pos_iff.mpr (hs.closers k' hk').1.1
      have hlength : rest'.length < rest.length := by
        rw [heq, List.length_append] at htrim
        omega
      have hlt : (trimStart rest).length < (k ++ rest).length := by
        rw [List.length_append]
        omega
      right
      rw [if_pos hlt, heq]
      exact hs.isClosing_append hk' hreaches
    · exact .inl (.inl (.inr (List.any_eq_true.mpr ⟨m, hm, List.isPrefixOf_iff_prefix.mpr hmark⟩)))
    · exact .inl (.inr (List.any_eq_true.mpr
        ⟨b, hb, List.isPrefixOf_iff_prefix.mpr ⟨rest', heq.symm⟩⟩))
termination_by rest.length

end IsClear

/-! ## Scanning lines of remarks -/

theorem length_lt_of_after? {mark rest : Text} (hmark : IsWord mark)
    (h : after? mark t = some rest) : (trim rest).length < t.length := by
  obtain ⟨index, hfirst, rfl⟩ := exists_isFirstAt_of_after? h
  have hpositive : 0 < mark.length := List.length_pos_iff.mpr hmark.1
  have hoccurs := hfirst.occurs.length_le
  have htrim := length_trim_le (t.drop (index + mark.length))
  rw [List.length_drop] at hoccurs htrim
  omega

theorem LosesComment.head {rest : Text} (hreaches : Reaches s (pending, line) (none, rest))
    (h : LosesComment s none rest) : LosesComment s pending line := by
  obtain ⟨hk, hcloser, hcomment⟩ := h
  exact ⟨hk, hreaches.trans hcloser, hcomment⟩

/-- What stands first on a line that is no line comment and opens no block comment is a closing
delimiter, if the line is read to its end. -/
theorem exists_closer_of_reaches (hne : line ≠ []) (hstart : ∀ c ∈ line.head?, isSpace c = false)
    (hcomment : ¬s.line.any (·.isPrefixOf line) = true)
    (hblock : (s.block.find? fun b => b.opening.isPrefixOf line) = none)
    (h : Reaches s (none, line) (pending', [])) :
    ∃ k ∈ s.closers, ∃ rest, line = k ++ rest ∧ Reaches s (none, rest) (pending', []) := by
  rcases exists_mark_of_reaches hne hstart h with hcloser | ⟨m, hm, hmark, -⟩ | ⟨b, hb, rest, rfl, -⟩
  · exact hcloser
  · refine absurd (List.any_eq_true.mpr ⟨m, hm, ?_⟩) hcomment
    exact List.isPrefixOf_iff_prefix.mpr hmark
  · exact absurd (List.isPrefixOf_iff_prefix.mpr (List.prefix_append b.opening rest))
      (List.find?_eq_none.mp hblock b hb)

theorem head?_of_isFragment (h : isFragment line = true) : line.head? = some '*' := by
  simp only [isFragment, Bool.or_eq_true, beq_iff_eq, List.isPrefixOf_iff_prefix] at h
  rcases h with (rfl | ⟨rest, rfl⟩) | ⟨rest, rfl⟩ <;> rfl

/-- A line that is read to its end is scanned in the same way, but a comment may be lost on it. -/
theorem IsClear.scanLine_of_reaches (hs : IsClear s) (hpending : IsPending pending)
    (hstart : ∀ c ∈ line.head?, isSpace c = false) (hend : trimEnd line = line)
    (h : Reaches s (pending, line) (pending', [])) :
    scanLine s pending line = some pending' ∨
      scanLine s pending line = some none ∧ LosesComment s pending line := by
  -- A comment that is lost behind a comment is lost on the line.
  have hbehind {pending : Option Text} {line rest : Text} {answer : Option (Option Text)}
      (hreaches : Reaches s (pending, line) (none, rest))
      (h : answer = some pending' ∨ answer = some none ∧ LosesComment s none rest) :
      answer = some pending' ∨ answer = some none ∧ LosesComment s pending line :=
    h.imp_right (And.imp_right (LosesComment.head hreaches))
  fun_induction scanLine s pending line with
  | case1 pending line hempty =>
    obtain rfl := List.isEmpty_iff.mp hempty
    exact .inl (by rw [hs.eq_of_reaches_nil hpending h])
  | case2 line hempty mark hnone =>
    exact .inl (by rw [hs.eq_of_after?_eq_none (isPending_some.mp hpending) hnone h])
  | case3 line hempty mark rest₀ hsome rest hlt ih =>
    have hrest := hs.reaches_of_after? (isPending_some.mp hpending) hend hsome h
    exact hbehind (reaches_after? hend hsome)
      (ih isPending_none (head?_trim rest₀) (trimEnd_trim rest₀) hrest)
  | case4 line hempty mark rest₀ hsome rest hlt =>
    exact absurd (length_lt_of_after? (isPending_some.mp hpending) hsome) hlt
  | case5 line hempty hcomment =>
    obtain ⟨m, hm, hmark⟩ := List.any_eq_true.mp hcomment
    exact .inl (by rw [hs.eq_none_of_lineComment hm (List.isPrefixOf_iff_prefix.mp hmark) h])
  | case6 line hempty hcomment b hfind hnone =>
    obtain ⟨hb, rest, rfl⟩ := exists_opening hfind
    rw [List.drop_left] at hnone
    have hword := (hs.block b hb).2.1
    exact .inl (by rw [hs.eq_of_after?_eq_none hword hnone (hs.reaches_of_opening hb h)])
  | case7 line hempty hcomment b hfind rest₀ hsome rest' hlt ih =>
    obtain ⟨hb, rest, rfl⟩ := exists_opening hfind
    rw [List.drop_left] at hsome
    have hend' := trimEnd_of_isSuffix hend (List.suffix_append b.opening rest)
    have hrest := hs.reaches_of_after? (hs.block b hb).2.1 hend' hsome (hs.reaches_of_opening hb h)
    exact hbehind (.head (.opening hb) (reaches_after? hend' hsome))
      (ih isPending_none (head?_trim rest₀) (trimEnd_trim rest₀) hrest)
  | case8 line hempty hcomment b hfind rest₀ hsome rest' hlt =>
    obtain ⟨hb, rest, rfl⟩ := exists_opening hfind
    rw [List.drop_left] at hsome
    have hlength := length_lt_of_after? (hs.block b hb).2.1 hsome
    refine absurd (hlength.trans_le ?_) hlt
    rw [List.length_append]
    exact Nat.le_add_left _ _
  | case9 line hempty hcomment hblock hfragment =>
    have hpiece := head?_of_isFragment (Bool.and_eq_true_iff.mp hfragment).2
    obtain ⟨k, hk, rest, rfl, -⟩ := exists_closer_of_reaches (by simpa using hempty) hstart hcomment
      hblock h
    obtain ⟨hword, hstar⟩ := hs.closers k hk
    rw [List.head?_append_of_ne_nil _ hword.1] at hpiece
    exact absurd hpiece hstar
  | case10 line hempty hcomment hblock hfragment hclosing =>
    obtain ⟨k, hk, rest, rfl, hrest⟩ := exists_closer_of_reaches (by simpa using hempty) hstart
      hcomment hblock h
    cases pending' with
    | none => exact .inl rfl
    | some mark => exact .inr ⟨rfl, hk, .refl, hrest⟩
  | case11 line hempty hcomment hblock hfragment hclosing =>
    obtain ⟨k, hk, rest, rfl, hrest⟩ := exists_closer_of_reaches (by simpa using hempty) hstart
      hcomment hblock h
    exact absurd (hs.isClosing_append hk hrest) hclosing

/-! ## Texts, line by line -/

namespace Remarks

theorem of_isBlank (ht : isBlank t = true) (h : Remarks s none u) : Remarks s none (t ++ u) := by
  induction t with
  | nil => exact h
  | cons c t ih =>
    obtain ⟨hc, ht⟩ := Bool.and_eq_true_iff.mp ht
    exact .space hc (ih ht)

theorem of_cons (hs : IsClear s) (hpending : IsPending pending) {c : Char} (hc : isSpace c = true)
    (h : Remarks s pending (c :: t)) : Remarks s pending t := by
  generalize htext : c :: t = text at h
  cases h with
  | nil => cases htext
  | space _ h => rwa [(List.cons.inj htext).2]
  | @closer k rest hk => exact absurd ⟨rest, htext.symm⟩ ((hs.closers k hk).1.not_isPrefix_cons hc)
  | @lineComment m rest hm => exact absurd ⟨rest, htext.symm⟩ ((hs.line m hm).1.not_isPrefix_cons hc)
  | @opening b rest hb => exact absurd ⟨rest, htext.symm⟩ ((hs.block b hb).1.not_isPrefix_cons hc)
  | @closing mark _ index hfirst h =>
    subst htext
    have hword := isPending_some.mp hpending
    cases index with
    | zero => exact absurd hfirst.occurs (hword.not_isPrefix_cons hc)
    | succ index =>
      rw [Nat.add_right_comm] at h
      exact .closing ⟨hfirst.occurs, fun i hi => hfirst.first (i + 1) (Nat.succ_lt_succ hi)⟩ h
  | unclosed hnone =>
    subst htext
    exact .unclosed fun index => hnone (index + 1)

theorem of_append (hs : IsClear s) (hpending : IsPending pending) (ht : isBlank t = true)
    (h : Remarks s pending (t ++ u)) : Remarks s pending u := by
  induction t with
  | nil => exact h
  | cons c t ih =>
    obtain ⟨hc, ht⟩ := Bool.and_eq_true_iff.mp ht
    exact ih ht (of_cons hs hpending hc h)

/-- A part of a line that only white space goes behind is read to its end. -/
theorem exists_reaches (hs : IsClear s) (hpending : IsPending pending) (ht : '\n' ∉ t)
    (hu : isBlank (chomp u) = true) (h : Remarks s pending (t ++ u)) :
    ∃ pending', Reaches s (pending, t) (pending', []) ∧ IsPending pending' ∧
      Remarks s pending' u := by
  have hhead : ∀ c ∈ u.head?, isSpace c = true := by
    intro c hc
    obtain ⟨u, rfl⟩ := List.head?_eq_some_iff.mp hc
    by_cases hnewline : c = '\n'
    · rw [hnewline]
      rfl
    · rw [chomp, List.takeWhile_cons_of_pos (by simpa using hnewline)] at hu
      exact (Bool.and_eq_true_iff.mp hu).1
  generalize htext : t ++ u = text at h
  induction h generalizing t with
  | nil =>
    obtain ⟨rfl, rfl⟩ := List.append_eq_nil_iff.mp htext
    exact ⟨none, .refl, isPending_none, .nil⟩
  | @space c rest hc hrest ih =>
    cases t with
    | nil =>
      subst htext
      exact ⟨none, .refl, isPending_none, .space hc hrest⟩
    | cons d t =>
      obtain ⟨rfl, rfl⟩ := List.cons.inj htext
      obtain ⟨pending', hreaches, hends⟩ := ih hpending (List.not_mem_of_not_mem_cons ht) rfl
      exact ⟨pending', .head (.space hc) hreaches, hends⟩
  | @closer k rest hk hrest ih =>
    obtain ⟨t, rfl, rfl⟩ := (hs.closers k hk).1.exists_eq_append hhead htext
    obtain ⟨pending', hreaches, hends⟩ := ih hpending (fun h => ht (List.mem_append_right _ h)) rfl
    exact ⟨pending', .head (.closer hk) hreaches, hends⟩
  | @lineComment m rest hm hrest ih =>
    obtain ⟨t, rfl, rfl⟩ := (hs.line m hm).1.exists_eq_append hhead htext
    have hline : '\n' ∉ t := fun h => ht (List.mem_append_right m h)
    rw [List.dropWhile_append_of_pos (bne_newline_of_notMem hline)] at hrest
    refine ⟨none, .single (.lineComment hm), isPending_none, ?_⟩
    rw [← List.takeWhile_append_dropWhile (p := (· != '\n')) (l := u)]
    exact of_isBlank hu hrest
  | @opening b rest hb hrest ih =>
    obtain ⟨t, rfl, rfl⟩ := (hs.block b hb).1.exists_eq_append hhead htext
    obtain ⟨pending', hreaches, hends⟩ := ih (isPending_some.mpr (hs.block b hb).2.1)
      (fun h => ht (List.mem_append_right _ h)) rfl
    exact ⟨pending', .head (.opening hb) hreaches, hends⟩
  | @closing mark _ index hfirst hrest ih =>
    subst htext
    rcases (isPending_some.mp hpending).isFirstAt_of_append hhead hfirst with
      ⟨hfirst', hle⟩ | ⟨hnone, i, rfl, hfirst'⟩
    · have hsplit : t.drop (index + mark.length) ++ u = (t ++ u).drop (index + mark.length) :=
        (List.drop_append_of_le_length hle).symm
      obtain ⟨pending', hreaches, hends⟩ := ih isPending_none
        (fun h => ht (List.mem_of_mem_drop h)) hsplit
      exact ⟨pending', .head (.closing hfirst') hreaches, hends⟩
    · rw [Nat.add_assoc, List.drop_length_add_append] at hrest
      exact ⟨some mark, .single (.inside hnone), hpending, .closing hfirst' hrest⟩
  | @unclosed mark _ hnone =>
    subst htext
    have hnone' : ∀ i, ¬mark <+: t.drop i :=
      (isPending_some.mp hpending).not_isPrefix_drop fun i _ => hnone i
    refine ⟨some mark, .single (.inside hnone'), hpending, .unclosed fun i => ?_⟩
    simpa only [List.drop_length_add_append] using hnone (t.length + i)

/-- A line is read to its end without the white space at its edges. -/
theorem exists_reaches_trim (hs : IsClear s) (hpending : IsPending pending) (hline : '\n' ∉ line)
    (ht : chomp t = []) (h : Remarks s pending (line ++ t)) :
    ∃ pending', Reaches s (pending, trim line) (pending', []) ∧ IsPending pending' ∧
      Remarks s pending' t := by
  obtain ⟨lead, trail, hsplit, hlead, htrail⟩ := exists_trim line
  have hnewline : '\n' ∉ trail := fun h => hline (by
    rw [hsplit]
    exact List.mem_append_right _ (List.mem_append_right _ h))
  have hbehind : isBlank (chomp (trail ++ t)) = true := by
    rw [chomp_append_of_notMem hnewline, ht, List.append_nil]
    exact htrail
  have htrim : '\n' ∉ trim line := fun h => hline (by
    rw [hsplit]
    exact List.mem_append_right _ (List.mem_append_left _ h))
  rw [hsplit, List.append_assoc, List.append_assoc] at h
  obtain ⟨pending', hreaches, hpending', hrest⟩ :=
    exists_reaches hs hpending htrim hbehind (of_append hs hpending hlead h)
  exact ⟨pending', hreaches, hpending', of_append hs hpending' htrail hrest⟩

end Remarks

/-- Lines of remarks are scanned to their end, or a comment is lost on one of them and those below it
are taken for code. -/
theorem scanLines_or_losesComment (hs : IsClear s) (hpending : IsPending pending)
    (h : Remarks s pending t) :
    scanLines s pending (lines t) = true ∨
      ∃ above line below pending', lines t = above ++ line :: below ∧
        ReadsLines s pending above pending' ∧ LosesComment s pending' (trim line) ∧
        scanLines s none below = false := by
  have hscan {line : Text} {pending pending' : Option Text} (hpending : IsPending pending)
      (h : Reaches s (pending, trim line) (pending', [])) :=
    hs.scanLine_of_reaches hpending (head?_trim line) (trimEnd_trim line) h
  induction t using byLines generalizing pending with
  | last l hl =>
    rw [← List.append_nil l] at h
    obtain ⟨pending', hreaches, -, -⟩ := h.exists_reaches_trim hs hpending hl rfl
    left
    rw [lines_of_notMem hl]
    rcases hscan hpending hreaches with heq | ⟨heq, -⟩ <;> simp [scanLines, heq]
  | line l t hl ih =>
    obtain ⟨pending', hreaches, hpending', hrest⟩ := h.exists_reaches_trim hs hpending hl rfl
    replace hrest := hrest.of_cons hs hpending' rfl
    rw [lines_append_newline hl, scanLines]
    rcases hscan hpending hreaches with heq | ⟨heq, hloses⟩
    · rw [heq]
      refine (ih hpending' hrest).imp_right ?_
      rintro ⟨above, line, below, pending'', hlines, habove, hloses⟩
      exact ⟨l :: above, line, below, pending'', by rw [hlines]; rfl,
        .cons (.read hreaches) habove, hloses⟩
    · rw [heq]
      dsimp only
      cases hbelow : scanLines s none (lines t) with
      | true => exact .inl rfl
      | false => exact .inr ⟨[], l, lines t, pending, rfl, .nil, hloses, hbelow⟩

/-! ## Languages -/

instance (s : CommentSyntax) : Decidable (IsClear s) :=
  decidable_of_iff' _ (isClear_iff s)

theorem isClear_commentSyntax (language : Option String) :
    IsClear (Language.commentSyntax language) := by
  rw [Language.commentSyntax]
  split
  · decide +kernel
  · cases hspec : Language.spec? language with
    | none => decide +kernel
    | some spec =>
      have htable : ∀ entry ∈ Language.table, IsClear entry.2.syntaxOfComments := by decide +kernel
      obtain ⟨name, -, hname⟩ := Option.bind_eq_some_iff.mp hspec
      obtain ⟨above, below, hentry, -⟩ := List.lookup_eq_some_iff.mp hname
      exact htable (name, spec) (by rw [hentry]; simp)

/-- A text of remarks is insignificant in its language, unless a comment was lost: it opens behind a
closing delimiter, with no code on the lines above, and is still open at the end of the line, but the
lines below are read as if it were not, and so there is code on them. -/
theorem isInsignificant_or_losesComment (language : Option String) (content : Text)
    (h : Remarks (Language.commentSyntax language) none content) :
    isInsignificant (Language.commentSyntax language) content = true ∨
      ∃ above line below pending, lines content = above ++ line :: below ∧
        ReadsLines (Language.commentSyntax language) none above pending ∧
        LosesComment (Language.commentSyntax language) pending (trim line) ∧
        scanLines (Language.commentSyntax language) none below = false :=
  scanLines_or_losesComment (isClear_commentSyntax language) isPending_none h

/-- A brace and a line comment, and a block comment over two lines with a closing delimiter behind
it. -/
def remarks : Text :=
  ['}', ' ', '/', '/', '}', '\n', '/', '*', 'a', '\n', '*', '/', ')', ';']

theorem isInsignificant_or_losesComment_remarks :
    Remarks (Language.commentSyntax (some "c")) none remarks ∧
      isInsignificant (Language.commentSyntax (some "c")) remarks = true := by
  have hlanguage : Language.commentSyntax (some "c") = .cFamily := by decide +kernel
  have hremarks : Remarks .cFamily none remarks := by
    change Remarks .cFamily none (['}'] ++ ' ' :: (['/', '/'] ++ remarks.drop 4))
    apply Remarks.closer (by decide)
    apply Remarks.space rfl
    apply Remarks.lineComment (by decide)
    apply Remarks.space rfl
    apply @Remarks.opening _ CommentSyntax.cBlock _ (by decide)
    apply @Remarks.closing _ _ _ 2 ⟨by decide, by decide⟩
    have hcloser : [')', ';'] ∈ CommentSyntax.cFamily.closers := by decide
    exact Remarks.closer hcloser .nil
  rw [← hlanguage] at hremarks
  refine ⟨hremarks, ?_⟩
  rcases isInsignificant_or_losesComment (some "c") remarks hremarks with
    hfiltered | ⟨above, line, below, _, hlines, -, -, hbelow⟩
  · exact hfiltered
  · -- No line of it is read as code, even if a comment was lost above.
    have hall : ∀ below ∈ (lines remarks).tails,
        scanLines (Language.commentSyntax (some "c")) none below = true := by decide +kernel
    have htail : below <:+ lines remarks := ⟨above ++ [line], by rw [hlines]; simp⟩
    rw [hall below ((List.mem_tails below _).mpr htail)] at hbelow
    cases hbelow

/-- A brace with a comment behind it that ends on the next line. -/
def spilled : Text :=
  ['}', ' ', '/', '*', '\n', 'a', ' ', '*', '/']

/-- The filter keeps it, although it is a text of remarks. -/
theorem not_isInsignificant_spilled :
    Remarks (Language.commentSyntax (some "c")) none spilled ∧
      isInsignificant (Language.commentSyntax (some "c")) spilled = false := by
  have hlanguage : Language.commentSyntax (some "c") = .cFamily := by decide +kernel
  rw [hlanguage]
  refine ⟨?_, by decide +kernel⟩
  change Remarks .cFamily none (['}'] ++ ' ' :: (CommentSyntax.cBlock.opening ++ spilled.drop 4))
  apply Remarks.closer (by decide)
  apply Remarks.space rfl
  apply Remarks.opening (by decide)
  exact @Remarks.closing _ _ _ 3 ⟨by decide, by decide⟩ .nil

end SourceIndex.Chunking
