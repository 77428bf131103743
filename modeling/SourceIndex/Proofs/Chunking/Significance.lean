import SourceIndex.Chunking.Significance
import SourceIndex.Language.Table
import SourceIndex.Proofs.Chunking.Trim
import SourceIndex.Proofs.Text.Spacing

/-! # Texts without code

A line holds no code if reading it from left to right meets only white space, closing delimiters and
comments (`Reads`); in languages of the C family it may also be a piece that was cut out of a block
comment (`ReadsLine`). The filter reads lines that way, but it gives up on the rest of a line in two
places: where a block comment opens behind closing delimiters, and where the rest looks like a piece of
a block comment (`reaches_or_of_scanLine`). What it drops holds no code, unless it gave up on a line
that cannot be read to its end; the lines below are then read as if no comment were open
(`holdsNoCode_or_givesUp`). In languages without block comments it never gives up
(`holdsNoCode_of_block_eq_nil`). -/

namespace SourceIndex.Chunking

open Relation (ReflTransGen)
open Text

/-! ## Reading lines -/

/-- A mark stands in a text at an index and nowhere before. -/
structure IsFirstAt (mark text : Text) (index : Nat) : Prop where
  occurs : mark <+: text.drop index
  first : ∀ i < index, ¬mark <+: text.drop i

/-- One step of reading a line, from left to right. A state is the closing of the block comment that is
open, if one is, and what is left of the line. -/
inductive Reads (s : CommentSyntax) : Option Text × Text → Option Text × Text → Prop where
  | space {c : Char} {rest : Text} : isSpace c = true → Reads s (none, c :: rest) (none, rest)
  | closer {k rest : Text} : k ∈ s.closers → Reads s (none, k ++ rest) (none, rest)
  | lineComment {m rest : Text} : m ∈ s.line → Reads s (none, m ++ rest) (none, [])
  | opening {b : BlockComment} {rest : Text} : b ∈ s.block →
      Reads s (none, b.opening ++ rest) (some b.closing, rest)
  | closing {mark text : Text} {index : Nat} : IsFirstAt mark text index →
      Reads s (some mark, text) (none, text.drop (index + mark.length))
  | inside {mark text : Text} : (∀ index, ¬mark <+: text.drop index) →
      Reads s (some mark, text) (some mark, [])

abbrev Reaches (s : CommentSyntax) : Option Text × Text → Option Text × Text → Prop :=
  ReflTransGen (Reads s)

/-- A line without white space at its edges that holds no code: it can be read to its end, or else it
is a piece of a block comment of the C family. Such a piece is a star, or starts with a star and a
blank, or starts with the closing of the comment, and then the rest of the line can be read to its
end. -/
inductive ReadsLine (s : CommentSyntax) : Option Text → Text → Option Text → Prop where
  | read {pending pending' : Option Text} {line : Text} :
      Reaches s (pending, line) (pending', []) → ReadsLine s pending line pending'
  | fragment {line : Text} : s.isCStyle = true → line = ['*'] ∨ ['*', ' '] <+: line →
      ReadsLine s none line none
  | cut {pending' : Option Text} {rest : Text} : s.isCStyle = true →
      Reaches s (none, rest) (pending', []) → ReadsLine s none ('*' :: '/' :: rest) pending'

/-- Lines that hold no code, one after another. -/
inductive ReadsLines (s : CommentSyntax) : Option Text → List Text → Option Text → Prop where
  | nil {pending : Option Text} : ReadsLines s pending [] pending
  | cons {pending pending' pending'' : Option Text} {line : Text} {lines : List Text} :
      ReadsLine s pending (trim line) pending' → ReadsLines s pending' lines pending'' →
      ReadsLines s pending (line :: lines) pending''

/-- A text without code. A block comment may be open at its end. -/
def HoldsNoCode (s : CommentSyntax) (content : Text) : Prop :=
  ∃ pending, ReadsLines s none (lines content) pending

/-- A line comes to where the rest of it may be given up: behind a closing delimiter a block comment
opens, or what is left looks like a piece of a block comment of the C family. -/
inductive MayGiveUp (s : CommentSyntax) (pending : Option Text) (line : Text) : Prop where
  | comment {k rest rest' : Text} {b : BlockComment} : k ∈ s.closers → b ∈ s.block →
      Reaches s (pending, line) (none, k ++ rest) →
      Reaches s (none, rest) (none, b.opening ++ rest') → MayGiveUp s pending line
  | fragment {rest : Text} : s.isCStyle = true → Reaches s (pending, line) (none, rest) →
      rest = ['*'] ∨ ['*', ' '] <+: rest ∨ ['*', '/'] <+: rest → MayGiveUp s pending line

/-- The rest of a line may be given up, although the line holds code or leaves a block comment open. -/
structure GivesUp (s : CommentSyntax) (pending : Option Text) (line : Text) : Prop where
  place : MayGiveUp s pending line
  unread : ¬ReadsLine s pending line none

/-- Lines that hold no code, one after another, but for those whose rests are given up; below such a
line no block comment is open. -/
inductive PassesLines (s : CommentSyntax) : Option Text → List Text → Prop where
  | nil {pending : Option Text} : PassesLines s pending []
  | read {pending pending' : Option Text} {line : Text} {lines : List Text} :
      ReadsLine s pending (trim line) pending' → PassesLines s pending' lines →
      PassesLines s pending (line :: lines)
  | givesUp {pending : Option Text} {line : Text} {lines : List Text} :
      GivesUp s pending (trim line) → PassesLines s none lines →
      PassesLines s pending (line :: lines)

variable {s : CommentSyntax} {pending pending' : Option Text} {line : Text}

/-- The steps of reading a line on which no comment is open. -/
theorem reads_none_iff {x : Option Text × Text} : Reads s (none, line) x ↔
    (∃ c rest, isSpace c = true ∧ line = c :: rest ∧ x = (none, rest)) ∨
    (∃ k ∈ s.closers, ∃ rest, line = k ++ rest ∧ x = (none, rest)) ∨
    (∃ m ∈ s.line, ∃ rest, line = m ++ rest ∧ x = (none, [])) ∨
    ∃ b ∈ s.block, ∃ rest, line = b.opening ++ rest ∧ x = (some b.closing, rest) := by
  constructor
  · intro h
    cases h with
    | space hc => exact .inl ⟨_, _, hc, rfl, rfl⟩
    | closer hk => exact .inr (.inl ⟨_, hk, _, rfl, rfl⟩)
    | lineComment hm => exact .inr (.inr (.inl ⟨_, hm, _, rfl, rfl⟩))
    | opening hb => exact .inr (.inr (.inr ⟨_, hb, _, rfl, rfl⟩))
  · rintro (⟨c, rest, hc, rfl, rfl⟩ | ⟨k, hk, rest, rfl, rfl⟩ | ⟨m, hm, rest, rfl, rfl⟩ |
      ⟨b, hb, rest, rfl, rfl⟩)
    · exact .space hc
    · exact .closer hk
    · exact .lineComment hm
    · exact .opening hb

theorem Reads.isSuffix {x y : Option Text × Text} (h : Reads s x y) : y.2 <:+ x.2 := by
  cases h with
  | space => exact List.suffix_cons _ _
  | closer | opening => exact List.suffix_append _ _
  | lineComment | inside => exact List.nil_suffix
  | closing => exact List.drop_suffix _ _

/-- What is left of a line stands at its end. -/
theorem isSuffix_of_reaches {x y : Option Text × Text} (h : Reaches s x y) : y.2 <:+ x.2 := by
  induction h with
  | refl => exact List.suffix_rfl
  | tail _ hstep ih => exact hstep.isSuffix.trans ih

theorem reaches_trimStart (s : CommentSyntax) (t : Text) : Reaches s (none, t) (none, trimStart t) := by
  induction t with
  | nil => exact .refl
  | cons c t ih =>
    rw [trimStart]
    cases hspace : isSpace c with
    | true =>
      rw [List.dropWhile_cons_of_pos hspace]
      exact .head (.space hspace) ih
    | false =>
      rw [List.dropWhile_cons_of_neg (by rw [hspace]; exact Bool.false_ne_true)]

/-! ## Marks -/

theorem exists_isFirstAt_of_after? {mark t rest : Text} (h : after? mark t = some rest) :
    ∃ index, IsFirstAt mark t index ∧ rest = t.drop (index + mark.length) := by
  fun_induction after? mark t with
  | case1 =>
    rw [isPrefixOf?_eq_some_iff] at h
    obtain ⟨rfl, rfl⟩ := List.append_eq_nil_iff.mp h.symm
    exact ⟨0, ⟨List.nil_prefix, fun _ hi => absurd hi (Nat.not_lt_zero _)⟩, rfl⟩
  | case2 c cs rest' hmark =>
    obtain rfl := Option.some.inj h
    rw [isPrefixOf?_eq_some_iff] at hmark
    refine ⟨0, ⟨⟨rest', hmark.symm⟩, fun _ hi => absurd hi (Nat.not_lt_zero _)⟩, ?_⟩
    rw [hmark, Nat.zero_add, List.drop_left]
  | case3 c cs hmark ih =>
    obtain ⟨index, ⟨hoccurs, hfirst⟩, hrest⟩ := ih h
    refine ⟨index + 1, ⟨hoccurs, fun i hi => ?_⟩, by rw [Nat.add_right_comm]; exact hrest⟩
    cases i with
    | zero => exact isPrefixOf?_eq_none_iff.mp hmark
    | succ i => exact hfirst i (Nat.lt_of_succ_lt_succ hi)

theorem not_isPrefix_of_after?_eq_none {mark t : Text} (h : after? mark t = none) (index : Nat) :
    ¬mark <+: t.drop index := by
  fun_induction after? mark t generalizing index with
  | case1 =>
    rw [List.drop_nil]
    exact isPrefixOf?_eq_none_iff.mp h
  | case2 => cases h
  | case3 c cs hmark ih =>
    cases index with
    | zero => exact isPrefixOf?_eq_none_iff.mp hmark
    | succ index => exact ih h index

/-! ## Lines -/

theorem MayGiveUp.head {rest : Text} (hreaches : Reaches s (pending, line) (none, rest))
    (h : MayGiveUp s none rest) : MayGiveUp s pending line := by
  cases h with
  | comment hk hb hcloser hopening => exact .comment hk hb (hreaches.trans hcloser) hopening
  | fragment hstyle hrest hpiece => exact .fragment hstyle (hreaches.trans hrest) hpiece

theorem exists_opening {b : BlockComment}
    (h : (s.block.find? fun b => b.opening.isPrefixOf line) = some b) :
    b ∈ s.block ∧ ∃ rest, line = b.opening ++ rest := by
  have hopening : b.opening.isPrefixOf line = true := by simpa using List.find?_some h
  obtain ⟨rest, hrest⟩ := List.isPrefixOf_iff_prefix.mp hopening
  exact ⟨List.mem_of_find?_eq_some h, rest, hrest.symm⟩

theorem reaches_lineComment (h : s.line.any (·.isPrefixOf line) = true) :
    Reaches s (none, line) (none, []) := by
  obtain ⟨m, hm, hmark⟩ := List.any_eq_true.mp h
  obtain ⟨rest, rfl⟩ := List.isPrefixOf_iff_prefix.mp hmark
  exact .single (.lineComment hm)

/-- Closing delimiters are read to the end of the line, up to a block comment that opens behind them. -/
theorem reaches_or_of_isClosing (h : isClosing s line = true) :
    Reaches s (none, line) (none, []) ∨ MayGiveUp s none line := by
  fun_induction isClosing s line with
  | case1 line ih =>
    obtain ⟨closer, hcloser, h⟩ := List.any_eq_true.mp h
    split at h
    next => cases h
    next rest₀ hrest₀ =>
      obtain rfl := isPrefixOf?_eq_some_iff.mp hrest₀
      have hreaches : Reaches s (none, closer ++ rest₀) (none, trimStart rest₀) :=
        .head (.closer hcloser) (reaches_trimStart s rest₀)
      simp only [Bool.or_eq_true] at h
      rcases h with ((hempty | hline) | hblock) | hagain
      · rw [List.isEmpty_iff.mp hempty] at hreaches
        exact .inl hreaches
      · exact .inl (hreaches.trans (reaches_lineComment hline))
      · obtain ⟨b, hb, hopening⟩ := List.any_eq_true.mp hblock
        obtain ⟨rest, hrest⟩ := List.isPrefixOf_iff_prefix.mp hopening
        have hspace := reaches_trimStart s rest₀
        rw [← hrest] at hspace
        exact .inr (.comment hcloser hb .refl hspace)
      · split at hagain
        next hlt =>
          exact (ih rest₀ hlt hagain).imp hreaches.trans (MayGiveUp.head hreaches)
        next => cases hagain

/-- Behind the closing of a block comment the rest of the line is left. -/
theorem reaches_after? {mark t rest : Text} (ht : trimEnd t = t) (h : after? mark t = some rest) :
    Reaches s (some mark, t) (none, trim rest) := by
  obtain ⟨index, hfirst, rfl⟩ := exists_isFirstAt_of_after? h
  rw [trim_of_isSuffix ht (List.drop_suffix _ t)]
  exact .head (.closing hfirst) (reaches_trimStart s _)

/-- What is scanned is read to the end of the line, unless the rest of it is given up. -/
theorem reaches_or_of_scanLine (hline : trimEnd line = line)
    (h : scanLine s pending line = some pending') :
    Reaches s (pending, line) (pending', []) ∨
      pending' = none ∧ MayGiveUp s pending line := by
  -- What is given up behind a comment is given up on the line.
  have hbehind {pending : Option Text} {line rest : Text}
      (hreaches : Reaches s (pending, line) (none, rest))
      (h : Reaches s (none, rest) (pending', []) ∨ pending' = none ∧ MayGiveUp s none rest) :
      Reaches s (pending, line) (pending', []) ∨ pending' = none ∧ MayGiveUp s pending line :=
    h.imp hreaches.trans fun ⟨hnone, hgives⟩ => ⟨hnone, hgives.head hreaches⟩
  fun_induction scanLine s pending line with
  | case1 pending line hempty =>
    obtain rfl := Option.some.inj h
    rw [List.isEmpty_iff.mp hempty]
    exact .inl .refl
  | case2 line hempty mark hnone =>
    obtain rfl := Option.some.inj h
    exact .inl (.single (.inside (not_isPrefix_of_after?_eq_none hnone)))
  | case3 line hempty mark rest₀ hsome rest hlt ih =>
    exact hbehind (reaches_after? hline hsome) (ih (trimEnd_trim rest₀) h)
  | case5 line hempty hcomment =>
    obtain rfl := Option.some.inj h
    exact .inl (reaches_lineComment hcomment)
  | case6 line hempty hcomment b hfind hnone =>
    obtain rfl := Option.some.inj h
    obtain ⟨hb, rest, rfl⟩ := exists_opening hfind
    rw [List.drop_left] at hnone
    exact .inl (.head (.opening hb) (.single (.inside (not_isPrefix_of_after?_eq_none hnone))))
  | case7 line hempty hcomment b hfind rest₀ hsome rest' hlt ih =>
    obtain ⟨hb, rest, rfl⟩ := exists_opening hfind
    rw [List.drop_left] at hsome
    have hrest := trimEnd_of_isSuffix hline (List.suffix_append b.opening rest)
    exact hbehind (.head (.opening hb) (reaches_after? hrest hsome)) (ih (trimEnd_trim rest₀) h)
  | case9 line hempty hcomment hblock hfragment =>
    obtain ⟨hstyle, hpiece⟩ := Bool.and_eq_true_iff.mp hfragment
    simp only [isFragment, Bool.or_eq_true, beq_iff_eq, List.isPrefixOf_iff_prefix,
      or_assoc] at hpiece
    exact .inr ⟨(Option.some.inj h).symm, .fragment hstyle .refl hpiece⟩
  | case10 line hempty hcomment hblock hfragment hclosing =>
    obtain rfl := Option.some.inj h
    exact (reaches_or_of_isClosing hclosing).imp_right fun hgives => ⟨rfl, hgives⟩
  | case4 | case8 | case11 => cases h

theorem readsLine_or_givesUp (h : scanLine s pending (trim line) = some pending') :
    ReadsLine s pending (trim line) pending' ∨ pending' = none ∧ GivesUp s pending (trim line) := by
  rcases reaches_or_of_scanLine (trimEnd_trim line) h with hreaches | ⟨rfl, hgives⟩
  · exact .inl (.read hreaches)
  · by_cases hreads : ReadsLine s pending (trim line) none
    · exact .inl hreads
    · exact .inr ⟨rfl, hgives, hreads⟩

/-! ## Texts -/

theorem passesLines_of_scanLines {ls : List Text} (h : scanLines s pending ls = true) :
    PassesLines s pending ls := by
  induction ls generalizing pending with
  | nil => exact .nil
  | cons line ls ih =>
    rw [scanLines] at h
    split at h
    next => cases h
    next pending' hscan =>
      rcases readsLine_or_givesUp hscan with hreads | ⟨rfl, hgives⟩
      · exact .read hreads (ih h)
      · exact .givesUp hgives (ih h)

/-- Lines that are passed hold no code, up to one whose rest is given up. -/
theorem PassesLines.readsLines_or_givesUp {ls : List Text} (h : PassesLines s pending ls) :
    (∃ pending', ReadsLines s pending ls pending') ∨
      ∃ above line below pending', ls = above ++ line :: below ∧
        ReadsLines s pending above pending' ∧ GivesUp s pending' (trim line) ∧
        PassesLines s none below := by
  induction h with
  | nil => exact .inl ⟨_, .nil⟩
  | @read pending _ line _ hreads _ ih =>
    rcases ih with ⟨pending', hrest⟩ | ⟨above, line', below, pending', rfl, habove, hgives⟩
    · exact .inl ⟨pending', .cons hreads hrest⟩
    · exact .inr ⟨line :: above, line', below, pending', rfl, .cons hreads habove, hgives⟩
  | @givesUp pending line ls hgives hrest _ =>
    exact .inr ⟨[], line, ls, pending, rfl, .nil, hgives, hrest⟩

/-- Without block comments no rest of a line is given up, so what is insignificant holds no code. -/
theorem holdsNoCode_of_block_eq_nil {content : Text} (hblock : s.block = [])
    (h : isInsignificant s content = true) : HoldsNoCode s content := by
  rcases (passesLines_of_scanLines h).readsLines_or_givesUp with
    hholds | ⟨_, line, _, _, _, _, hgives, _⟩
  · exact hholds
  · cases hgives.place with
    | comment _ hb =>
      rw [hblock] at hb
      cases hb
    | fragment hstyle =>
      rw [CommentSyntax.isCStyle, hblock] at hstyle
      cases hstyle

/-- What is insignificant in a language holds no code, unless the rest of a line was given up: the
lines above it hold no code, but it does, or it leaves a block comment open that the filter takes for
closed, and so each line below it, read as if that were closed, holds no code or is given up in turn. -/
theorem holdsNoCode_or_givesUp (language : Option String) (content : Text)
    (h : isInsignificant (Language.commentSyntax language) content = true) :
    HoldsNoCode (Language.commentSyntax language) content ∨
      ∃ above line below pending, lines content = above ++ line :: below ∧
        ReadsLines (Language.commentSyntax language) none above pending ∧
        GivesUp (Language.commentSyntax language) pending (trim line) ∧
        PassesLines (Language.commentSyntax language) none below :=
  (passesLines_of_scanLines h).readsLines_or_givesUp

/-- A Ruby comment over three lines, and closing delimiters with a comment behind them. -/
def remark : Text :=
  ['=', 'b', 'e', 'g', 'i', 'n', '\n', 'x', '\n', '=', 'e', 'n', 'd', ' ', '}', '\n',
    'e', 'n', 'd', ' ', ')', '#', 'y']

theorem holdsNoCode_or_givesUp_remark :
    isInsignificant (Language.commentSyntax (some "ruby")) remark = true ∧
      HoldsNoCode (Language.commentSyntax (some "ruby")) remark := by
  have h : isInsignificant (Language.commentSyntax (some "ruby")) remark = true := by
    decide +kernel
  refine ⟨h, ?_⟩
  rcases holdsNoCode_or_givesUp (some "ruby") remark h with
    hholds | ⟨above, line, below, pending, hlines, -, hgives, -⟩
  · exact hholds
  · have hline : line ∈ lines remark := by
      rw [hlines]
      exact List.mem_append_right _ List.mem_cons_self
    cases hgives.place with
    | fragment hstyle => exact absurd hstyle (by decide +kernel)
    | comment hk hb hcloser hopening =>
      -- A comment opens with an equals sign, and there is none behind the first character of a line.
      have hnone : ∀ line ∈ lines remark, '=' ∉ (trim line).tail := by decide +kernel
      have hk' : ∀ k ∈ (Language.commentSyntax (some "ruby")).closers, k ≠ [] := by decide +kernel
      have hb' : ∀ b ∈ (Language.commentSyntax (some "ruby")).block, '=' ∈ b.opening := by
        decide +kernel
      obtain ⟨front, hfront⟩ := isSuffix_of_reaches hcloser
      obtain ⟨middle, hmiddle⟩ := isSuffix_of_reaches hopening
      refine absurd ?_ (hnone line hline)
      dsimp only at hfront hmiddle
      rw [← hfront, ← List.append_assoc, List.tail_append_of_ne_nil (by simp [hk' _ hk]), ← hmiddle]
      simp [hb' _ hb]

/-- A brace, a comment, and code. -/
def trailed : Text :=
  ['}', '/', '*', '*', '/', 'x']

/-- The states that reading it comes to; from the last one there is no step. -/
def trailedStates : List (Option Text × Text) :=
  [(none, trailed), (none, trailed.drop 1), (some ['*', '/'], trailed.drop 3),
    (none, trailed.drop 5)]

theorem mem_trailedStates {x y : Option Text × Text} (hx : x ∈ trailedStates)
    (h : Reads .cFamily x y) : y ∈ trailedStates := by
  simp only [trailedStates, trailed, List.drop_succ_cons, List.drop_zero, List.mem_cons,
    List.not_mem_nil, or_false] at hx ⊢
  rcases hx with rfl | rfl | rfl | rfl
  · refine .inr (.inl ?_)
    rw [reads_none_iff] at h
    simpa [CommentSyntax.cFamily, CommentSyntax.cClosers, CommentSyntax.cBlock, isSpace] using h
  · refine .inr (.inr (.inl ?_))
    rw [reads_none_iff] at h
    simpa [CommentSyntax.cFamily, CommentSyntax.cClosers, CommentSyntax.cBlock, isSpace] using h
  · cases h with
    | inside hnone => exact absurd (hnone 0) (by decide)
    | @closing _ _ index hfirst =>
      -- The comment is closed right away.
      have hindex : index = 0 := Nat.eq_zero_of_not_pos fun hpos =>
        absurd (hfirst.first 0 hpos) (by decide)
      rw [hindex]
      exact .inr (.inr (.inr rfl))
  · rw [reads_none_iff] at h
    simp [CommentSyntax.cFamily, CommentSyntax.cClosers, CommentSyntax.cBlock, isSpace] at h

/-- The filter drops it, although it holds code. -/
theorem not_holdsNoCode_trailed :
    isInsignificant (Language.commentSyntax (some "c")) trailed = true ∧
      ¬HoldsNoCode (Language.commentSyntax (some "c")) trailed := by
  refine ⟨by decide +kernel, ?_⟩
  have hlanguage : Language.commentSyntax (some "c") = .cFamily := by decide +kernel
  have hstates {x : Option Text × Text} (h : Reaches .cFamily (none, trailed) x) :
      x ∈ trailedStates := by
    induction h with
    | refl => exact List.mem_cons_self
    | tail _ hstep ih => exact mem_trailedStates ih hstep
  rw [hlanguage]
  rintro ⟨pending, hlines⟩
  have hline : lines trailed = [trailed] := by decide +kernel
  rw [hline] at hlines
  cases hlines with
  | cons hreads _ =>
    have htrim : trim trailed = trailed := by decide +kernel
    rw [htrim] at hreads
    generalize htrailed : trailed = line at hreads
    cases hreads with
    | read hreaches =>
      rw [← htrailed] at hreaches
      simpa [trailedStates, trailed] using hstates hreaches
    | fragment _ hpiece =>
      rw [← htrailed] at hpiece
      revert hpiece
      decide
    | cut => cases htrailed

end SourceIndex.Chunking
