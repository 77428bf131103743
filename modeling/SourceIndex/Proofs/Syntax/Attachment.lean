import SourceIndex.Proofs.Syntax.Place
import SourceIndex.Proofs.Syntax.Walk

/-! # Attached comments

Comments, decorators and attributes right in front of a construct, with nothing but white space between
them and no blank line, belong to it. The walk passes them one after another
(`Source.take_isPrefix_passed_or`), and no block starts below a node that it absorbs
(`Source.blockLine_le_of_mem_absorbed`). It ends too early at one kind of comment only: one that starts
on the row where the node before it ends, be that node no code or code on the row above
(`Source.blockLine_le_or_of_isAttached`). -/

namespace SourceIndex.Syntax

namespace Source

/-- The `k` nearest siblings before a place belong to it: they are comments, decorators, attributes or
blank, there is no blank line between one and the next, and no comment among them starts on a line that
holds bytes of code before it. -/
structure IsAttached (s : Source) (metadata : List String) (p : Place) (k : Nat) : Prop where
  kinds : ∀ t ∈ p.before.take k, t.isAttachable metadata = true ∨ s.isBlankNode t = true
  gaps : (p.tree :: p.before.take k).IsChain fun current previous => ∀ number,
    s.row previous.label.stop < number → number < s.row current.label.start →
      ¬s.IsBlankLine number
  own : ∀ c ∈ p.before.take k, isCommentKind c.kind = true → ∀ b ∈ p.before,
    b.label.stop ≤ c.label.start → b.isAttachable metadata = false → s.isBlankNode b = false →
      ∀ position, b.label.start ≤ position → position < b.label.stop →
        s.row position ≠ s.row c.label.start

/-- The walk from a place ends at a comment `c`, behind the siblings `nearer`, although that comment
trails no code: the sibling `b` before it ends on the row where `c` starts, but it is no code, or holds
no byte on that row. -/
structure IsCutShort (s : Source) (metadata : List String) (p : Place) (nearer : List Tree)
    (c b : Tree) : Prop where
  before : nearer ++ [c, b] <+: p.before
  passed : s.passed metadata p.tree p.before = nearer
  comment : isCommentKind c.kind = true
  row : s.row b.label.stop = s.row c.label.start
  noCode : b.isAttachable metadata = true ∨ s.isBlankNode b = true ∨
    ∀ position, b.label.start ≤ position → position < b.label.stop →
      s.row position ≠ s.row c.label.start

variable {s : Source} {metadata : List String} {p : Place} {text : Text}

/-- No block starts below a node that it absorbs. -/
theorem blockLine_le_of_mem_absorbed (hp : p.IsOrdered) {t : Tree}
    (ht : t ∈ (ofText text).absorbed metadata p) :
    (ofText text).blockLine metadata p ≤ (ofText text).row t.label.start := by
  obtain ⟨nearer, last, hlast⟩ :=
    (List.eq_nil_or_concat ((ofText text).absorbed metadata p)).resolve_left
      (List.ne_nil_of_mem ht)
  rw [List.concat_eq_append] at hlast
  rw [blockLine_eq, hlast, List.map_append, List.map_singleton, List.getLastD_concat]
  apply row_mono
  rw [hlast] at ht
  rcases List.mem_append.mp ht with hnearer | hsame
  · -- The farthest node ends before the others start.
    have hsub := absorbed_sublist (ofText text) metadata p
    have horder := (List.pairwise_cons.mp hp.order).2.sublist hsub
    rw [hlast, List.pairwise_append] at horder
    have hstop := horder.2.2 t hnearer last List.mem_cons_self
    have hmem : last ∈ p.before := hsub.subset (by rw [hlast]; simp)
    exact Nat.le_trans (hp.ranges last hmem) hstop
  · obtain rfl := List.mem_singleton.mp hsame
    exact Nat.le_refl _

/-- The walk passes siblings that belong together, up to a comment that starts on the row where the one
before it ends. -/
theorem take_isPrefix_passed_or {current : Tree} {before : List Tree} {k : Nat}
    (hkinds : ∀ t ∈ before.take k, t.isAttachable metadata = true ∨ s.isBlankNode t = true)
    (hgaps : (current :: before.take k).IsChain fun current previous =>
      s.blankBetween (s.row previous.label.stop) (s.row current.label.start) = false) :
    before.take k <+: s.passed metadata current before ∨
      ∃ nearer c b, nearer ++ [c, b] <+: before ∧ nearer.length < k ∧
        s.passed metadata current before = nearer ∧ isCommentKind c.kind = true ∧
        s.row b.label.stop = s.row c.label.start := by
  induction before generalizing current k with
  | nil => exact .inl (by rw [List.take_nil]; exact List.nil_prefix)
  | cons previous earlier ih =>
    cases k with
    | zero => exact .inl List.nil_prefix
    | succ k =>
      rw [List.take_succ_cons] at hkinds hgaps
      obtain ⟨hprevious, hkinds⟩ := List.forall_mem_cons.mp hkinds
      obtain ⟨hgap, hgaps⟩ := List.isChain_cons_cons.mp hgaps
      cases hgoes : s.goesOn metadata current previous earlier with
      | true =>
        rw [passed_cons_of_goesOn hgoes]
        rcases ih hkinds hgaps with hfront | ⟨nearer, c, b, hbefore, hlt, hpassed, hends⟩
        · exact .inl (List.cons_prefix_cons.mpr ⟨rfl, hfront⟩)
        · refine .inr ⟨previous :: nearer, c, b, ?_, Nat.succ_lt_succ hlt, ?_, hends⟩
          · exact List.cons_prefix_cons.mpr ⟨rfl, hbefore⟩
          · rw [hpassed]
      | false =>
        rw [passed_cons_of_not_goesOn hgoes]
        rw [goesOn, hgap, Bool.not_false, Bool.true_and] at hgoes
        -- The gap is no reason to stop, nor is the type of `previous`.
        have htrails : s.isTrailing previous earlier = true := by
          split at hgoes
          next => simpa using hgoes
          next hjoins => exact absurd (hprevious.resolve_left hjoins) (by rw [hgoes]; decide)
        obtain ⟨hcomment, hrow⟩ := Bool.and_eq_true_iff.mp htrails
        cases earlier with
        | nil => cases hrow
        | cons b farther =>
          refine .inr ⟨[], previous, b, ?_, Nat.zero_lt_succ k, rfl, hcomment, beq_iff_eq.mp hrow⟩
          exact List.prefix_append [previous, b] farther

/-- The block of a construct starts on or above the row of each comment, decorator and attribute that
belongs to it, unless the walk takes a comment for one that trails code. -/
theorem blockLine_le_or_of_isAttached (text : Text) (metadata : List String) (p : Place) (k : Nat)
    (hp : p.IsOrdered) (hattached : (ofText text).IsAttached metadata p k) :
    (∀ t ∈ p.before.take k, t.isAttachable metadata = true →
      (ofText text).blockLine metadata p ≤ (ofText text).row t.label.start) ∨
    ∃ nearer c b, nearer.length < k ∧ (ofText text).IsCutShort metadata p nearer c b := by
  have hgaps : (p.tree :: p.before.take k).IsChain fun current previous =>
      (ofText text).blankBetween ((ofText text).row previous.label.stop)
        ((ofText text).row current.label.start) = false :=
    hattached.gaps.imp fun _ _ => blankBetween_eq_false_iff.mpr
  rcases take_isPrefix_passed_or hattached.kinds hgaps with
    hfront | ⟨nearer, c, b, hbefore, hlt, hpassed, hcomment, hrow⟩
  · refine .inl fun t ht hjoins => ?_
    exact blockLine_le_of_mem_absorbed hp (mem_absorbed.mpr ⟨hfront.subset ht, hjoins⟩)
  · refine .inr ⟨nearer, c, b, hlt, hbefore, hpassed, hcomment, hrow, ?_⟩
    have hc : c ∈ p.before.take k := by
      have hfront : nearer ++ [c] <+: p.before.take k :=
        List.prefix_take_iff.mpr ⟨(List.prefix_append_right_inj nearer).mpr
          (List.prefix_append [c] [b]) |>.trans hbefore, by rw [List.length_append]; exact hlt⟩
      exact hfront.subset (List.mem_append_right _ List.mem_cons_self)
    have horder := (List.pairwise_cons.mp hp.order).2.sublist hbefore.sublist
    have hstop : b.label.stop ≤ c.label.start :=
      (List.pairwise_cons.mp (List.pairwise_append.mp horder).2.1).1 b List.mem_cons_self
    have hb : b ∈ p.before := hbefore.subset (by simp)
    cases hjoins : b.isAttachable metadata with
    | true => exact .inl rfl
    | false =>
      cases hblank : (ofText text).isBlankNode b with
      | true => exact .inr (.inl rfl)
      | false => exact .inr (.inr (hattached.own c hc hcomment b hb hstop hjoins hblank))

/-- Siblings that are all comments, decorators, attributes or blank belong to a place if there is no
blank line between one and the next. -/
theorem isAttached_of_forall
    (hkinds : ∀ t ∈ p.before, t.isAttachable metadata = true ∨ s.isBlankNode t = true)
    (hgaps : (p.tree :: p.before).IsChain fun current previous =>
      s.blankBetween (s.row previous.label.stop) (s.row current.label.start) = false) :
    s.IsAttached metadata p p.before.length where
  kinds t ht := hkinds t (List.mem_of_mem_take ht)
  gaps := by
    rw [List.take_length]
    exact hgaps.imp fun _ _ => blankBetween_eq_false_iff.mp
  own c _ _ b hb _ hjoins hblank := by
    rcases hkinds b hb with h | h
    · rw [hjoins] at h
      cases h
    · rw [hblank] at h
      cases h

/-- A node without children. -/
def leaf (kind : String) (start stop : Nat) : Tree :=
  .node ⟨kind, true, none, start, stop⟩ []

/-- A comment, a blank node and a decorator in front of a definition. -/
def decorated : Place :=
  ⟨[3], leaf "definition" 6 7, [leaf "decorator" 3 5, leaf "space" 2 3, leaf "comment" 0 2]⟩

/-- All of them are passed, and the block starts on the first row. -/
theorem blockLine_le_or_of_isAttached_decorated :
    let s := ofText ['#', 'a', '\n', '@', 'b', '\n', 'd']
    decorated.IsOrdered ∧ s.IsAttached ["decorator"] decorated 3 ∧
      ∀ t ∈ decorated.before.take 3, t.isAttachable ["decorator"] = true →
        s.blockLine ["decorator"] decorated ≤ s.row t.label.start := by
  intro s
  have hordered : decorated.IsOrdered := ⟨by decide, by decide⟩
  have hattached : s.IsAttached ["decorator"] decorated 3 :=
    isAttached_of_forall (by decide +kernel) (by decide +kernel)
  refine ⟨hordered, hattached, ?_⟩
  rcases blockLine_le_or_of_isAttached _ _ decorated 3 hordered hattached with
    hle | ⟨nearer, c, b, hlt, hcut⟩
  · exact hle
  · have hlength : (s.passed ["decorator"] decorated.tree decorated.before).length = 3 := by
      decide +kernel
    rw [hcut.passed] at hlength
    omega

/-- Two comments, each with the newline at its end, in front of a function. -/
def documented : Place :=
  ⟨[2], leaf "function_item" 10 12, [leaf "line_comment" 5 10, leaf "line_comment" 0 5]⟩

/-- The second one starts on the row where the first one ends, so neither is absorbed. -/
theorem not_blockLine_le_documented :
    let s := ofText ['/', '/', '/', 'a', '\n', '/', '/', '/', 'b', '\n', 'f', 'n']
    documented.IsOrdered ∧ s.IsAttached [] documented 2 ∧
      ∃ t ∈ documented.before.take 2, t.isAttachable [] = true ∧
        ¬s.blockLine [] documented ≤ s.row t.label.start := by
  intro s
  refine ⟨⟨by decide, by decide⟩, isAttached_of_forall (by decide +kernel) (by decide +kernel), ?_⟩
  exact ⟨leaf "line_comment" 0 5, by simp [documented], by decide +kernel, by decide +kernel⟩

end Source

end SourceIndex.Syntax
