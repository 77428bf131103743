import SourceIndex.Proofs.Syntax.Row
import SourceIndex.Syntax.LeadingBlock
import Mathlib.Data.List.Basic

/-! # The walk back over siblings

The siblings that the walk passes are some of the nearest ones (`Source.passed`), and those of them that
are comments, decorators or attributes are absorbed. The block starts on the row of the farthest one
that is absorbed (`Source.blockLine_eq`). -/

namespace SourceIndex.Syntax

/-- Whether a node joins the block of what follows it: comments, decorators and attributes do. -/
def Tree.isAttachable (metadata : List String) (t : Tree) : Bool :=
  isCommentKind t.kind || metadata.contains t.kind

namespace Source

/-- Whether a node has nothing but white space in it. -/
def isBlankNode (s : Source) (t : Tree) : Bool :=
  (s.slice t.label.start t.label.stop).all isBlankByte

/-- A line with a number that has nothing but white space in it. -/
def IsBlankLine (s : Source) (number : Nat) : Prop :=
  ∃ line, s.lines[number]? = some line ∧ Text.isBlank line = true

/-- Whether a node is a comment that starts on the row where the sibling before it ends. -/
def isTrailing (s : Source) (t : Tree) (earlier : List Tree) : Bool :=
  isCommentKind t.kind &&
    earlier.head?.any fun before => s.row before.label.stop == s.row t.label.start

/-- Whether the walk goes on from `current` to the sibling before it. -/
def goesOn (s : Source) (metadata : List String) (current previous : Tree) (earlier : List Tree) :
    Bool :=
  !s.blankBetween (s.row previous.label.stop) (s.row current.label.start) &&
    if previous.isAttachable metadata then !s.isTrailing previous earlier
    else s.isBlankNode previous

/-- The siblings that the walk passes, nearest first. -/
def passed (s : Source) (metadata : List String) (current : Tree) : List Tree → List Tree
  | [] => []
  | previous :: earlier =>
    if s.goesOn metadata current previous earlier then
      previous :: passed s metadata previous earlier
    else []

/-- The comments, decorators and attributes that belong to a place, nearest first. -/
def absorbed (s : Source) (metadata : List String) (p : Place) : List Tree :=
  (s.passed metadata p.tree p.before).filter (Tree.isAttachable metadata)

variable {s : Source} {metadata : List String} {current t : Tree} {p : Place}

theorem passed_cons_of_goesOn {previous : Tree} {earlier : List Tree}
    (h : s.goesOn metadata current previous earlier = true) :
    s.passed metadata current (previous :: earlier) =
      previous :: s.passed metadata previous earlier := by
  rw [passed, if_pos h]

theorem passed_cons_of_not_goesOn {previous : Tree} {earlier : List Tree}
    (h : s.goesOn metadata current previous earlier = false) :
    s.passed metadata current (previous :: earlier) = [] := by
  rw [passed, if_neg (by rw [h]; exact Bool.false_ne_true)]

/-- The siblings that are passed are the nearest ones. -/
theorem passed_isPrefix (s : Source) (metadata : List String) (current : Tree)
    (before : List Tree) : s.passed metadata current before <+: before := by
  induction before generalizing current with
  | nil => exact List.prefix_rfl
  | cons previous earlier ih =>
    rw [passed]
    split
    · exact List.cons_prefix_cons.mpr ⟨rfl, ih previous⟩
    · exact List.nil_prefix

theorem mem_absorbed : t ∈ s.absorbed metadata p ↔
    t ∈ s.passed metadata p.tree p.before ∧ t.isAttachable metadata = true :=
  List.mem_filter

theorem absorbed_sublist (s : Source) (metadata : List String) (p : Place) :
    (s.absorbed metadata p).Sublist p.before :=
  List.filter_sublist.trans (passed_isPrefix s metadata p.tree p.before).sublist

/-- The walk ends on the row of the farthest attachable sibling that it passes. -/
theorem leadingLine_eq (s : Source) (metadata : List String) (line : Nat) (current : Tree)
    (before : List Tree) : s.leadingLine metadata line current before =
      (((s.passed metadata current before).filter (Tree.isAttachable metadata)).map
        fun t => s.row t.label.start).getLastD line := by
  induction before generalizing line current with
  | nil => rfl
  | cons previous earlier ih =>
    rw [leadingLine, passed, goesOn, isTrailing]
    split
    next hblank =>
      -- A blank line ends the walk.
      rw [hblank]
      rfl
    next hblank =>
      rw [Bool.not_eq_true] at hblank
      rw [hblank, Bool.not_false, Bool.true_and]
      cases hjoins : previous.isAttachable metadata with
      | true =>
        rw [if_pos (by exact hjoins), if_pos rfl]
        cases htrails : isCommentKind previous.kind && earlier.head?.any
            fun before => s.row before.label.stop == s.row previous.label.start with
        | true => rfl
        | false =>
          rw [if_neg Bool.false_ne_true, ih, Bool.not_false, if_pos rfl,
            List.filter_cons_of_pos hjoins, List.map_cons, List.getLastD_cons]
      | false =>
        rw [if_neg (by rw [← Tree.isAttachable, hjoins]; exact Bool.false_ne_true),
          if_neg Bool.false_ne_true, ← isBlankNode]
        cases s.isBlankNode previous with
        | true =>
          rw [if_pos rfl, if_pos rfl, ih, List.filter_cons_of_neg (by rw [hjoins]; decide)]
        | false => rfl

theorem blockLine_eq (s : Source) (metadata : List String) (p : Place) :
    s.blockLine metadata p =
      ((s.absorbed metadata p).map fun t => s.row t.label.start).getLastD (s.row p.start) :=
  s.leadingLine_eq metadata _ p.tree p.before

/-- The block starts where the place does, or where the farthest node that is absorbed does. -/
theorem blockLine_eq_or (s : Source) (metadata : List String) (p : Place) :
    s.absorbed metadata p = [] ∧ s.blockLine metadata p = s.row p.start ∨
      ∃ t ∈ s.absorbed metadata p, s.blockLine metadata p = s.row t.label.start := by
  rw [blockLine_eq]
  rcases List.eq_nil_or_concat (s.absorbed metadata p) with hnil | ⟨nearer, t, hlast⟩
  · rw [hnil]
    exact .inl ⟨rfl, rfl⟩
  · rw [List.concat_eq_append] at hlast
    refine .inr ⟨t, by rw [hlast]; exact List.mem_append_right _ List.mem_cons_self, ?_⟩
    rw [hlast, List.map_append, List.map_singleton, List.getLastD_concat]

/-! ## Blank lines -/

theorem blankBetween_iff {first last : Nat} : s.blankBetween first last = true ↔
    ∃ number, first < number ∧ number < last ∧ s.IsBlankLine number := by
  rw [blankBetween, List.any_eq_true]
  constructor
  · rintro ⟨line, hline, hblank⟩
    obtain ⟨i, hi⟩ := List.mem_iff_getElem?.mp hline
    rw [List.getElem?_drop, List.getElem?_take] at hi
    split at hi
    next hlast => exact ⟨first + 1 + i, by omega, hlast, line, hi, hblank⟩
    next => cases hi
  · rintro ⟨number, hfirst, hlast, line, hline, hblank⟩
    refine ⟨line, List.mem_iff_getElem?.mpr ⟨number - (first + 1), ?_⟩, hblank⟩
    rw [List.getElem?_drop, Nat.add_sub_cancel' hfirst, List.getElem?_take_of_lt hlast]
    exact hline

theorem blankBetween_eq_false_iff {first last : Nat} : s.blankBetween first last = false ↔
    ∀ number, first < number → number < last → ¬s.IsBlankLine number := by
  rw [← Bool.not_eq_true, blankBetween_iff]
  exact ⟨fun h number hfirst hlast hblank => h ⟨number, hfirst, hlast, hblank⟩,
    fun h ⟨number, hfirst, hlast, hblank⟩ => h number hfirst hlast hblank⟩

end Source

end SourceIndex.Syntax
