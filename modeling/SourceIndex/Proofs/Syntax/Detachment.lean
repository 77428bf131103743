import SourceIndex.Proofs.Syntax.Place
import SourceIndex.Proofs.Syntax.Walk

/-! # Detached comments

A blank line between a comment and a construct parts them. The walk looks for blank lines between the
row where a node ends and the row where the next one starts, both left out. So of the blank lines
between a node that it passes and the construct, it misses those in blank nodes and those on which a
node ends (`Source.isInside_or_isMissed`); every other one lies inside a comment, a decorator or an
attribute that is absorbed (`Source.detaches`). -/

namespace SourceIndex.Syntax.Source

/-- A byte position is inside a comment, a decorator or an attribute that belongs to a place. -/
def IsInside (s : Source) (metadata : List String) (p : Place) (position : Nat) : Prop :=
  ∃ t ∈ s.absorbed metadata p, t.label.start ≤ position ∧ position < t.label.stop

/-- A blank line, with its newline at a byte position, that the walk from a place does not see: its
newline is inside a blank node, or a node that is passed ends on it. -/
def IsMissed (s : Source) (metadata : List String) (p : Place) (number position : Nat) : Prop :=
  ∃ t ∈ s.passed metadata p.tree p.before,
    (t.isAttachable metadata = false ∧ t.label.start ≤ position ∧ position < t.label.stop) ∨
      (s.row t.label.stop = number ∧ t.label.stop ≤ position)

variable {text : Text} {metadata : List String} {p : Place} {number n : Nat}

/-- Of a blank line behind the start of a sibling that is passed, the newline is inside one of those
that are passed, or one of them ends on the line. -/
theorem exists_mem_passed {current m : Tree} {before : List Tree}
    (hm : m ∈ (ofText text).passed metadata current before)
    (hn : (ofText text).newlines[number]? = some n) (hblank : (ofText text).IsBlankLine number)
    (hstart : m.label.start ≤ n) (hlt : n < current.label.start) :
    ∃ t ∈ (ofText text).passed metadata current before,
      (t.label.start ≤ n ∧ n < t.label.stop) ∨
        ((ofText text).row t.label.stop = number ∧ t.label.stop ≤ n) := by
  induction before generalizing current with
  | nil => cases hm
  | cons previous earlier ih =>
    cases hgoes : (ofText text).goesOn metadata current previous earlier with
    | false =>
      rw [passed_cons_of_not_goesOn hgoes] at hm
      cases hm
    | true =>
      rw [passed_cons_of_goesOn hgoes] at hm ⊢
      by_cases hstop : previous.label.stop ≤ n
      · -- The newline is in the gap behind `previous`, where no line strictly between is blank.
        rw [goesOn, Bool.and_eq_true, Bool.not_eq_true'] at hgoes
        have hgap := blankBetween_eq_false_iff.mp hgoes.1 number
        have hle := (row_le_iff hn previous.label.stop).mpr hstop
        have hcurrent := (row_le_iff hn current.label.start).not.mpr (Nat.not_le_of_lt hlt)
        refine ⟨previous, List.mem_cons_self, .inr ⟨?_, hstop⟩⟩
        by_contra hne
        exact hgap (Nat.lt_of_le_of_ne hle hne) (Nat.lt_of_not_le hcurrent) hblank
      · by_cases hprevious : previous.label.start ≤ n
        · exact ⟨previous, List.mem_cons_self, .inl ⟨hprevious, Nat.lt_of_not_le hstop⟩⟩
        · rcases List.mem_cons.mp hm with rfl | hm
          · exact absurd hstart hprevious
          · obtain ⟨t, ht, hends⟩ := ih hm (Nat.lt_of_not_le hprevious)
            exact ⟨t, List.mem_cons_of_mem _ ht, hends⟩

/-- A blank line between the start of a node that is absorbed and the construct. -/
theorem isInside_or_isMissed {c : Tree} (hc : c ∈ (ofText text).absorbed metadata p)
    (hn : (ofText text).newlines[number]? = some n) (hblank : (ofText text).IsBlankLine number)
    (hstart : c.label.start ≤ n) (hlt : n < p.start) :
    (ofText text).IsInside metadata p n ∨ (ofText text).IsMissed metadata p number n := by
  obtain ⟨t, ht, hinside | hends⟩ := exists_mem_passed (mem_absorbed.mp hc).1 hn hblank hstart hlt
  · cases hjoins : t.isAttachable metadata with
    | true => exact .inl ⟨t, mem_absorbed.mpr ⟨ht, hjoins⟩, hinside⟩
    | false => exact .inr ⟨t, ht, .inl ⟨hjoins, hinside⟩⟩
  · exact .inr ⟨t, ht, .inr hends⟩

/-- A blank line detaches, unless the walk misses it. Each blank line from the first one of a block on,
above the row of the construct, lies inside a node that is absorbed or is missed, and so does each one
that parts a node that is absorbed from the construct. -/
theorem detaches (text : Text) (metadata : List String) (p : Place) :
    (∀ number, (ofText text).blockLine metadata p ≤ number → number < (ofText text).row p.start →
      (ofText text).IsBlankLine number → ∃ n, (ofText text).newlines[number]? = some n ∧
        ((ofText text).IsInside metadata p n ∨ (ofText text).IsMissed metadata p number n)) ∧
    (∀ c ∈ (ofText text).absorbed metadata p, ∀ number n,
      (ofText text).newlines[number]? = some n → (ofText text).IsBlankLine number →
      c.label.start ≤ n → n < p.start →
        (ofText text).IsInside metadata p n ∨ (ofText text).IsMissed metadata p number n) := by
  refine ⟨fun number hle hlt hblank => ?_, fun c hc number n => isInside_or_isMissed hc⟩
  obtain ⟨n, hn⟩ := exists_newline hlt
  refine ⟨n, hn, ?_⟩
  have hbefore : n < p.start := by
    rw [← Nat.not_le, ← row_le_iff hn, Nat.not_le]
    exact hlt
  rcases (ofText text).blockLine_eq_or metadata p with ⟨-, hline⟩ | ⟨c, hc, hline⟩
  · rw [hline] at hle
    exact absurd hlt (Nat.not_lt_of_le hle)
  · rw [hline] at hle
    exact isInside_or_isMissed hc hn hblank ((row_le_iff hn c.label.start).mp hle) hbefore

/-- A comment over three lines in front of a definition. -/
def spread : Place :=
  ⟨[1], .node ⟨"definition", true, none, 7, 8⟩ [], [.node ⟨"comment", true, none, 0, 6⟩ []]⟩

/-- The line between its ends is blank, and inside it. -/
theorem detaches_spread :
    let s := ofText ['/', '*', '\n', '\n', '*', '/', '\n', 'd']
    s.blockLine [] spread = 0 ∧ s.row spread.start = 3 ∧ s.IsBlankLine 1 ∧
      ∃ n, s.newlines[1]? = some n ∧ s.IsInside [] spread n := by
  intro s
  have hline : s.blockLine [] spread = 0 := by decide +kernel
  have hrow : s.row spread.start = 3 := by decide +kernel
  have hblank : s.IsBlankLine 1 := ⟨[], by decide +kernel, rfl⟩
  obtain ⟨n, hn, hinside | ⟨t, ht, hmissed⟩⟩ :=
    (detaches _ [] spread).1 1 (by rw [hline]; decide) (by rw [hrow]; decide) hblank
  · exact ⟨hline, hrow, hblank, n, hn, hinside⟩
  · -- The only node that is passed is the comment, which ends on the row below.
    have hcomment : ∀ t ∈ s.passed [] spread.tree spread.before,
        t.isAttachable [] = true ∧ s.row t.label.stop = 2 := by decide +kernel
    obtain ⟨hjoins, hstop⟩ := hcomment t ht
    rcases hmissed with ⟨hjoins', -⟩ | ⟨hends, -⟩
    · rw [hjoins] at hjoins'
      cases hjoins'
    · rw [hstop] at hends
      cases hends

/-- A comment with the newline at its end, a blank line, and a function. -/
def parted : Place :=
  ⟨[1], .node ⟨"function_item", true, none, 6, 8⟩ [],
    [.node ⟨"line_comment", true, none, 0, 5⟩ []]⟩

/-- The comment ends on the row of the blank line, so it is absorbed across it. -/
theorem not_isInside_parted :
    let s := ofText ['/', '/', '/', 'a', '\n', '\n', 'f', 'n']
    parted.IsOrdered ∧ s.blockLine [] parted = 0 ∧ s.row parted.start = 2 ∧ s.IsBlankLine 1 ∧
      s.newlines[1]? = some 5 ∧ ¬s.IsInside [] parted 5 := by
  intro s
  refine ⟨⟨by decide, by decide⟩, by decide +kernel, by decide +kernel, ⟨[], by decide +kernel, rfl⟩,
    by decide +kernel, ?_⟩
  rintro ⟨t, ht, -, hlt⟩
  have hstop : ∀ t ∈ s.absorbed [] parted, t.label.stop = 5 := by decide +kernel
  rw [hstop t ht] at hlt
  exact Nat.lt_irrefl 5 hlt

end SourceIndex.Syntax.Source
