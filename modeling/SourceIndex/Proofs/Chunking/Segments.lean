import SourceIndex.Proofs.Syntax.Outline
import SourceIndex.Proofs.Chunking.Tiling
import SourceIndex.Syntax.Pattern
import Mathlib.Data.List.Forall2

/-! # Breakpoints as the bounds of segments

Every breakpoint has a segment, which starts at its line (`forall₂_segments`). If breakpoints ascend and
none is beyond the last newline, only the last segment may be empty
(`text_ne_nil_of_mem_dropLast_segments`). Those of a well-formed tree are such, being the outline of the
text, whatever nodes of the tree the patterns capture (`segments_breakpoints`). -/

namespace SourceIndex.Chunking

open Text
open Syntax (Breakpoint IsOutline Parser Pattern Tree breakpoints)

variable {rs : List Text} {bs : List Breakpoint}

theorem forall₂_segments (rs : List Text) (bs : List Breakpoint) :
    List.Forall₂ (fun b segment => segment.1 = b.kind ∧
      segment.2.start = (rs.take b.line).flatten.length) bs (segments rs bs) := by
  fun_induction segments rs bs with
  | case1 => exact .nil
  | case2 b => exact .cons ⟨rfl, rfl⟩ .nil
  | case3 b next rest ih => exact .cons ⟨rfl, rfl⟩ ih

theorem rows_ne_nil_of_mem_dropLast_segments (hbs : bs.Pairwise fun b b' => b.line < b'.line)
    (hle : ∀ b ∈ bs, b.line ≤ rs.length) :
    ∀ segment ∈ (segments rs bs).dropLast, segment.2.rows ≠ [] := by
  fun_induction segments rs bs with
  | case1 | case2 => exact fun _ h => absurd h List.not_mem_nil
  | case3 b next rest ih =>
    obtain ⟨hb, hrest⟩ := List.pairwise_cons.mp hbs
    obtain ⟨-, hle'⟩ := List.forall_mem_cons.mp hle
    have hne : segments rs (next :: rest) ≠ [] := by
      have hlength := (forall₂_segments rs (next :: rest)).length_eq
      rw [List.length_cons] at hlength
      exact List.ne_nil_of_length_eq_add_one hlength.symm
    rw [List.dropLast_cons_of_ne_nil hne]
    refine List.forall_mem_cons.mpr ⟨fun hnil => ?_, ih hrest hle'⟩
    have hlt := hb next List.mem_cons_self
    have hnext := hle' next List.mem_cons_self
    have hlength := congrArg List.length hnil
    rw [Excerpt.between, List.length_drop, List.length_take, List.length_nil] at hlength
    omega

theorem text_ne_nil_of_mem_dropLast_segments {t : Text}
    (hbs : bs.Pairwise fun b b' => b.line < b'.line) (hle : ∀ b ∈ bs, b.line ≤ t.count '\n') :
    ∀ segment ∈ (segments (rows t) bs).dropLast, segment.2.text ≠ [] := by
  intro segment hsegment
  have hrows := rows_ne_nil_of_mem_dropLast_segments hbs
    (fun b hb => (hle b hb).trans (count_newline_le_length_rows t)) segment hsegment
  obtain ⟨above, below, hof, -⟩ := isOf_of_mem_segments
    ((List.dropLast_sublist _).subset hsegment) hrows
  obtain ⟨row, hrow⟩ := List.exists_mem_of_ne_nil _ hrows
  have hmem : row ∈ rows t := by
    rw [hof]
    exact List.mem_append_right _ (List.mem_append_left _ hrow)
  intro hnil
  exact ne_nil_of_mem_rows hmem (List.flatten_eq_nil_iff.mp hnil row hrow)

variable {spec? : String → Option LanguageSpec} {parser : Parser} {text : Text} {language : String}
  {variant : Option String} {spec : LanguageSpec} {t : Tree}

/-- The breakpoints of a text with a well-formed tree are its outline, and they bound segments: each is
found among the starts of the lines, and what it starts is not empty unless it is the last. -/
theorem segments_breakpoints (hspec : spec? language = some spec)
    (hparse : parser.parse text language variant = some t) (hblank : isBlank text = false)
    (hengine : (parser.engine language variant).CapturesNodes t)
    (ht : t.IsWellFormed (Utf8.encode text).length) :
    let bs := breakpoints spec? parser text language variant
    IsOutline (parser.engine language variant) spec text t bs ∧
      List.Forall₂ (fun b segment => segment.1 = b.kind ∧
        (lineStarts text)[b.line]? = some segment.2.start) bs (segments (rows text) bs) ∧
      ∀ segment ∈ (segments (rows text) bs).dropLast, segment.2.text ≠ [] := by
  intro bs
  have hbs : bs = Syntax.outline (parser.engine language variant) spec text t := by
    dsimp only [bs]
    rw [breakpoints, hspec]
    dsimp only
    rw [hblank, if_neg Bool.false_ne_true, hparse, Option.map_some, Option.getD_some]
  have houtline : IsOutline (parser.engine language variant) spec text t bs :=
    hbs ▸ Syntax.isOutline_outline hengine ht
  refine ⟨houtline, ?_, text_ne_nil_of_mem_dropLast_segments houtline.ascending houtline.bounded⟩
  refine ((List.forall₂_and_left _ _).mpr ⟨houtline.bounded, forall₂_segments _ bs⟩).imp ?_
  rintro b segment ⟨hb, hkind, hstart⟩
  exact ⟨hkind, hstart ▸ lineStarts_eq hb⟩

/-- A text of three lines: a comment, a definition that it belongs to, and another definition. -/
def outlined : Text :=
  ['#', '\n', 'é', '\n', 'f', '\n']

/-- A node of a tree for it. -/
def outlinedNode (kind : String) (start stop : Nat) (children : List Tree) : Tree :=
  .node ⟨kind, true, none, start, stop⟩ children

/-- A tree for it. -/
def outlinedTree : Tree :=
  outlinedNode "module" 0 7
    [outlinedNode "comment" 0 1 [], outlinedNode "def" 2 4 [], outlinedNode "def" 5 6 []]

/-- A language in which definitions are points of interest. -/
def outlinedSpec : LanguageSpec where
  grammar := ⟨"", ""⟩
  pointsOfInterest := ["(def) @it"]
  comments := []

/-- A parser that knows this tree. -/
def outlinedParser : Parser where
  parse _ _ _ := some outlinedTree
  engine _ _ := Pattern.engine

theorem segments_breakpoints_outlined :
    let bs := breakpoints (fun _ => some outlinedSpec) outlinedParser outlined "" none
    Pattern.engine.CapturesNodes outlinedTree ∧
      IsOutline Pattern.engine outlinedSpec outlined outlinedTree bs ∧
      bs = [⟨0, some "def"⟩, ⟨2, some "def"⟩] := by
  have hengine : (outlinedParser.engine "" none).CapturesNodes outlinedTree :=
    Pattern.capturesNodes_engine outlinedTree
  have ht : outlinedTree.IsWellFormed (Utf8.encode outlined).length :=
    ⟨by decide, by decide, by decide⟩
  refine ⟨hengine, (segments_breakpoints rfl rfl rfl hengine ht).1, ?_⟩
  have hmetadata : outlinedSpec.metadataTypes = [] := List.mergeSort_nil
  have hpoints : Syntax.pointsOfInterest Pattern.engine outlinedSpec outlinedTree =
      [⟨[1, 0], outlinedNode "def" 2 4 [], [outlinedNode "comment" 0 1 []]⟩,
        ⟨[2, 0], outlinedNode "def" 5 6 [],
          [outlinedNode "def" 2 4 [], outlinedNode "comment" 0 1 []]⟩] :=
    List.mergeSort_of_pairwise (by decide)
  have hlines : [0, 2].mergeSort (fun a b => decide (a ≤ b)) = [0, 2] :=
    List.mergeSort_of_pairwise (by decide)
  change Syntax.outline Pattern.engine outlinedSpec outlined outlinedTree =
    [0, 2].map fun line => ⟨line, [(0, "def"), (2, "def")].lookup line⟩
  rw [← hlines, Syntax.outline, hmetadata, hpoints]
  rfl

end SourceIndex.Chunking
