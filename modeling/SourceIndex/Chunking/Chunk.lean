import SourceIndex.Chunking.Excerpt
import SourceIndex.Chunking.Plan
import SourceIndex.Chunking.Significance
import SourceIndex.Chunking.Trim

/-! Chunks of a document. A text that fits the context is one chunk. Any other is cut at the starts of
its constructs, or at blank lines if it is prose, and what is then still over budget is cut between
lines. Each piece is trimmed and, if the filter is on, dropped where it holds no code. -/

namespace SourceIndex.Chunking

open Syntax (Breakpoint)

/-- A text to be cut, with what is known of its language. -/
structure Document where
  text : Text
  language : Option String
  variant : Option String := none

/-- The excerpt that split pieces come from: what it is, and where it starts. -/
structure Origin where
  label : String
  start : Nat
  deriving DecidableEq, Repr

/-- The name of an origin, which the pieces of one split share. -/
def Origin.name (o : Origin) : String :=
  s!"{o.label}@{o.start}"

/-- An excerpt on its way to be a chunk. -/
structure Candidate where
  excerpt : Excerpt
  origin : Option Origin := none
  oversized : Bool := false
  kind : Option String := none

/-- A chunk: its content, where that starts in the text, the split it comes from and its number there,
whether it exceeds the budget, and the type of its construct. -/
structure Chunk where
  content : Text
  offset : Nat
  origin : Option Origin
  order : Option Nat
  oversized : Bool
  kind : Option String
  deriving DecidableEq, Repr

/-- Numbers the entries of each key from zero; `seen` are the keys before. An entry without a key keeps
what it has. -/
def renumberFrom {κ : Type} [BEq κ] (seen : List κ) :
    List (Option κ × Option Nat) → List (Option κ × Option Nat)
  | [] => []
  | (none, order) :: rest => (none, order) :: renumberFrom seen rest
  | (some key, _) :: rest => (some key, some (seen.count key)) :: renumberFrom (key :: seen) rest

/-- Numbers the entries of each key from zero. -/
def renumber {κ : Type} [BEq κ] (entries : List (Option κ × Option Nat)) :
    List (Option κ × Option Nat) :=
  renumberFrom [] entries

/-- The chunk of a candidate, not yet numbered; there is none if nothing is left of it. -/
def Candidate.chunk? (comments : CommentSyntax) (filter : Bool) (c : Candidate) : Option Chunk :=
  match trim? c.excerpt.text with
  | none => none
  | some trimmed =>
    if filter && isInsignificant comments trimmed.content then none
    else some {
      content := trimmed.content, offset := c.excerpt.start + trimmed.skipped,
      origin := c.origin, order := none, oversized := c.oversized, kind := c.kind }

/-- The chunks of candidates, numbered within each split. -/
def finalize (comments : CommentSyntax) (filter : Bool) (candidates : List Candidate) : List Chunk :=
  let chunks := candidates.filterMap (·.chunk? comments filter)
  let numbers := renumber (chunks.map fun c => (c.origin, c.order))
  List.zipWith (fun c number => { c with order := number.2 }) chunks numbers

/-- Cuts an excerpt between its rows. -/
def splitPlan (budget : Nat) (origin : Option Origin) (kind : Option String) (e : Excerpt) :
    Plan (List Candidate) :=
  (Plan.measureAll [] e.rows).bind fun measured =>
    let groups := group budget measured
    let excerpts := Excerpt.consecutive e.start (groups.map Group.rows)
    .done <| List.zipWith
      (fun excerpt g => { excerpt, origin, oversized := g.oversized, kind }) excerpts groups

/-- Keeps an excerpt within budget as it is, and splits any other. -/
def excerptPlan (budget : Nat) (label : String) (kind : Option String) (e : Excerpt) :
    Plan (List Candidate) :=
  .measure e.text fun n =>
    if n ≤ budget then .done [{ excerpt := e, kind }]
    else splitPlan budget (some ⟨label, e.start⟩) kind e

/-- What a segment is called: the type of its construct, or plain text if it has none. -/
def segmentLabel : Option String → String
  | none | some "" => "text"
  | some kind => kind

def structuralPlan (budget : Nat) (rows : List Text) (breakpoints : List Breakpoint) :
    Plan (List Candidate) :=
  .collect <| (segments rows breakpoints).map fun (kind, e) =>
    .look <| if e.rows.isEmpty then .done [] else excerptPlan budget (segmentLabel kind) kind e

/-- Cuts rows at blank lines. -/
def paragraphPlan (budget : Nat) (rows : List Text) : Plan (List Candidate) :=
  .collect <| (paragraphs 0 rows).map fun e =>
    .look <| if Text.isBlank e.text then .done [] else excerptPlan budget "paragraph" none e

/-- The candidates of a document that does not fit whole; `breakpoints` are those of its text. -/
def cutPlan (budget : Nat) (doc : Document) (breakpoints : List Breakpoint) :
    Plan (List Candidate) :=
  if Language.isProse doc.language then paragraphPlan budget (Text.rows doc.text)
  else
    .look <|
      if breakpoints.isEmpty then splitPlan budget none none (.whole doc.text)
      else structuralPlan budget (Text.rows doc.text) breakpoints

/-- The budgets of a context length: for one chunk, and for a text that is left whole. -/
def budgets (contextLength : Nat) : Except Token.BudgetError (Nat × Nat) := do
  let chunk ← Token.part contextLength Token.chunkFactor
  let fit ← Token.part contextLength Token.fitFactor
  return (chunk.toNat, fit.toNat)

/-- The plan for the candidates of a document, whose breakpoints `find` tells. A blank one has none. -/
def candidatePlan (contextLength : Nat) (find : Document → List Breakpoint) (doc : Document) :
    Plan (List Candidate) :=
  if Text.isBlank doc.text then .done []
  else
    .look <|
      match budgets contextLength with
      | .error cause => .stop (.budget cause)
      | .ok (budget, fit) =>
        .measure doc.text fun n =>
          if n ≤ fit then .done [{ excerpt := .whole doc.text }]
          else cutPlan budget doc (find doc)

def chunkPlan (contextLength : Nat) (filter : Bool) (find : Document → List Breakpoint)
    (doc : Document) : Plan (List Chunk) :=
  (candidatePlan contextLength find doc).bind fun candidates =>
    .done (finalize (Language.commentSyntax doc.language) filter candidates)

end SourceIndex.Chunking
