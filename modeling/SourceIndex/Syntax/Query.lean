import SourceIndex.Syntax.Tree

/-! Queries for nodes of a tree. What patterns mean is up to the engine of a grammar: it makes a search
of a pattern, or refuses it, and the search tells the matches in a tree. Candidates are the nodes that
the matches of some patterns capture. -/

namespace SourceIndex.Syntax

/-- The nodes that a match captures, by the names they are captured under, in order. -/
abbrev Match := List (String × List Place)

/-- The nodes that are taken from a match: those captured as `capture`; if there are none, those that
are captured under the first name. -/
def Match.taken (m : Match) : List Place :=
  match m.lookup "capture" with
  | some (p :: ps) => p :: ps
  | _ => (m.head?.map Prod.snd).getD []

/-- A query engine makes a search of a pattern, unless it refuses the pattern. -/
structure QueryEngine where
  search? : String → Option (Tree → List Match)

namespace QueryEngine

/-- The nodes that are taken for a pattern, match by match; there are none for a pattern that is
refused. -/
def captured (engine : QueryEngine) (pattern : String) (t : Tree) : List Place :=
  match engine.search? pattern with
  | some search => (search t).flatMap Match.taken
  | none => []

/-- An engine captures nodes of the tree that it searches. -/
def CapturesNodes (engine : QueryEngine) (t : Tree) : Prop :=
  ∀ pattern search, engine.search? pattern = some search →
    ∀ m ∈ search t, ∀ capture ∈ m, ∀ p ∈ capture.2, p ∈ t.places

end QueryEngine

/-- The places whose paths are neither seen before nor those of earlier ones. -/
def distinctPlaces (seen : List (List Nat)) : List Place → List Place
  | [] => []
  | p :: ps =>
    if seen.contains p.path then distinctPlaces seen ps
    else p :: distinctPlaces (p.path :: seen) ps

/-- The places that are taken for any of the patterns, pattern by pattern, each place once. -/
def candidates (engine : QueryEngine) (patterns : List String) (t : Tree) : List Place :=
  distinctPlaces [] (patterns.flatMap fun pattern => engine.captured pattern t)

end SourceIndex.Syntax
