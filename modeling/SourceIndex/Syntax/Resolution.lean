import SourceIndex.Language.Spec
import SourceIndex.Syntax.Tree

/-! Resolution of nested points of interest, so that each construct is counted once. -/

namespace SourceIndex.Syntax

/-- Whether a path is that of one of the places. -/
def occurs (places : List Place) (path : List Nat) : Bool :=
  places.any fun p => p.path == path

/-- Whether a place gives way: to its parent, where that is a candidate that wins over its children, or
to a candidate right below it, where children win. -/
def givesWay (policy : String → Option Winner) (candidates : List Place) (p : Place) : Bool :=
  candidates.any (fun q => p.path.tail == q.path && !p.path.isEmpty &&
    policy q.kind == some .parent) ||
  policy p.kind == some .child &&
    candidates.any fun q => q.path.tail == p.path && !q.path.isEmpty

/-- Earlier starts come first, and of equal starts the later end. -/
def precedes (p q : Place) : Bool :=
  p.start < q.start || p.start == q.start && q.stop ≤ p.stop

/-- The candidates that are kept, in the order of the text: those that do not give way, and of them
only the outermost if the language nests flatly. -/
def resolve (policy : String → Option Winner) (outermostOnly : Bool) (candidates : List Place) :
    List Place :=
  let kept := candidates.filter fun p => !givesWay policy candidates p
  let kept :=
    if outermostOnly then kept.filter fun p => !(Place.above p.path).any (occurs kept) else kept
  kept.mergeSort precedes

end SourceIndex.Syntax
