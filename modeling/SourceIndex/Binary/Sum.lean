import SourceIndex.Binary.Arithmetic

/-! Sums of many numbers. A sum from left to right rounds after every addition. A pairwise sum adds up
eight lanes side by side and halves what is longer than 128, so that fewer roundings pile up. -/

namespace SourceIndex.Binary.Format

/-- The sum from left to right. -/
def sum (f : Format) (xs : List Number) : Number :=
  xs.foldl f.add (f.zero false)

/-- Adds blocks of eight to eight lanes, and gives what is left after the last full block. -/
def addBlocks (f : Format) (lanes : List Number) : List Number → List Number × List Number
  | a :: b :: c :: d :: p :: q :: r :: s :: rest =>
    addBlocks f (List.zipWith f.add lanes [a, b, c, d, p, q, r, s]) rest
  | rest => (lanes, rest)

def addNeighbours (f : Format) : List Number → List Number
  | a :: b :: rest => f.add a b :: addNeighbours f rest
  | rest => rest

/-- The sum in eight lanes, which are joined as a tree before the numbers after the last full block are
added. -/
def laneSum (f : Format) (xs : List Number) : Number :=
  if xs.length < 8 then f.sum xs
  else
    let (lanes, rest) := f.addBlocks (xs.take 8) (xs.drop 8)
    let joined := f.addNeighbours (f.addNeighbours (f.addNeighbours lanes))
    rest.foldl f.add (joined.headD (f.zero false))

def pairwiseSum (f : Format) (xs : List Number) : Number :=
  if h : xs.length ≤ 128 then f.laneSum xs
  else
    let half := xs.length / 2 / 8 * 8
    f.add (pairwiseSum f (xs.take half)) (pairwiseSum f (xs.drop half))
termination_by xs.length
decreasing_by
  all_goals
    simp only [List.length_take, List.length_drop]
    omega

end SourceIndex.Binary.Format
