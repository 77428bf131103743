import SourceIndex.Proofs.Embedding.Single

/-!
# Pooling row by row

Dividing by the lengths along the last axis scales each vector along that axis by itself
(`entry_normalize`), whether the array is a vector or a matrix, in every arithmetic of arrays that does
what is documented of it. So the vector of all rows is put together from the rows, each scaled alone,
and that of the first row hangs on no other row (`pool_isRowwise`).
-/

namespace SourceIndex.Embedding

variable {α : Type}

namespace ArrayMath

variable {m : ArrayMath α} {length : List α → α} {quotient : α → α → α} {t : Tensor α}

/-- What becomes of a number of a vector: it is divided by the length of the vector if vectors are to
have length one, or by one if the vector has none. It ends up in single precision. -/
def scaleIn (m : ArrayMath α) (length : List α → α) (quotient : α → α → α) (normalize : Bool)
    (v : List α) (x : α) : α :=
  m.single (if normalize then quotient x (if m.isZero (length v) then m.one else length v) else x)

/-- What becomes of a vector. -/
def scale (m : ArrayMath α) (length : List α → α) (quotient : α → α → α) (normalize : Bool)
    (v : List α) : List α :=
  v.map (m.scaleIn length quotient normalize v)

theorem length_scale (normalize : Bool) (v : List α) :
    (m.scale length quotient normalize v).length = v.length :=
  List.length_map _

/-! ## The last axis -/

variable {n : Nat}

theorem shape_lengths (h : m.IsDocumented length quotient) (hrank : t.shape.length = n + 1) :
    (m.norm (-1) true t).shape = t.shape.set n 1 :=
  h.shape_norm t (by rw [hrank, Tensor.dimension?_last])

theorem shape_normalize (h : m.IsDocumented length quotient) (hrank : t.shape.length = n + 1) :
    (m.normalize t).shape = t.shape := by
  refine h.shape_divide ?_
  rw [Tensor.map, shape_lengths h hrank]
  exact Tensor.stretches_set t.shape n

/-- An entry is divided by the length of the vector that it belongs to along the last axis. -/
theorem entry_normalize (h : m.IsDocumented length quotient) (hrank : t.shape.length = n + 1)
    {index : List Nat} (hindex : index ∈ Tensor.indices t.shape) :
    (m.normalize t).entry index = quotient (t.entry index)
      (if m.isZero (length (t.along n index)) then m.one else length (t.along n index)) := by
  have hbelow := Tensor.mem_indices.mp hindex
  have hnorm : (m.norm (-1) true t).entry (index.set n 0) = length (t.along n index) := by
    rw [h.entry_norm t (by rw [hrank, Tensor.dimension?_last]) _
      (Tensor.mem_indices.mpr (Tensor.forall₂_set hbelow n)), Tensor.along_set]
  have hshape := shape_lengths h hrank
  rw [normalize, h.entry_divide _ index hindex]
  · simp only [Tensor.map]
    rw [hshape, Tensor.shrink_set hbelow, hnorm]
  · simp only [Tensor.map]
    rw [hshape]
    exact Tensor.stretches_set t.shape n

/-- Each number is scaled in the vector that it belongs to along the last axis. -/
theorem map_single_flat (h : m.IsDocumented length quotient) (hrank : t.shape.length = n + 1)
    (normalize : Bool) :
    (if normalize then m.normalize t else t).flat.map m.single =
      (Tensor.indices t.shape).map fun index =>
        m.scaleIn length quotient normalize (t.along n index) (t.entry index) := by
  cases normalize with
  | false => exact List.map_map
  | true =>
    rw [if_pos rfl, Tensor.flat, shape_normalize h hrank, List.map_map]
    refine List.map_congr_left fun index hindex => ?_
    rw [Function.comp_apply, entry_normalize h hrank hindex, scaleIn, if_pos rfl]

end ArrayMath

/-! ## Vectors and matrices -/

namespace Tensor

variable {t : Tensor α} {n width : Nat}

/-- A row of a matrix. -/
def row (t : Tensor α) (i : Nat) : List α :=
  t.along 1 [i, 0]

/-- The matrix of one row, that of a number. -/
def only (t : Tensor α) (i : Nat) : Tensor α where
  shape := 1 :: t.shape.tail
  entry index := t.entry (i :: index.tail)

theorem row_eq (hshape : t.shape = [n, width]) (i : Nat) :
    t.row i = (List.range width).map fun j => t.entry [i, j] := by
  rw [row, along, hshape]
  rfl

theorem length_row (hshape : t.shape = [n, width]) (i : Nat) : (t.row i).length = width := by
  rw [row_eq hshape, List.length_map, List.length_range]

theorem row_only (hshape : t.shape = [n, width]) (i : Nat) : (t.only i).row 0 = t.row i := by
  have hone : (t.only i).shape = [1, width] := by rw [only, hshape, List.tail_cons]
  rw [row_eq hone, row_eq hshape]
  rfl

theorem flat_vector (hshape : t.shape = [width]) :
    t.flat = (List.range width).map fun j => t.entry [j] := by
  rw [flat, hshape, indices_one, List.map_map]
  rfl

theorem flat_part (hshape : t.shape = [n, width]) (i : Nat) : (t.part i).flat = t.row i := by
  have hone : (t.part i).shape = [width] := by rw [part, hshape, List.tail_cons]
  rw [flat_vector hone, row_eq hshape]
  rfl

end Tensor

namespace ArrayMath

variable {m : ArrayMath α} {length : List α → α} {quotient : α → α → α} {t : Tensor α} {n width : Nat}

theorem map_single_vector (h : m.IsDocumented length quotient) (hshape : t.shape = [width])
    (normalize : Bool) :
    (if normalize then m.normalize t else t).flat.map m.single =
      m.scale length quotient normalize t.flat := by
  have halong : ∀ j, t.along 0 [j] = t.flat := fun j => by
    rw [Tensor.flat_vector hshape, Tensor.along, hshape]
    rfl
  have hrank : t.shape.length = 0 + 1 := by rw [hshape]; rfl
  rw [map_single_flat h hrank, scale]
  conv => rhs; arg 2; rw [Tensor.flat_vector hshape]
  rw [hshape, Tensor.indices_one, List.map_map, List.map_map]
  exact List.map_congr_left fun j _ => by simp only [Function.comp_apply, halong]

theorem map_single_matrix (h : m.IsDocumented length quotient) (hshape : t.shape = [n, width])
    (normalize : Bool) :
    (if normalize then m.normalize t else t).flat.map m.single =
      (List.range n).flatMap fun i => m.scale length quotient normalize (t.row i) := by
  -- the vectors along the last axis are the rows
  have halong : ∀ i j, t.along 1 [i, j] = t.row i := fun i j => t.along_set 1 j [i, 0]
  have hrank : t.shape.length = 1 + 1 := by rw [hshape]; rfl
  rw [map_single_flat h hrank, hshape, Tensor.indices_two, List.map_flatMap]
  refine List.flatMap_congr fun i _ => ?_
  rw [scale]
  conv => rhs; arg 2; rw [Tensor.row_eq hshape]
  rw [List.map_map, List.map_map]
  exact List.map_congr_left fun j _ => by simp only [Function.comp_apply, halong]

end ArrayMath

/-! ## Strategies -/

theorem ofName?_eq_none_iff (name : String) :
    Strategy.ofName? name = none ↔ name ∉ ["mean", "cls", "none"] := by
  simp only [Strategy.ofName?, List.mem_cons, List.not_mem_nil, or_false, not_or, beq_iff_eq]
  by_cases hmean : name = "mean"
  · simp [hmean]
  · by_cases hfirst : name = "cls"
    · simp [hfirst]
    · by_cases hall : name = "none"
      · simp [hall]
      · simp [hmean, hfirst, hall]

/-- Pooling fails if there is no row, or no strategy of the name. -/
theorem exists_pool_eq_error_iff (m : ArrayMath α) (options : Options) (t : Tensor α) :
    (∃ cause, pool m options t = .error cause) ↔
      t.shape.length ≠ 2 ∨ t.shape.head? = some 0 ∨
        options.pooling ∉ ["mean", "cls", "none"] := by
  rw [← ofName?_eq_none_iff, pool]
  by_cases hshape : t.shape.length ≠ 2 ∨ t.shape.head? = some 0
  · rw [if_pos (by simpa using hshape)]
    exact iff_of_true ⟨_, rfl⟩ (or_assoc.mp (.inl hshape))
  · rw [if_neg (by simpa using hshape)]
    rw [not_or] at hshape
    cases Strategy.ofName? options.pooling with
    | none => simp
    | some strategy => simp [hshape]

section Pool

variable {m : ArrayMath α} {length : List α → α} {quotient : α → α → α} {t : Tensor α} {n width : Nat}

theorem pool_of_shape (hshape : t.shape = [n, width]) (hn : 0 < n) (options : Options)
    {strategy : Strategy} (hname : Strategy.ofName? options.pooling = some strategy) :
    pool m options t = .ok ((if options.normalize then m.normalize (m.reduce strategy t)
      else m.reduce strategy t).flat.map m.single) := by
  rw [pool, hshape, if_neg (by simp; omega), hname]

theorem exists_pool_mean (h : m.IsDocumented length quotient) (hshape : t.shape = [n, width])
    (hn : 0 < n) (normalize : Bool) :
    ∃ v, pool m ⟨"mean", normalize⟩ t = .ok v ∧ v.length = width := by
  have hmean : (m.mean 0 t).shape = [width] := by
    have hdimension : Tensor.dimension? t.shape.length 0 = some 0 := by rw [hshape]; rfl
    rw [h.shape_mean t hdimension, hshape, List.eraseIdx_cons_zero]
  refine ⟨_, pool_of_shape hshape hn ⟨"mean", normalize⟩ rfl, ?_⟩
  rw [ArrayMath.reduce, ArrayMath.map_single_vector h hmean, ArrayMath.length_scale,
    Tensor.flat_vector hmean, List.length_map, List.length_range]

theorem pool_first (h : m.IsDocumented length quotient) (hshape : t.shape = [n, width])
    (hn : 0 < n) (normalize : Bool) :
    pool m ⟨"cls", normalize⟩ t = .ok (m.scale length quotient normalize (t.row 0)) := by
  have hpart : (t.part 0).shape = [width] := by rw [Tensor.part, hshape, List.tail_cons]
  rw [← Tensor.flat_part hshape 0, ← ArrayMath.map_single_vector h hpart]
  exact pool_of_shape hshape hn ⟨"cls", normalize⟩ rfl

theorem pool_all (h : m.IsDocumented length quotient) (hshape : t.shape = [n, width])
    (hn : 0 < n) (normalize : Bool) :
    pool m ⟨"none", normalize⟩ t =
      .ok ((List.range n).flatMap fun i => m.scale length quotient normalize (t.row i)) := by
  rw [← ArrayMath.map_single_matrix h hshape]
  exact pool_of_shape hshape hn ⟨"none", normalize⟩ rfl

theorem pool_only (h : m.IsDocumented length quotient) (hshape : t.shape = [n, width])
    (i : Nat) (normalize : Bool) :
    pool m ⟨"cls", normalize⟩ (t.only i) = .ok (m.scale length quotient normalize (t.row i)) := by
  have hone : (t.only i).shape = [1, width] := by rw [Tensor.only, hshape, List.tail_cons]
  rw [pool_first h hone Nat.one_pos, Tensor.row_only hshape]

/-- A vector of zeros has no length of its own, so it is divided by one. -/
theorem scale_of_zero (h : m.IsDocumented length quotient) (normalize : Bool) {v : List α}
    (hv : ∀ x ∈ v, m.isZero x) : ∀ x ∈ m.scale length quotient normalize v, m.isZero x := by
  intro y hy
  obtain ⟨x, hx, rfl⟩ := List.mem_map.mp hy
  refine h.isZero_single ?_
  split
  · rw [if_pos (h.isZero_length hv)]
    exact h.isZero_quotient (hv x hx)
  · exact hv x hx

end Pool

/-- What pooling makes of a matrix of `n` rows of `width` numbers, whether or not vectors are to have
length one. -/
structure IsRowwise (m : ArrayMath α) (length : List α → α) (quotient : α → α → α) (t : Tensor α)
    (n width : Nat) (normalize : Bool) : Prop where
  mean : ∃ v, pool m ⟨"mean", normalize⟩ t = .ok v ∧ v.length = width
  /-- That of the first row hangs on no other row. -/
  first : ∃ v, pool m ⟨"cls", normalize⟩ t = .ok v ∧ v.length = width ∧
    ∀ t' n', t'.shape = [n', width] → 0 < n' → (∀ j < width, t'.entry [0, j] = t.entry [0, j]) →
      pool m ⟨"cls", normalize⟩ t' = .ok v
  /-- All rows together are what the first row is of each row by itself. -/
  all : ∃ vs, pool m ⟨"none", normalize⟩ t = .ok vs.flatten ∧ vs.flatten.length = n * width ∧
    List.Forall₂ (fun i v => pool m ⟨"cls", normalize⟩ (t.only i) = .ok v) (List.range n) vs
  /-- A row by itself is divided by its own length, or by one. -/
  own : ∀ i < n, pool m ⟨"cls", normalize⟩ (t.only i) = .ok
    ((t.row i).map fun x => m.single (if normalize then
      quotient x (if m.isZero (length (t.row i)) then m.one else length (t.row i)) else x))
  zero : ∀ i < n, (∀ j < width, m.isZero (t.entry [i, j])) →
    ∃ v, pool m ⟨"cls", normalize⟩ (t.only i) = .ok v ∧ ∀ x ∈ v, m.isZero x

/-- Pooling fails only for an array that is no matrix, or without rows, or for a strategy of another
name. The vectors of all rows are those of the single rows one after another, each scaled by itself. -/
theorem pool_isRowwise {m : ArrayMath α} {length : List α → α} {quotient : α → α → α}
    (h : m.IsDocumented length quotient) (options : Options) (t : Tensor α) :
    ((∃ cause, pool m options t = .error cause) ↔
      t.shape.length ≠ 2 ∨ t.shape.head? = some 0 ∨
        options.pooling ∉ ["mean", "cls", "none"]) ∧
    ∀ n width, t.shape = [n, width] → 0 < n → ∀ normalize,
      IsRowwise m length quotient t n width normalize := by
  refine ⟨exists_pool_eq_error_iff m options t, fun n width hshape hn normalize => ?_⟩
  have hrow := Tensor.row_eq hshape
  have hlength : ∀ i, (m.scale length quotient normalize (t.row i)).length = width := fun i =>
    (ArrayMath.length_scale normalize _).trans (Tensor.length_row hshape i)
  refine ⟨exists_pool_mean h hshape hn normalize, ?_, ?_, ?_, ?_⟩
  · refine ⟨_, pool_first h hshape hn normalize, hlength 0, fun t' n' hshape' hn' hsame => ?_⟩
    have hfirst : t'.row 0 = t.row 0 := by
      rw [Tensor.row_eq hshape', hrow]
      exact List.map_congr_left fun j hj => hsame j (List.mem_range.mp hj)
    rw [pool_first h hshape' hn', hfirst]
  · refine ⟨(List.range n).map fun i => m.scale length quotient normalize (t.row i), ?_, ?_, ?_⟩
    · rw [pool_all h hshape hn, List.flatMap_def]
    · rw [List.length_flatten, List.map_map]
      simp [Function.comp_def, hlength]
    · exact List.forall₂_map_right_iff.mpr
        (List.forall₂_same.mpr fun i _ => pool_only h hshape i normalize)
  · exact fun i _ => pool_only h hshape i normalize
  · refine fun i _ hzero => ⟨_, pool_only h hshape i normalize, scale_of_zero h normalize ?_⟩
    rw [hrow]
    intro x hx
    obtain ⟨j, hj, rfl⟩ := List.mem_map.mp hx
    exact hzero j (List.mem_range.mp hj)

/-- A row of length five and a row of zeros. -/
def uneven : Tensor Binary.Number where
  shape := [2, 2]
  entry
    | [0, 0] => Binary.binary32.ofInt 3
    | [0, 1] => Binary.binary32.ofInt 4
    | _ => Binary.binary32.zero false

/-- The first row is divided by five, and the second one stays as it is. -/
theorem pool_isRowwise_uneven :
    uneven.shape = [2, 2] ∧ 0 < 2 ∧
      pool Single.math ⟨"none", true⟩ uneven = .ok [Binary.binary32.round false 3 5,
        Binary.binary32.round false 4 5, Binary.binary32.zero false, Binary.binary32.zero false] ∧
      IsRowwise Single.math Single.length Binary.binary32.div uneven 2 2 true :=
  ⟨rfl, by decide, by decide +kernel,
    (pool_isRowwise Single.isDocumented_math {} uneven).2 2 2 rfl (by decide) true⟩

end SourceIndex.Embedding
