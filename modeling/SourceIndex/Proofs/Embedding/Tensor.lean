import Mathlib.Data.List.Forall2
import SourceIndex.Embedding.Pooling

/-!
# Indices of arrays

An index belongs to a shape if each of its numbers is below the size of its dimension (`mem_indices`).
Where one size of a shape is set to one, the array that is left is stretched along that dimension alone:
each index of the larger array stands for the one with zero there (`shrink_set`). An arithmetic of
arrays is known by what is documented of it (`ArrayMath.IsDocumented`).
-/

namespace SourceIndex.Embedding

namespace Tensor

variable {α : Type} {shape index : List Nat}

/-- An array of the smaller shape goes with one of the larger: its sizes are the same, or one. -/
def Stretches (small large : List Nat) : Prop :=
  List.Forall₂ (fun m n => m = 1 ∨ m = n) small large

theorem mem_indices : index ∈ indices shape ↔ List.Forall₂ (· < ·) index shape := by
  induction shape generalizing index with
  | nil => rw [indices, List.mem_singleton, List.forall₂_nil_right_iff]
  | cons n shape ih =>
    simp only [indices, List.mem_flatMap, List.mem_range, List.mem_map, ih,
      List.forall₂_cons_right_iff]
    constructor
    · rintro ⟨i, hi, index, hindex, rfl⟩
      exact ⟨i, index, hi, hindex, rfl⟩
    · rintro ⟨i, index, hi, hindex, rfl⟩
      exact ⟨i, hi, index, hindex, rfl⟩

theorem indices_one (n : Nat) : indices [n] = (List.range n).map ([·]) := by
  rw [List.map_eq_flatMap]
  rfl

theorem indices_two (m n : Nat) :
    indices [m, n] = (List.range m).flatMap fun i => (List.range n).map fun j => [i, j] := by
  rw [indices, indices_one]
  simp only [List.map_map, Function.comp_def]

/-! ## A dimension of size one -/

theorem stretches_set (shape : List Nat) (k : Nat) : Stretches (shape.set k 1) shape := by
  induction shape generalizing k with
  | nil => exact .nil
  | cons n shape ih =>
    cases k with
    | zero => exact .cons (.inl rfl) (List.forall₂_same.mpr fun _ _ => .inr rfl)
    | succ k => exact .cons (.inr rfl) (ih k)

theorem forall₂_set (h : List.Forall₂ (· < ·) index shape) (k : Nat) :
    List.Forall₂ (· < ·) (index.set k 0) (shape.set k 1) := by
  induction h generalizing k with
  | nil => exact .nil
  | cons hi hindex ih =>
    cases k with
    | zero => exact .cons Nat.one_pos hindex
    | succ k => exact .cons hi (ih k)

theorem shrink_cons_of_lt {i n : Nat} (h : i < n) (shape index : List Nat) :
    shrink (n :: shape) (i :: index) = i :: shrink shape index := by
  have hhead : (if n = 1 then 0 else i) = i := by
    split
    · omega
    · rfl
  rw [shrink, List.zipWith_cons_cons, hhead]
  rfl

theorem shrink_self (h : List.Forall₂ (· < ·) index shape) : shrink shape index = index := by
  induction h with
  | nil => rfl
  | cons hi _ ih => rw [shrink_cons_of_lt hi, ih]

theorem shrink_set (h : List.Forall₂ (· < ·) index shape) (k : Nat) :
    shrink (shape.set k 1) index = index.set k 0 := by
  induction h generalizing k with
  | nil => rfl
  | cons hi hindex ih =>
    cases k with
    | zero =>
      rw [List.set_cons_zero, List.set_cons_zero, shrink, List.zipWith_cons_cons, if_pos rfl]
      exact congrArg (0 :: ·) (shrink_self hindex)
    | succ k => rw [List.set_cons_succ, List.set_cons_succ, shrink_cons_of_lt hi, ih]

theorem along_set (t : Tensor α) (k i : Nat) (index : List Nat) :
    t.along k (index.set k i) = t.along k index := by
  simp only [along, List.set_set]

theorem dimension?_last (count : Nat) : dimension? (count + 1) (-1) = some count := by
  have hnumber : (if (-1 : Int) < 0 then -1 + ((count + 1 : Nat) : Int) else -1) = count := by
    rw [if_pos (by decide)]
    omega
  have hlast : (0 : Int) ≤ count ∧ (count : Int) < ((count + 1 : Nat) : Int) := by omega
  rw [dimension?, hnumber]
  simp only [hlast, decide_true, Bool.and_self, if_true, Int.toNat_natCast]

end Tensor

/-- What is documented of an arithmetic of arrays, in terms of the length of one vector and of the
quotient of two numbers. -/
structure ArrayMath.IsDocumented {α : Type} (m : ArrayMath α) (length : List α → α)
    (quotient : α → α → α) : Prop where
  shape_mean {axis k} (t : Tensor α) (h : Tensor.dimension? t.shape.length axis = some k) :
    (m.mean axis t).shape = t.shape.eraseIdx k
  shape_norm {axis k} (t : Tensor α) (h : Tensor.dimension? t.shape.length axis = some k) :
    (m.norm axis true t).shape = t.shape.set k 1
  entry_norm {axis k} (t : Tensor α) (h : Tensor.dimension? t.shape.length axis = some k) :
    ∀ index ∈ Tensor.indices (t.shape.set k 1),
      (m.norm axis true t).entry index = length (t.along k index)
  shape_divide {t u : Tensor α} (h : Tensor.Stretches u.shape t.shape) :
    (m.divide t u).shape = t.shape
  entry_divide {t u : Tensor α} (h : Tensor.Stretches u.shape t.shape) :
    ∀ index ∈ Tensor.indices t.shape,
      (m.divide t u).entry index = quotient (t.entry index) (u.entry (Tensor.shrink u.shape index))
  isZero_length {xs} (h : ∀ x ∈ xs, m.isZero x) : m.isZero (length xs)
  isZero_quotient {x} (h : m.isZero x) : m.isZero (quotient x m.one)
  isZero_single {x} (h : m.isZero x) : m.isZero (m.single x)

end SourceIndex.Embedding
