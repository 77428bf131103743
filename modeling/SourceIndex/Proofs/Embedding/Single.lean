import SourceIndex.Embedding.Single
import SourceIndex.Proofs.Embedding.Tensor

/-!
# The arithmetic of arrays in single precision

Means, lengths and quotients in single precision do what is documented of an arithmetic of arrays
(`Single.isDocumented_math`). A vector of zeros has length zero, since a sum of zeros is zero in
whatever order they are added up (`pairwiseSum_zero`).
-/

namespace SourceIndex.Binary.Format

variable {f : Format} {xs : List Number}

/-! ## Sums of zeros -/

theorem round_zero (negative : Bool) (den : Nat) :
    f.round negative 0 den = f.zero negative := by
  rw [round, if_pos rfl]

theorem roundScaled_zero (negative : Bool) (e : Int) :
    f.roundScaled negative 0 e = f.zero negative := by
  rw [roundScaled, Nat.zero_shiftLeft, round_zero, round_zero, ite_self]

theorem add_zero_zero : f.add (f.zero false) (f.zero false) = f.zero false := by
  simp [zero, add, Number.units]

theorem foldl_add_zero (h : ∀ x ∈ xs, x = f.zero false) :
    xs.foldl f.add (f.zero false) = f.zero false := by
  induction xs with
  | nil => rfl
  | cons x xs ih =>
    obtain ⟨rfl, hxs⟩ := List.forall_mem_cons.mp h
    rw [List.foldl_cons, add_zero_zero, ih hxs]

theorem zipWith_add_zero {lanes : List Number} (hlanes : ∀ x ∈ lanes, x = f.zero false)
    (h : ∀ x ∈ xs, x = f.zero false) : ∀ x ∈ List.zipWith f.add lanes xs, x = f.zero false := by
  intro x hx
  rw [← List.map_uncurry_zip_eq_zipWith] at hx
  obtain ⟨⟨a, b⟩, hab, rfl⟩ := List.mem_map.mp hx
  obtain ⟨ha, hb⟩ := List.of_mem_zip hab
  rw [Function.uncurry_apply_pair, hlanes a ha, h b hb, add_zero_zero]

theorem addBlocks_zero {lanes : List Number} (hlanes : ∀ x ∈ lanes, x = f.zero false)
    (h : ∀ x ∈ xs, x = f.zero false) :
    (∀ x ∈ (f.addBlocks lanes xs).1, x = f.zero false) ∧
      ∀ x ∈ (f.addBlocks lanes xs).2, x = f.zero false := by
  fun_induction addBlocks f lanes xs with
  | case1 lanes a b c d p q r s rest ih =>
    have hblock : ∀ x ∈ [a, b, c, d, p, q, r, s] ++ rest, x = f.zero false := h
    rw [List.forall_mem_append] at hblock
    exact ih (zipWith_add_zero hlanes hblock.1) hblock.2
  | case2 lanes rest hshort => exact ⟨hlanes, h⟩

theorem addNeighbours_zero (h : ∀ x ∈ xs, x = f.zero false) :
    ∀ x ∈ f.addNeighbours xs, x = f.zero false := by
  fun_induction addNeighbours f xs with
  | case1 a b rest ih =>
    obtain ⟨rfl, rfl, hrest⟩ : a = _ ∧ b = _ ∧ _ := by
      rwa [List.forall_mem_cons, List.forall_mem_cons] at h
    exact List.forall_mem_cons.mpr ⟨add_zero_zero, ih hrest⟩
  | case2 rest hshort => exact h

theorem laneSum_zero (h : ∀ x ∈ xs, x = f.zero false) : f.laneSum xs = f.zero false := by
  rw [laneSum]
  split
  · exact foldl_add_zero h
  · obtain ⟨hlanes, hrest⟩ := addBlocks_zero (fun x hx => h x (List.mem_of_mem_take hx))
      fun x hx => h x (List.mem_of_mem_drop hx)
    have hjoined := addNeighbours_zero (addNeighbours_zero (addNeighbours_zero hlanes))
    dsimp only
    cases hlist : f.addNeighbours (f.addNeighbours (f.addNeighbours
        (f.addBlocks (xs.take 8) (xs.drop 8)).1)) with
    | nil => exact foldl_add_zero hrest
    | cons x _ =>
      rw [hlist] at hjoined
      rw [List.headD_cons, hjoined x List.mem_cons_self]
      exact foldl_add_zero hrest

theorem pairwiseSum_zero (h : ∀ x ∈ xs, x = f.zero false) : f.pairwiseSum xs = f.zero false := by
  fun_induction pairwiseSum f xs with
  | case1 xs hshort => exact laneSum_zero h
  | case2 xs hlong half ihleft ihright =>
    rw [ihleft fun x hx => h x (List.mem_of_mem_take hx),
      ihright fun x hx => h x (List.mem_of_mem_drop hx), add_zero_zero]

end SourceIndex.Binary.Format

namespace SourceIndex.Embedding.Single

open Binary (Number binary32)

theorem exists_of_isZero {x : Number} (h : x.isZero) : ∃ s e, x = .finite s 0 e := by
  cases x with
  | finite s m e =>
    obtain rfl : m = 0 := by simpa [Number.isZero] using h
    exact ⟨s, e, rfl⟩
  | nan => cases h
  | infinite => cases h

theorem mul_self_of_isZero {x : Number} (h : x.isZero) : binary32.mul x x = binary32.zero false := by
  obtain ⟨s, e, rfl⟩ := exists_of_isZero h
  rw [Binary.Format.mul, Nat.zero_mul, Binary.Format.roundScaled_zero, bne_self_eq_false]

theorem isZero_length {v : Vec} (h : ∀ x ∈ v, x.isZero) : (length v).isZero := by
  have hsquares : ∀ x ∈ v.map fun x => binary32.mul x x, x = binary32.zero false := by
    intro x hx
    obtain ⟨y, hy, rfl⟩ := List.mem_map.mp hx
    exact mul_self_of_isZero (h y hy)
  rw [length, sum, Binary.Format.pairwiseSum_zero hsquares, Binary.Format.add_zero_zero]
  rfl

theorem isZero_div {x : Number} (h : x.isZero) :
    (binary32.div x (binary32.ofInt 1)).isZero := by
  obtain ⟨s, e, rfl⟩ := exists_of_isZero h
  have hone : binary32.ofInt 1 = .finite false 8388608 (-23) := by decide +kernel
  have hscaled : (Binary.scaleDown 0 8388608 (-23 - e)).1 = 0 := by
    rw [Binary.scaleDown]
    split
    · rfl
    · exact Nat.zero_shiftLeft _
  rw [hone, Binary.Format.div, if_neg (by decide)]
  dsimp only
  rw [hscaled, Binary.Format.round_zero]
  rfl

theorem isZero_convert {x : Number} (h : x.isZero) : (binary32.convert x).isZero := by
  obtain ⟨s, e, rfl⟩ := exists_of_isZero h
  rw [Binary.Format.convert, Binary.Format.roundScaled_zero]
  rfl

theorem isDocumented_math : math.IsDocumented length binary32.div where
  shape_mean t h := by simp only [math, mean, h, Option.getD_some]
  shape_norm t h := by simp only [math, norm, h, Option.getD_some, if_true]
  entry_norm t h _ _ := by simp only [math, norm, h, Option.getD_some, if_true]
  shape_divide _ := rfl
  entry_divide _ _ _ := rfl
  isZero_length := isZero_length
  isZero_quotient := isZero_div
  isZero_single := isZero_convert

end SourceIndex.Embedding.Single
