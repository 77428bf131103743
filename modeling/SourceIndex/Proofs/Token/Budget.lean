import SourceIndex.Token.Budget

/-! # Parts of a context length

A part of a context length can be taken whenever the product is a finite number
(`exists_part`), and only then (`finite_of_part`), and it is never negative (`part_nonneg`). -/

namespace SourceIndex

open Binary

namespace Binary.Format

/-- Rounding keeps the sign. -/
theorem round_cases (f : Format) (negative : Bool) (num den : Nat) :
    f.round negative num den = .infinite negative ∨
      ∃ m e, f.round negative num den = .finite negative m e := by
  have hlast (m : Nat) (e : Int) :
      (if f.maxExp < e then Number.infinite negative else .finite negative m e) =
          .infinite negative ∨
        ∃ m' e', (if f.maxExp < e then Number.infinite negative else .finite negative m e) =
          .finite negative m' e' := by
    split
    · exact .inl rfl
    · exact .inr ⟨m, e, rfl⟩
  rw [round]
  split
  · exact .inr ⟨0, f.minExp, rfl⟩
  · exact hlast _ _

theorem roundScaled_cases (f : Format) (negative : Bool) (m : Nat) (e : Int) :
    f.roundScaled negative m e = .infinite negative ∨
      ∃ m' e', f.roundScaled negative m e = .finite negative m' e' := by
  rw [roundScaled]
  split <;> exact round_cases ..

end Binary.Format

namespace Token

variable {length : Nat} {factor : Number}

/-- Both parts that are taken of a context length are formed of finite products. -/
def HasParts (length : Nat) : Prop :=
  ∀ factor ∈ [chunkFactor, fitFactor], ∃ negative mantissa exponent,
    binary64.mul (binary64.ofInt length) factor = .finite negative mantissa exponent

theorem exists_part {negative : Bool} {mantissa : Nat} {exponent : Int}
    (h : binary64.mul (binary64.ofInt length) factor = .finite negative mantissa exponent) :
    ∃ limit, part length factor = .ok limit := by
  rw [part]
  split
  · rename_i s hs
    rw [hs] at h
    cases factor with
    | nan | infinite => cases h
    | finite =>
      simp only [Format.mul] at h
      split at h <;> cases h
  · rw [h]
    exact ⟨_, rfl⟩

theorem finite_of_part {limit : Int} (h : part length factor = .ok limit) :
    ∃ negative mantissa exponent,
      binary64.mul (binary64.ofInt length) factor = .finite negative mantissa exponent := by
  rw [part] at h
  split at h
  · cases h
  · cases hproduct : binary64.mul (binary64.ofInt length) factor with
    | nan | infinite =>
      rw [hproduct] at h
      cases h
    | finite negative mantissa exponent => exact ⟨negative, mantissa, exponent, rfl⟩

theorem part_nonneg {m : Nat} {e : Int} {limit : Int} (hfactor : factor = .finite false m e)
    (h : part length factor = .ok limit) : 0 ≤ limit := by
  subst hfactor
  have hsign : binary64.ofInt length = binary64.round false (length : Int).natAbs 1 := by
    rw [Format.ofInt, decide_eq_false (Int.not_lt.mpr (Int.natCast_nonneg length))]
  rw [part, hsign] at h
  rcases binary64.round_cases false (length : Int).natAbs 1 with hlength | ⟨n, x, hlength⟩
  · rw [hlength] at h
    cases h
  · rw [hlength] at h
    simp only [Format.mul] at h
    rcases binary64.roundScaled_cases (false != false) (n * m) (x + e) with hproduct | ⟨k, y, hproduct⟩
    · rw [hproduct] at h
      cases h
    · rw [hproduct] at h
      cases h
      dsimp only [Number.floor?, Option.getD_some]
      rw [bne_self_eq_false, if_neg Bool.false_ne_true]
      split
      · exact Int.mul_nonneg (Int.natCast_nonneg k) (Int.natCast_nonneg _)
      · exact Int.fdiv_nonneg (Int.natCast_nonneg k) (Int.natCast_nonneg _)

end Token

end SourceIndex
