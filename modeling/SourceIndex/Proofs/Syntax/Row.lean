import SourceIndex.Syntax.Tree
import Mathlib.Logic.Basic

/-! # Rows of byte positions

The byte of a newline is in no other character (`count_newline_utf8EncodeChar`). So the row of a byte
position is the number of newlines among the bytes before it (`Source.row_ofText`): it grows with the
position, no row is beyond the newlines of the text, and a row ends at the newline with its number
(`Source.row_le_iff`). -/

namespace SourceIndex.Syntax

open Text

variable {text : Text}

theorem le_toNat_of_mem_utf8EncodeChar {c : Char} {b : UInt8} (hc : 127 < c.val.toNat)
    (hb : b ∈ String.utf8EncodeChar c) : 128 ≤ b.toNat := by
  rw [String.utf8EncodeChar, if_neg (Nat.not_le_of_gt hc)] at hb
  split at hb
  · simp only [List.mem_cons, List.not_mem_nil, or_false] at hb
    rcases hb with rfl | rfl <;> rw [UInt8.toNat_ofNat'] <;> omega
  · split at hb
    · simp only [List.mem_cons, List.not_mem_nil, or_false] at hb
      rcases hb with rfl | rfl | rfl <;> rw [UInt8.toNat_ofNat'] <;> omega
    · simp only [List.mem_cons, List.not_mem_nil, or_false] at hb
      rcases hb with rfl | rfl | rfl | rfl <;> rw [UInt8.toNat_ofNat'] <;> omega

theorem count_newline_utf8EncodeChar (c : Char) :
    (String.utf8EncodeChar c).count 10 = if c = '\n' then 1 else 0 := by
  by_cases hc : 127 < c.val.toNat
  · rw [if_neg (by rintro rfl; revert hc; decide), List.count_eq_zero]
    intro hmem
    exact absurd (le_toNat_of_mem_utf8EncodeChar hc hmem) (by decide)
  · rw [String.utf8EncodeChar, if_pos (Nat.le_of_not_gt hc), List.count_singleton]
    have hbyte : UInt8.ofNat c.val.toNat = 10 ↔ c = '\n' := by
      rw [Char.ext_iff, ← UInt32.toNat_inj, ← UInt8.toNat_inj, UInt8.toNat_ofNat',
        Nat.mod_eq_of_lt (by omega)]
      rfl
    exact if_congr (beq_iff_eq.trans hbyte) rfl rfl

theorem count_newline_encode (t : Text) : (Utf8.encode t).count 10 = t.count '\n' := by
  induction t with
  | nil => rfl
  | cons c t ih =>
    rw [Utf8.encode, List.flatMap_cons, List.count_append, count_newline_utf8EncodeChar,
      List.count_cons, Nat.add_comm]
    exact congrArg₂ _ ih (if_congr beq_iff_eq.symm rfl rfl)

namespace Source

theorem countP_newlinesFrom (first position : Nat) (bytes : List UInt8) :
    (newlinesFrom first bytes).countP (· < position) = (bytes.take (position - first)).count 10 := by
  induction bytes generalizing first with
  | nil => rw [newlinesFrom, List.take_nil, List.count_nil, List.countP_nil]
  | cons b bytes ih =>
    by_cases hlt : first < position
    · have htake : position - first = position - (first + 1) + 1 := by omega
      rw [newlinesFrom, htake, List.take_succ_cons, List.count_cons, ← ih]
      split
      · rw [List.countP_cons]
        simp [*]
      · simp [*]
    · have hnext := ih (first + 1)
      rw [Nat.sub_eq_zero_of_le (by omega), List.take_zero, List.count_nil] at hnext ⊢
      rw [newlinesFrom]
      split
      · rw [List.countP_cons, hnext]
        simp [hlt]
      · exact hnext

theorem row_ofText (text : Text) (position : Nat) :
    (ofText text).row position = ((Utf8.encode text).take position).count 10 := by
  rw [row, ofText, countP_newlinesFrom, Nat.sub_zero]

theorem row_le (text : Text) (position : Nat) : (ofText text).row position ≤ text.count '\n' := by
  rw [row_ofText, ← count_newline_encode]
  exact (List.take_sublist position _).count_le 10

theorem row_mono (text : Text) {position position' : Nat} (h : position ≤ position') :
    (ofText text).row position ≤ (ofText text).row position' := by
  rw [row_ofText, row_ofText]
  exact (List.take_sublist_take_left h).count_le 10

theorem pairwise_newlinesFrom (first : Nat) (bytes : List UInt8) :
    (newlinesFrom first bytes).Pairwise (· < ·) ∧ ∀ n ∈ newlinesFrom first bytes, first ≤ n := by
  induction bytes generalizing first with
  | nil => exact ⟨.nil, fun _ h => absurd h List.not_mem_nil⟩
  | cons b bytes ih =>
    obtain ⟨hpairwise, hle⟩ := ih (first + 1)
    have hle' : ∀ n ∈ newlinesFrom (first + 1) bytes, first ≤ n :=
      fun n hn => Nat.le_of_succ_le (hle n hn)
    rw [newlinesFrom]
    split
    · exact ⟨.cons hle hpairwise, List.forall_mem_cons.mpr ⟨Nat.le_refl first, hle'⟩⟩
    · exact ⟨hpairwise, hle'⟩

/-- Of ascending numbers at most `number` are below a position if and only if the one with that number
is not below it. -/
theorem countP_lt_le_iff {ns : List Nat} (hns : ns.Pairwise (· < ·)) {number n : Nat}
    (hn : ns[number]? = some n) (position : Nat) :
    ns.countP (· < position) ≤ number ↔ position ≤ n := by
  induction ns generalizing number with
  | nil => cases hn
  | cons m ns ih =>
    obtain ⟨hm, hns⟩ := List.pairwise_cons.mp hns
    by_cases hle : position ≤ m
    · -- None of the numbers is below the position, as the first one is not.
      have hge : ∀ m' ∈ m :: ns, position ≤ m' :=
        List.forall_mem_cons.mpr ⟨hle, fun m' hm' => Nat.le_trans hle (Nat.le_of_lt (hm m' hm'))⟩
      have hnone : (m :: ns).countP (· < position) = 0 :=
        List.countP_eq_zero.mpr fun m' hm' => by simpa using hge m' hm'
      rw [hnone]
      exact iff_of_true (Nat.zero_le _) (hge n (List.mem_of_getElem? hn))
    · rw [List.countP_cons_of_pos (by simpa using hle)]
      cases number with
      | zero =>
        cases hn
        exact iff_of_false (Nat.not_succ_le_zero _) hle
      | succ number =>
        rw [Nat.add_le_add_iff_right]
        exact ih hns hn

/-- The positions on the row of a newline or above are those up to the newline. -/
theorem row_le_iff {text : Text} {number n : Nat} (hn : (ofText text).newlines[number]? = some n)
    (position : Nat) : (ofText text).row position ≤ number ↔ position ≤ n :=
  countP_lt_le_iff (pairwise_newlinesFrom 0 _).1 hn position

theorem exists_newline {s : Source} {number position : Nat} (h : number < s.row position) :
    ∃ n, s.newlines[number]? = some n :=
  ⟨_, List.getElem?_eq_getElem (Nat.lt_of_lt_of_le h List.countP_le_length)⟩

end Source

end SourceIndex.Syntax
