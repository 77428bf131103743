import SourceIndex.Proofs.Text.Rows
import SourceIndex.Text.Newline

/-!
# Positions before and after line ends are unified

Unifying line ends drops a character for each carriage return with a newline behind it (`returns`),
so a position of the unified text is that many characters further back in the text itself
(`exists_position`). What stands on a line there stands at the same place of the text
(`isPrefix_of_unifyNewlines`), and a text without carriage returns is left as it is
(`unifyNewlines_of_notMem`).
-/

namespace SourceIndex.Text

/-- How many carriage returns have a newline right behind them. -/
def returns : Text → Nat
  | [] => 0
  | '\r' :: '\n' :: cs => returns cs + 1
  | _ :: cs => returns cs

theorem length_unifyNewlines_add_returns (t : Text) :
    (unifyNewlines t).length + returns t = t.length := by
  fun_induction unifyNewlines t with
  | case1 => rfl
  | case2 cs ih => simp only [returns, List.length_cons]; omega
  | case3 c cs hpair ih => simp only [returns, List.length_cons]; omega

/-- A text without carriage returns is left as it is. -/
theorem unifyNewlines_of_notMem {t : Text} (h : '\r' ∉ t) : unifyNewlines t = t := by
  fun_induction unifyNewlines t with
  | case1 => rfl
  | case2 cs ih => exact absurd List.mem_cons_self h
  | case3 c cs hpair ih =>
    obtain ⟨hc, hcs⟩ := not_or.mp (fun hmem => h (List.mem_cons.mpr hmem))
    rw [if_neg (Ne.symm hc), ih hcs]

variable {c : Char} {cs : Text}

/-- A character is unified by itself unless it starts a pair. -/
theorem unifyNewlines_cons (h : ∀ rest, c = '\r' → cs = '\n' :: rest → False) :
    unifyNewlines (c :: cs) = (if c = '\r' then '\n' else c) :: unifyNewlines cs := by
  rw [unifyNewlines]
  exact h

theorem returns_cons (h : ∀ rest, c = '\r' → cs = '\n' :: rest → False) :
    returns (c :: cs) = returns cs := by
  rw [returns]
  exact h

/-- Each position of a unified text is one of the text itself, further back by a character for each
pair before it, with the same text before and behind it once line ends are unified. -/
theorem exists_position (t : Text) {n : Nat} (h : n ≤ (unifyNewlines t).length) :
    ∃ p, p = n + returns (t.take p) ∧ unifyNewlines (t.take p) = (unifyNewlines t).take n ∧
      unifyNewlines (t.drop p) = (unifyNewlines t).drop n := by
  fun_induction unifyNewlines t generalizing n with
  | case1 => exact ⟨0, by rw [Nat.le_zero.mp h]; rfl, by simp [unifyNewlines]⟩
  | case2 cs ih =>
    cases n with
    | zero => exact ⟨0, rfl, rfl, rfl⟩
    | succ n =>
      obtain ⟨p, hp, htake, hdrop⟩ := ih (Nat.le_of_succ_le_succ h)
      refine ⟨p + 2, ?_, congrArg ('\n' :: ·) htake, hdrop⟩
      rw [List.take_succ_cons, List.take_succ_cons, returns]
      omega
  | case3 c cs hpair ih =>
    cases n with
    | zero => exact ⟨0, rfl, rfl, by rw [List.drop_zero, List.drop_zero, unifyNewlines_cons hpair]⟩
    | succ n =>
      obtain ⟨p, hp, htake, hdrop⟩ := ih (Nat.le_of_succ_le_succ h)
      have hpair' : ∀ rest, c = '\r' → cs.take p = '\n' :: rest → False := by
        intro rest hc hrest
        refine hpair (rest ++ cs.drop p) hc ?_
        rw [← List.cons_append, ← hrest, List.take_append_drop]
      refine ⟨p + 1, ?_, ?_, hdrop⟩
      · rw [List.take_succ_cons, returns_cons hpair']
        omega
      · rw [List.take_succ_cons, unifyNewlines_cons hpair', htake, List.take_succ_cons]

theorem newline_notMem_of_mem_lines {t l : Text} (h : l ∈ lines t) : '\n' ∉ l := by
  rw [lines_eq, List.mem_append] at h
  obtain h | h := h
  · obtain ⟨row, -, rfl⟩ := List.mem_map.mp h
    exact newline_notMem_chomp row
  · split at h
    · rw [List.mem_singleton.mp h]
      exact List.not_mem_nil
    · nomatch h

/-- A text on one line that a unified text starts with is what the text itself starts with. -/
theorem isPrefix_of_unifyNewlines {l t : Text} (hline : '\n' ∉ l) (h : l <+: unifyNewlines t) :
    l <+: t := by
  induction l generalizing t with
  | nil => exact List.nil_prefix
  | cons a l ih =>
    obtain ⟨ha, hl⟩ := not_or.mp fun hmem => hline (List.mem_cons.mpr hmem)
    fun_cases unifyNewlines t with
    | case1 => exact h
    | case2 cs => exact absurd (List.cons_prefix_cons.mp h).1.symm ha
    | case3 c cs hpair =>
      rw [unifyNewlines_cons hpair] at h
      obtain ⟨rfl, htail⟩ := List.cons_prefix_cons.mp h
      split at ha
      · exact absurd rfl ha
      · rw [if_neg ‹_›]
        exact List.cons_prefix_cons.mpr ⟨rfl, ih hl htail⟩

end SourceIndex.Text
