import SourceIndex.Text.Blank
import Mathlib.Data.List.Forall2
import Mathlib.Data.List.TakeWhile

/-! # Lines, rows and offsets of a text

A text is read line by line: it has no newline, or it is a line, a newline and another text
(`Text.byLines`). The views of a text follow this shape (`lines_append_newline`, `rows_append_newline`),
so each row is a line and maybe its newline (`lines_eq`), any run of rows is the rows of its own text
(`rows_flatten_of_append`), and the rows above one tell its number (`count_newline_above`) and its
offset (`lineStarts_above`). So the rows of a text and the offsets of its lines agree
(`tabulates_rows`). -/

namespace SourceIndex.Text

/-- A row without the newline at its end. -/
def chomp (row : Text) : Text :=
  row.takeWhile (· != '\n')

theorem byLines {motive : Text → Prop} (last : ∀ l, '\n' ∉ l → motive l)
    (line : ∀ l t, '\n' ∉ l → motive t → motive (l ++ '\n' :: t)) (t : Text) : motive t := by
  -- The line that was read so far has to be general.
  suffices H : ∀ l : Text, '\n' ∉ l → motive (l ++ t) from H [] List.not_mem_nil
  induction t with
  | nil => intro l hl; exact (List.append_nil l).symm ▸ last l hl
  | cons c t ih =>
    intro l hl
    by_cases hc : c = '\n'
    · subst hc
      exact line l t hl (ih [] List.not_mem_nil)
    · have hlc : '\n' ∉ l ++ [c] := by simp [hl, Ne.symm hc]
      simpa using ih (l ++ [c]) hlc

/-! ## The two views, line by line -/

theorem lines_of_notMem {l : Text} (h : '\n' ∉ l) : lines l = [l] := by
  induction l with
  | nil => rfl
  | cons c cs ih =>
    obtain ⟨hc, hcs⟩ := List.ne_and_not_mem_of_not_mem_cons h
    rw [lines, if_neg (Ne.symm hc), ih hcs, List.modifyHead_cons]

theorem lines_append_newline {l : Text} (h : '\n' ∉ l) (t : Text) :
    lines (l ++ '\n' :: t) = l :: lines t := by
  induction l with
  | nil => simp [lines]
  | cons c cs ih =>
    obtain ⟨hc, hcs⟩ := List.ne_and_not_mem_of_not_mem_cons h
    rw [List.cons_append, lines, if_neg (Ne.symm hc), ih hcs, List.modifyHead_cons]

/-- The lines above a newline stand before those below it. -/
theorem lines_append (t u : Text) : lines (t ++ '\n' :: u) = lines t ++ lines u := by
  induction t using byLines with
  | last l hl => rw [lines_append_newline hl, lines_of_notMem hl, List.singleton_append]
  | line l t hl ih =>
    rw [List.append_assoc, List.cons_append, lines_append_newline hl, ih, lines_append_newline hl,
      List.cons_append]

theorem length_lines (t : Text) : (lines t).length = t.count '\n' + 1 := by
  induction t using byLines with
  | last l hl => rw [lines_of_notMem hl, List.count_eq_zero_of_not_mem hl]; rfl
  | line l t hl ih =>
    rw [lines_append_newline hl, List.length_cons, ih, List.count_append,
      List.count_eq_zero_of_not_mem hl, List.count_cons_self, Nat.zero_add]

theorem rows_of_notMem {l : Text} (h : '\n' ∉ l) (hne : l ≠ []) : rows l = [l] := by
  induction l with
  | nil => exact absurd rfl hne
  | cons c cs ih =>
    obtain ⟨hc, hcs⟩ := List.ne_and_not_mem_of_not_mem_cons h
    rw [rows, if_neg (Ne.symm hc)]
    cases cs with
    | nil => rfl
    | cons d ds => rw [ih hcs (List.cons_ne_nil d ds)]

theorem rows_append_newline {l : Text} (h : '\n' ∉ l) (t : Text) :
    rows (l ++ '\n' :: t) = (l ++ ['\n']) :: rows t := by
  induction l with
  | nil => simp [rows]
  | cons c cs ih =>
    obtain ⟨hc, hcs⟩ := List.ne_and_not_mem_of_not_mem_cons h
    rw [List.cons_append, rows, if_neg (Ne.symm hc), ih hcs]
    rfl

/-! ## Texts of lines -/

theorem ofLines_cons (l : Text) {ls : List Text} (h : ls ≠ []) :
    ofLines (l :: ls) = l ++ '\n' :: ofLines ls := by
  cases ls with
  | nil => exact absurd rfl h
  | cons => rfl

theorem lines_ofLines {ls : List Text} (hne : ls ≠ []) (h : ∀ l ∈ ls, '\n' ∉ l) :
    lines (ofLines ls) = ls := by
  induction ls with
  | nil => exact absurd rfl hne
  | cons l ls ih =>
    have hl := h l List.mem_cons_self
    cases ls with
    | nil => exact lines_of_notMem hl
    | cons l' ls =>
      rw [ofLines_cons l (List.cons_ne_nil l' ls), lines_append_newline hl,
        ih (List.cons_ne_nil l' ls) fun m hm => h m (List.mem_cons_of_mem _ hm)]

/-- A text with fewer lines, and less on each, is a part of the text. -/
theorem ofLines_sublist {ls ls' : List Text} (h : List.SublistForall₂ List.Sublist ls ls') :
    (ofLines ls).Sublist (ofLines ls') := by
  induction h with
  | nil => exact List.nil_sublist _
  | @cons l l' ls ls' hl hls ih =>
    cases ls with
    | nil =>
      cases ls' with
      | nil => exact hl
      | cons => exact hl.trans (List.sublist_append_left l' _)
    | cons next ls =>
      have hne : ls' ≠ [] := by
        rintro rfl
        cases hls
      rw [ofLines_cons l (List.cons_ne_nil next ls), ofLines_cons l' hne]
      exact hl.append (ih.cons_cons '\n')
  | @cons_right l' ls ls' hls ih =>
    cases ls' with
    | nil =>
      cases hls
      exact List.nil_sublist _
    | cons next ls' =>
      rw [ofLines_cons l' (List.cons_ne_nil next ls')]
      exact (ih.cons '\n').trans (List.sublist_append_right l' _)

/-! ## Rows -/

@[simp] theorem newline_notMem_chomp (row : Text) : '\n' ∉ chomp row := fun h => by
  simpa using List.mem_takeWhile_imp h

theorem bne_newline_of_notMem {l : Text} (h : '\n' ∉ l) : ∀ c ∈ l, (c != '\n') = true :=
  fun _ hc => bne_iff_ne.mpr fun he => h (he ▸ hc)

theorem chomp_of_notMem {l : Text} (h : '\n' ∉ l) : chomp l = l :=
  List.takeWhile_eq_self_iff.mpr (bne_newline_of_notMem h)

theorem chomp_append_of_notMem {l : Text} (h : '\n' ∉ l) (t : Text) :
    chomp (l ++ t) = l ++ chomp t :=
  List.takeWhile_append_of_pos (bne_newline_of_notMem h)

theorem chomp_append_newline {l : Text} (h : '\n' ∉ l) : chomp (l ++ ['\n']) = l := by
  rw [chomp_append_of_notMem h]
  exact List.append_nil l

/-- The rows without their newlines are the lines, but for the empty line behind a last newline. -/
theorem lines_eq (t : Text) :
    lines t = (rows t).map chomp ++ if t.getLast?.all (· == '\n') then [[]] else [] := by
  induction t using byLines with
  | last l hl =>
    rw [lines_of_notMem hl]
    rcases l.eq_nil_or_concat with rfl | ⟨l, c, rfl⟩
    · rfl
    · rw [List.concat_eq_append] at hl ⊢
      have hc : ¬c = '\n' := fun he => hl (by simp [he])
      rw [rows_of_notMem hl (by simp), List.map_singleton, chomp_of_notMem hl]
      simp [hc]
  | line l t hl ih =>
    rw [lines_append_newline hl, rows_append_newline hl, List.map_cons, chomp_append_newline hl,
      List.cons_append, ih]
    congr 3
    rcases t.eq_nil_or_concat with rfl | ⟨t, c, rfl⟩
    · simp
    · simp [List.getLast?_cons]

/-- No row starts behind a last newline, or in an empty text, but a line does. -/
theorem length_lines_eq (t : Text) :
    (lines t).length = (rows t).length + if t = [] ∨ t.getLast? = some '\n' then 1 else 0 := by
  have hall : t.getLast?.all (· == '\n') = true ↔ t = [] ∨ t.getLast? = some '\n' := by
    cases hlast : t.getLast? with
    | none => simp [List.getLast?_eq_none_iff.mp hlast]
    | some c =>
      have hne : t ≠ [] := by
        rintro rfl
        cases hlast
      simp [hne]
  rw [lines_eq, List.length_append, List.length_map]
  simp only [hall]
  split <;> rfl

/-- A run of rows is the rows of its own text. -/
theorem rows_flatten_of_append {t : Text} {above below : List Text} (h : rows t = above ++ below) :
    rows above.flatten = above ∧ rows below.flatten = below := by
  induction t using byLines generalizing above with
  | last l hl =>
    by_cases hne : l = []
    · subst hne
      obtain ⟨rfl, rfl⟩ := List.append_eq_nil_iff.mp h.symm
      exact ⟨rfl, rfl⟩
    · have hrows := rows_of_notMem hl hne
      rw [hrows] at h
      have hnil : rows [] = [] := rfl
      rcases List.singleton_eq_append_iff.mp h with ⟨rfl, rfl⟩ | ⟨rfl, rfl⟩ <;> simp [hrows, hnil]
  | line l t hl ih =>
    cases above with
    | nil => exact ⟨rfl, by rw [← List.nil_append below, ← h, flatten_rows]⟩
    | cons r above =>
      rw [rows_append_newline hl, List.cons_append, List.cons.injEq] at h
      obtain ⟨rfl, h⟩ := h
      refine ⟨?_, (ih h).2⟩
      rw [List.flatten_cons, List.append_assoc, List.singleton_append, rows_append_newline hl,
        (ih h).1]

/-- A row with another one below it ends with a newline. -/
theorem eq_chomp_append_of_above {t : Text} {above below : List Text}
    (h : rows t = above ++ below) (hne : below ≠ []) : ∀ r ∈ above, r = chomp r ++ ['\n'] := by
  induction t using byLines generalizing above with
  | last l hl =>
    intro r hr
    have hlen : (rows l).length ≤ 1 := by
      by_cases hl' : l = []
      · subst hl'; exact Nat.zero_le 1
      · rw [rows_of_notMem hl hl']; exact Nat.le_refl 1
    have := List.length_pos_of_mem hr
    have := List.length_pos_iff.mpr hne
    rw [h, List.length_append] at hlen
    omega
  | line l t hl ih =>
    cases above with
    | nil => exact fun r hr => absurd hr List.not_mem_nil
    | cons r above =>
      rw [rows_append_newline hl, List.cons_append, List.cons.injEq] at h
      obtain ⟨rfl, h⟩ := h
      exact List.forall_mem_cons.mpr ⟨by rw [chomp_append_newline hl], ih h⟩

/-- A row is a line, and maybe the newline behind it. -/
theorem eq_chomp_or_of_mem_rows {t row : Text} (h : row ∈ rows t) :
    row = chomp row ∨ row = chomp row ++ ['\n'] := by
  induction t using byLines with
  | last l hl =>
    by_cases hne : l = []
    · subst hne; exact absurd h List.not_mem_nil
    · rw [rows_of_notMem hl hne, List.mem_singleton] at h
      exact .inl (h ▸ (chomp_of_notMem hl).symm)
  | line l t hl ih =>
    rw [rows_append_newline hl, List.mem_cons] at h
    rcases h with rfl | h
    · exact .inr (by rw [chomp_append_newline hl])
    · exact ih h

theorem ne_nil_of_mem_rows {t row : Text} (h : row ∈ rows t) : row ≠ [] := by
  induction t using byLines with
  | last l hl =>
    by_cases hne : l = []
    · subst hne; exact absurd h List.not_mem_nil
    · rw [rows_of_notMem hl hne, List.mem_singleton] at h
      exact h ▸ hne
  | line l t hl ih =>
    rw [rows_append_newline hl, List.mem_cons] at h
    rcases h with rfl | h
    · exact List.append_ne_nil_of_right_ne_nil _ (List.cons_ne_nil _ _)
    · exact ih h

theorem isBlank_chomp {t row : Text} (h : row ∈ rows t) : isBlank (chomp row) = isBlank row := by
  rcases eq_chomp_or_of_mem_rows h with h | h
  · rw [← h]
  · have hn : isSpace '\n' = true := rfl
    rw [h, chomp_append_newline (newline_notMem_chomp row)]
    simp [isBlank, hn]

theorem newline_notMem_dropLast {t row : Text} (h : row ∈ rows t) : '\n' ∉ row.dropLast := by
  rcases eq_chomp_or_of_mem_rows h with hrow | hrow
  · intro hmem
    rw [hrow] at hmem
    exact newline_notMem_chomp row (List.dropLast_subset _ hmem)
  · rw [hrow, List.dropLast_concat]
    exact newline_notMem_chomp row

theorem isSpace_of_isIndent {c : Char} (h : isIndent c = true) : isSpace c = true := by
  rcases (Bool.or_eq_true _ _).mp h with h | h <;> rw [beq_iff_eq.mp h] <;> rfl

theorem isBlank_of_isIndent {t : Text} (h : ∀ c ∈ t, isIndent c = true) : isBlank t = true :=
  List.all_eq_true.mpr fun c hc => isSpace_of_isIndent (h c hc)

/-! ## Numbers and offsets of rows -/

theorem count_newline_flatten {rs : List Text} (h : ∀ r ∈ rs, r = chomp r ++ ['\n']) :
    rs.flatten.count '\n' = rs.length := by
  induction rs with
  | nil => rfl
  | cons r rs ih =>
    obtain ⟨hr, hrs⟩ := List.forall_mem_cons.mp h
    have hcount : r.count '\n' = 1 := by
      rw [hr, List.count_append, List.count_eq_zero_of_not_mem (newline_notMem_chomp r)]
      rfl
    rw [List.flatten_cons, List.count_append, hcount, ih hrs, List.length_cons, Nat.add_comm]

/-- The number of a row is the number of newlines before it, and before any place on its line. -/
theorem count_newline_above {t row : Text} {above below : List Text}
    (h : rows t = above ++ row :: below) {k : Nat} (hk : k ≤ (chomp row).length) :
    (t.take (above.flatten.length + k)).count '\n' = above.length := by
  have hline : (row ++ below.flatten).take k = (chomp row).take k := by
    have hmem : row ∈ rows t := by simp [h]
    rcases eq_chomp_or_of_mem_rows hmem with hrow | hrow
    · rw [List.take_append_of_le_length (hrow ▸ hk), ← hrow]
    · rw [hrow, List.append_assoc, List.take_append_of_le_length hk, ← hrow]
  have hnone : ((chomp row).take k).count '\n' = 0 :=
    List.count_eq_zero_of_not_mem fun hm => newline_notMem_chomp row (List.mem_of_mem_take hm)
  rw [← flatten_rows t, h, List.flatten_append, List.flatten_cons, List.take_length_add_append,
    List.count_append, hline, hnone,
    count_newline_flatten (eq_chomp_append_of_above h (List.cons_ne_nil _ _)), Nat.add_zero]

/-- A row among rows of a text gives the line with its number. -/
theorem getElem?_lines {t row : Text} {above own below : List Text} {j : Nat}
    (h : rows t = above ++ (own ++ below)) (hrow : own[j]? = some row) :
    (lines t)[above.length + j]? = some (chomp row) := by
  have hown : (own ++ below)[j]? = some row :=
    List.getElem?_append_left (List.getElem?_eq_some_iff.mp hrow).1 ▸ hrow
  have hline : (rows t)[above.length + j]? = some row := by
    rw [h, List.getElem?_append_right (Nat.le_add_right _ _), Nat.add_sub_cancel_left, hown]
  have hlt : above.length + j < ((rows t).map chomp).length := by
    rw [List.length_map]
    exact (List.getElem?_eq_some_iff.mp hline).1
  rw [lines_eq, List.getElem?_append_left hlt, List.getElem?_map, hline]
  rfl

theorem count_newline_le_length_rows (t : Text) : t.count '\n' ≤ (rows t).length := by
  have hlength := length_lines t
  rw [length_lines_eq] at hlength
  split at hlength <;> omega

theorem lineStartsFrom_lines (pos : Nat) (t : Text) {line : Nat} (h : line ≤ t.count '\n') :
    (lineStartsFrom pos (lines t))[line]? = some (pos + ((rows t).take line).flatten.length) := by
  induction t using byLines generalizing pos line with
  | last l hl =>
    rw [List.count_eq_zero_of_not_mem hl, Nat.le_zero] at h
    subst h
    rw [lines_of_notMem hl]
    rfl
  | line l t hl ih =>
    rw [List.count_append, List.count_eq_zero_of_not_mem hl, Nat.zero_add,
      List.count_cons_self] at h
    rw [lines_append_newline hl, rows_append_newline hl, lineStartsFrom]
    cases line with
    | zero => rfl
    | succ line =>
      rw [List.getElem?_cons_succ, ih _ (Nat.le_of_succ_le_succ h), List.take_succ_cons,
        List.flatten_cons, List.length_append, List.length_append, Nat.add_assoc pos,
        Nat.add_assoc pos]
      rfl

/-- A line that a newline goes before, or that is the first, starts behind the rows with a smaller
number. -/
theorem lineStarts_eq {t : Text} {line : Nat} (h : line ≤ t.count '\n') :
    (lineStarts t)[line]? = some ((rows t).take line).flatten.length := by
  rw [lineStarts, lineStartsFrom_lines 0 t h, Nat.zero_add]

/-- A line starts behind the rows above it. -/
theorem lineStarts_above {t row : Text} {above below : List Text}
    (h : rows t = above ++ row :: below) :
    (lineStarts t)[above.length]? = some above.flatten.length := by
  have hle : above.length ≤ t.count '\n' := by
    rw [← count_newline_above h (Nat.zero_le _)]
    exact (List.take_sublist _ t).count_le '\n'
  rw [lineStarts_eq hle, h, List.take_left]

/-! ## The two tables of lines -/

/-- Rows and offsets that agree on the lines of a text. The rows make up the text, none is empty, and a
newline is at most the last character of one. Each starts at the offset with its number. The offsets
ascend, and there is one more than there are newlines; there is one more than there are rows exactly if
the text is empty or ends with a newline. -/
structure Tabulates (t : Text) (rs : List Text) (starts : List Nat) : Prop where
  flatten : rs.flatten = t
  newline : ∀ r ∈ rs, r ≠ [] ∧ '\n' ∉ r.dropLast
  start : ∀ k < rs.length, starts[k]? = some (rs.take k).flatten.length
  increasing : starts.Pairwise (· < ·)
  length : starts.length = t.count '\n' + 1
  surplus : starts.length = rs.length + 1 ↔ t = [] ∨ t.getLast? = some '\n'

theorem length_lineStartsFrom (pos : Nat) (ls : List Text) :
    (lineStartsFrom pos ls).length = ls.length := by
  induction ls generalizing pos with
  | nil => rfl
  | cons l ls ih => rw [lineStartsFrom, List.length_cons, List.length_cons, ih]

theorem le_of_mem_lineStartsFrom {pos start : Nat} {ls : List Text}
    (h : start ∈ lineStartsFrom pos ls) : pos ≤ start := by
  induction ls generalizing pos with
  | nil => cases h
  | cons l ls ih =>
    rcases List.mem_cons.mp h with rfl | h
    · exact Nat.le_refl _
    · have := ih h
      omega

theorem pairwise_lineStartsFrom (pos : Nat) (ls : List Text) :
    (lineStartsFrom pos ls).Pairwise (· < ·) := by
  induction ls generalizing pos with
  | nil => exact .nil
  | cons l ls ih =>
    refine .cons (fun start hstart => ?_) (ih _)
    have := le_of_mem_lineStartsFrom hstart
    omega

/-- The rows of a text and the offsets of its lines agree. -/
theorem tabulates_rows (t : Text) : Tabulates t (rows t) (lineStarts t) := by
  have hlength : (lineStarts t).length = (lines t).length := length_lineStartsFrom 0 (lines t)
  have hrows := length_lines_eq t
  constructor
  case flatten => exact flatten_rows t
  case newline => exact fun r hr => ⟨ne_nil_of_mem_rows hr, newline_notMem_dropLast hr⟩
  case start =>
    intro k hk
    apply lineStarts_eq
    rw [length_lines] at hrows
    omega
  case increasing => exact pairwise_lineStartsFrom 0 (lines t)
  case length => rw [hlength, length_lines]
  case surplus =>
    rw [hlength, hrows]
    split <;> simp [*]

example :
    rows ['\n', '\n', 'a', '\n'] = [['\n'], ['\n'], ['a', '\n']] ∧
      lineStarts ['\n', '\n', 'a', '\n'] = [0, 1, 2, 4] := by decide

end SourceIndex.Text
