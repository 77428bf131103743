import SourceIndex.Chunking.Trim
import SourceIndex.Proofs.Text.Rows
import Mathlib.Data.List.DropRight

/-! # Trimming

Of rows, trimming keeps those from the first to the last that is not blank (`eq_trimLines`,
`trim?_flatten`), and from each of these takes white space at its start: the shared indentation from
every row that is not blank (`exists_unindent`, `sharedIndent_isPrefix`). -/

namespace SourceIndex.Chunking

open Text

/-! ## Blank edges -/

theorem trimLines_eq_rdropWhile (ls : List Text) :
    trimLines ls = (ls.dropWhile isBlank).rdropWhile isBlank := rfl

/-- Lines are those that trimming keeps, with the ones above and below them. -/
theorem eq_trimLines (ls : List Text) :
    ls = ls.takeWhile isBlank ++ (trimLines ls ++ (ls.dropWhile isBlank).rtakeWhile isBlank) := by
  rw [trimLines_eq_rdropWhile, List.rdropWhile_append_rtakeWhile, List.takeWhile_append_dropWhile]

theorem trimLines_eq_nil_iff {ls : List Text} : trimLines ls = [] ↔ ∀ l ∈ ls, isBlank l = true := by
  rw [trimLines_eq_rdropWhile, List.rdropWhile_eq_nil_iff]
  constructor
  · intro h l hl
    rw [← List.takeWhile_append_dropWhile (p := isBlank) (l := ls), List.mem_append] at hl
    rcases hl with hl | hl
    · exact List.mem_takeWhile_imp hl
    · exact h l hl
  · exact fun h l hl => h l (List.dropWhile_suffix _ |>.subset hl)

theorem isBlank_head?_trimLines {ls : List Text} {l : Text} (h : (trimLines ls).head? = some l) :
    isBlank l = false := by
  have hkept : ((ls.dropWhile isBlank).rdropWhile isBlank) <+: ls.dropWhile isBlank :=
    List.rdropWhile_prefix _ _
  obtain ⟨rest, hrest⟩ := hkept
  have hhead : (ls.dropWhile isBlank).head? = some l := by
    rw [← hrest, List.head?_append, ← trimLines_eq_rdropWhile, h]
    rfl
  have := List.head?_dropWhile_not isBlank ls
  rw [hhead] at this
  simpa using this

theorem isBlank_getLast?_trimLines {ls : List Text} {l : Text}
    (h : (trimLines ls).getLast? = some l) : isBlank l = false := by
  have hne : trimLines ls ≠ [] := fun hnil => by rw [hnil] at h; cases h
  have hlast := List.rdropWhile_last_not isBlank (ls.dropWhile isBlank) hne
  rw [List.getLast?_eq_some_getLast hne, Option.some.injEq] at h
  exact h ▸ Bool.eq_false_iff.mpr hlast

theorem dropWhile_map_isBlank {f : Text → Text} {ls : List Text}
    (h : ∀ l ∈ ls, isBlank (f l) = isBlank l) :
    (ls.map f).dropWhile isBlank = (ls.dropWhile isBlank).map f := by
  induction ls with
  | nil => rfl
  | cons l ls ih =>
    obtain ⟨hl, hls⟩ := List.forall_mem_cons.mp h
    rw [List.map_cons, List.dropWhile_cons, List.dropWhile_cons, hl]
    split
    · exact ih hls
    · rfl

theorem trimLines_map {f : Text → Text} {ls : List Text}
    (h : ∀ l ∈ ls, isBlank (f l) = isBlank l) : trimLines (ls.map f) = (trimLines ls).map f := by
  have hrest : ∀ l ∈ (ls.dropWhile isBlank).reverse, isBlank (f l) = isBlank l := fun l hl =>
    h l ((List.dropWhile_suffix _).subset (List.mem_reverse.mp hl))
  rw [trimLines, dropWhile_map_isBlank h, ← List.map_reverse, dropWhile_map_isBlank hrest,
    ← List.map_reverse, trimLines]

theorem trimLines_append_of_blank {ls below : List Text} (h : ∀ l ∈ below, isBlank l = true) :
    trimLines (ls ++ below) = trimLines ls := by
  rw [trimLines, List.dropWhile_append]
  split
  · rename_i hnil
    rw [trimLines, List.isEmpty_iff.mp hnil, List.dropWhile_eq_nil_iff.mpr h]
  · rw [List.reverse_append, List.dropWhile_append_of_pos fun l hl => h l (List.mem_reverse.mp hl),
      trimLines]

/-! ## Indentation -/

theorem commonStart_isPrefix (s t : Text) : commonStart s t <+: s ∧ commonStart s t <+: t := by
  induction s generalizing t with
  | nil => exact ⟨List.prefix_rfl, List.nil_prefix⟩
  | cons a s ih =>
    cases t with
    | nil => exact ⟨List.nil_prefix, List.prefix_rfl⟩
    | cons b t =>
      rw [commonStart]
      split
      · rename_i hab
        subst hab
        exact ⟨(List.prefix_cons_inj a).mpr (ih t).1, (List.prefix_cons_inj a).mpr (ih t).2⟩
      · exact ⟨List.nil_prefix, List.nil_prefix⟩

theorem sharedStart_isPrefix {ts : List Text} {t : Text} (h : t ∈ ts) : sharedStart ts <+: t := by
  induction ts with
  | nil => exact absurd h List.not_mem_nil
  | cons s ts ih =>
    cases ts with
    | nil => rw [List.mem_singleton.mp h]; exact List.prefix_rfl
    | cons s' ts =>
      rw [sharedStart]
      · obtain ⟨hs, hts⟩ := commonStart_isPrefix s (sharedStart (s' :: ts))
        rcases List.mem_cons.mp h with rfl | h
        · exact hs
        · exact hts.trans (ih h)
      · exact List.cons_ne_nil s' ts

theorem sharedIndent_isPrefix {ls : List Text} {l : Text} (h : l ∈ ls) (hl : isBlank l = false) :
    sharedIndent ls <+: l := by
  have hmem : indent l ∈ (ls.filter fun line => !isBlank line).map indent :=
    List.mem_map_of_mem (List.mem_filter.mpr ⟨h, by rw [hl]; rfl⟩)
  exact (sharedStart_isPrefix hmem).trans (List.takeWhile_prefix _)

theorem isIndent_of_mem_sharedIndent {ls : List Text} {c : Char} (h : c ∈ sharedIndent ls) :
    isIndent c = true := by
  rw [sharedIndent] at h
  generalize hts : (ls.filter fun line => !isBlank line).map indent = ts at h
  cases ts with
  | nil => exact absurd h List.not_mem_nil
  | cons t ts =>
    have hmem : t ∈ (ls.filter fun line => !isBlank line).map indent := hts ▸ List.mem_cons_self
    obtain ⟨l, -, rfl⟩ := List.mem_map.mp hmem
    exact List.mem_takeWhile_imp ((sharedStart_isPrefix List.mem_cons_self).subset h)

theorem isPrefixOf?_eq_some_iff {s t rest : Text} :
    s.isPrefixOf? t = some rest ↔ t = s ++ rest := by
  induction s generalizing t with
  | nil => simp [List.isPrefixOf?, eq_comm]
  | cons a s ih =>
    cases t with
    | nil => simp [List.isPrefixOf?]
    | cons b t =>
      rw [List.isPrefixOf?, List.cons_append, List.cons.injEq]
      split
      · rename_i hab
        rw [ih, beq_iff_eq.mp hab]
        exact (and_iff_right rfl).symm
      · rename_i hab
        exact ⟨nofun, fun h => absurd (beq_iff_eq.mpr h.1.symm) hab⟩

theorem isPrefixOf?_eq_none_iff {s t : Text} : s.isPrefixOf? t = none ↔ ¬s <+: t := by
  rw [Option.eq_none_iff_forall_ne_some]
  simp only [ne_eq, isPrefixOf?_eq_some_iff]
  exact ⟨fun h ⟨rest, hrest⟩ => h rest hrest.symm, fun h rest hrest => h ⟨rest, hrest.symm⟩⟩

/-- What goes from a line is white space, and the shared indentation itself if the line starts with
it. -/
theorem exists_unindent (ls : List Text) (l : Text) :
    ∃ gone, (∀ c ∈ gone, isIndent c = true) ∧ l = gone ++ unindent (sharedIndent ls) l ∧
      (sharedIndent ls <+: l → gone = sharedIndent ls) := by
  rw [unindent]
  split
  · rename_i rest hrest
    exact ⟨sharedIndent ls, fun _ => isIndent_of_mem_sharedIndent,
      isPrefixOf?_eq_some_iff.mp hrest, fun _ => rfl⟩
  · rename_i hnone
    refine ⟨l.takeWhile isIndent, fun c hc => List.mem_takeWhile_imp hc,
      List.takeWhile_append_dropWhile.symm, ?_⟩
    rintro ⟨rest, hrest⟩
    rw [isPrefixOf?_eq_some_iff.mpr hrest.symm] at hnone
    cases hnone

theorem unindent_sublist (ls : List Text) (l : Text) :
    (unindent (sharedIndent ls) l).Sublist l := by
  obtain ⟨gone, -, heq, -⟩ := exists_unindent ls l
  conv_rhs => rw [heq]
  exact List.sublist_append_right gone _

/-! ## Trimming texts -/

/-- Trimming only takes characters away. -/
theorem content_sublist_of_trim? {t : Text} {trimmed : Trimmed} (h : trim? t = some trimmed) :
    trimmed.content.Sublist t := by
  have hcontent : trimmed.content =
      ofLines ((trimLines (lines t)).map (unindent (sharedIndent (trimLines (lines t))))) := by
    rw [trim?] at h
    split at h
    · cases h
    · exact congrArg Trimmed.content (Option.some.inj h).symm
  rw [hcontent]
  conv_rhs => rw [← ofLines_lines t]
  refine ofLines_sublist (List.sublistForall₂_iff.mpr ⟨trimLines (lines t), ?_, ?_⟩)
  · rw [List.forall₂_map_left_iff, List.forall₂_same]
    exact fun l _ => unindent_sublist _ l
  · conv_rhs => rw [eq_trimLines (lines t)]
    exact (List.sublist_append_left _ _).trans (List.sublist_append_right _ _)

/-! ## Trimming rows -/

/-- Rows that make up a text by themselves. -/
def AreRows (es : List Text) : Prop :=
  rows es.flatten = es

variable {es : List Text}

theorem AreRows.isBlank_chomp (h : AreRows es) : ∀ r ∈ es, isBlank (chomp r) = isBlank r :=
  fun _ hr => Text.isBlank_chomp (h.symm ▸ hr)

theorem AreRows.trimLines_lines (h : AreRows es) :
    trimLines (lines es.flatten) = (trimLines es).map chomp := by
  have hrest : ∀ l ∈ (if es.flatten.getLast?.all (· == '\n') then [[]] else [] : List Text),
      isBlank l = true := by
    intro l hl
    split at hl
    · rw [List.mem_singleton.mp hl]; rfl
    · exact absurd hl List.not_mem_nil
  rw [lines_eq, trimLines_append_of_blank hrest, h, trimLines_map h.isBlank_chomp]

/-- The rows above the first that is not blank end with newlines. -/
theorem AreRows.eq_chomp_of_mem_takeWhile (h : AreRows es) (hne : trimLines es ≠ []) :
    ∀ r ∈ es.takeWhile isBlank, r = chomp r ++ ['\n'] := by
  refine eq_chomp_append_of_above (h.trans (eq_trimLines es)) ?_
  exact List.append_ne_nil_of_left_ne_nil hne _

theorem foldl_length_add_one {rs : List Text} (h : ∀ r ∈ rs, r = chomp r ++ ['\n']) (n : Nat) :
    (rs.map chomp).foldl (fun n line => n + line.length + 1) n = n + rs.flatten.length := by
  induction rs generalizing n with
  | nil => rfl
  | cons r rs ih =>
    obtain ⟨hr, hrs⟩ := List.forall_mem_cons.mp h
    have hlen : r.length = (chomp r).length + 1 := by
      conv_lhs => rw [hr]
      exact List.length_append
    rw [List.map_cons, List.foldl_cons, ih hrs, List.flatten_cons, List.length_append, hlen]
    omega

theorem AreRows.takeWhile_lines (h : AreRows es) (hne : trimLines es ≠ []) :
    (lines es.flatten).takeWhile isBlank = (es.takeWhile isBlank).map chomp := by
  obtain ⟨row, kept, hkept⟩ := List.exists_cons_of_ne_nil hne
  have hrow : isBlank (chomp row) = false := by
    have hmem : row ∈ es := by rw [eq_trimLines es, hkept]; simp
    rw [h.isBlank_chomp row hmem, isBlank_head?_trimLines (by rw [hkept]; rfl)]
  have hblank : ∀ l ∈ (es.takeWhile isBlank).map chomp, isBlank l = true := by
    intro l hl
    obtain ⟨r, hr, rfl⟩ := List.mem_map.mp hl
    rw [h.isBlank_chomp r ((List.takeWhile_prefix _).subset hr)]
    exact List.mem_takeWhile_imp hr
  have hes : es.map chomp = (es.takeWhile isBlank).map chomp ++ chomp row ::
      (kept.map chomp ++ ((es.dropWhile isBlank).rtakeWhile isBlank).map chomp) := by
    conv_lhs => rw [eq_trimLines es, hkept]
    simp only [List.map_append, List.map_cons, List.cons_append]
  have hnot : ¬isBlank (chomp row) = true := by rw [hrow]; nofun
  rw [lines_eq, h, hes, List.append_assoc, List.cons_append, List.takeWhile_append_of_pos hblank,
    List.takeWhile_cons_of_neg hnot, List.append_nil]

/-- What the rows that trimming keeps have in common at their start. -/
def sharedOf (es : List Text) : Text :=
  sharedIndent ((trimLines es).map chomp)

/-- The lines that trimming makes of rows. -/
def keptLines (es : List Text) : List Text :=
  ((trimLines es).map chomp).map (unindent (sharedOf es))

theorem AreRows.trim?_flatten (h : AreRows es) :
    trim? es.flatten =
      if trimLines es = [] then none
      else some ⟨ofLines (keptLines es),
        (es.takeWhile isBlank).flatten.length + (sharedOf es).length⟩ := by
  rw [trim?, h.trimLines_lines]
  split
  · rename_i hnil
    rw [if_pos (List.map_eq_nil_iff.mp hnil)]
  · rename_i hne
    have hne : trimLines es ≠ [] := fun hnil => hne (by rw [hnil]; rfl)
    rw [if_neg hne, h.takeWhile_lines hne, foldl_length_add_one (h.eq_chomp_of_mem_takeWhile hne),
      Nat.zero_add]
    rfl

theorem lines_ofLines_keptLines (hne : trimLines es ≠ []) :
    lines (ofLines (keptLines es)) = keptLines es := by
  refine lines_ofLines (by simpa [keptLines] using hne) fun l hl hnl => ?_
  obtain ⟨row, -, rfl⟩ := by simpa [keptLines] using hl
  obtain ⟨gone, -, hgone, -⟩ := exists_unindent ((trimLines es).map chomp) (chomp row)
  exact newline_notMem_chomp row (hgone ▸ List.mem_append_right _ hnl)

end SourceIndex.Chunking
