import SourceIndex.Proofs.Chunking.Rechunk
import SourceIndex.Proofs.Text.Newline

/-! # What trimming leaves

Trimming leaves the lines from the first to the last that is not blank, without the longest indentation
that those of them share which are not blank (`isLongestStart_sharedStart`). It tells where the first
character of what is left stands in the text (`drop_foldl_ofLines`), nothing is left of a text if all
its lines are blank, and what is left is not changed by trimming it once more (`trimAt?_isDedent`). -/

namespace SourceIndex.Chunking

open Text

/-- The longest text that all of some texts start with. -/
structure IsLongestStart (start : Text) (ts : List Text) : Prop where
  common : ∀ t ∈ ts, start <+: t
  longest : ∀ start', (∀ t ∈ ts, start' <+: t) → start' <+: start

/-- What is left of a line that loses shared indentation. A blank line that lacks it loses its own. -/
structure IsShortened (common line left : Text) : Prop where
  shared : isBlank line = false ∨ common <+: line → line = common ++ left
  own : isBlank line = true → ¬common <+: line → line = indent line ++ left

/-- What is left of a text: of its lines those in `kept`, from the first to the last that is not blank,
each without the longest indentation that they share, which is `common`. It starts at a position in the
text, and its own lines share no indentation. -/
structure IsDedent (t content : Text) (position : Nat) (above kept below : List Text)
    (common : Text) : Prop where
  lines : Text.lines t = above ++ (kept ++ below)
  blank : ∀ l ∈ above ++ below, isBlank l = true
  first : ∃ l, kept.head? = some l ∧ isBlank l = false
  last : ∃ l, kept.getLast? = some l ∧ isBlank l = false
  shared : IsLongestStart common ((kept.filter fun l => !isBlank l).map indent)
  shortened : List.Forall₂ (IsShortened common) kept (Text.lines content)
  start : ∃ start, (lineStarts t)[above.length]? = some start ∧ position = start + common.length
  found : ∃ l, (Text.lines content).head? = some l ∧ l ≠ [] ∧ l <+: t.drop position
  dedented : ∀ c, isIndent c = true → ∃ l ∈ Text.lines content, isBlank l = false ∧ l.head? ≠ some c

/-- Trims a text that stands at an offset, and tells the offset of what is left. -/
def trimAt? (t : Text) (offset : Int) : Option (Text × Int) :=
  (trim? t).map fun trimmed => (trimmed.content, offset + trimmed.skipped)

/-! ## Shared indentation -/

theorem isPrefix_commonStart {start s t : Text} (hs : start <+: s) (ht : start <+: t) :
    start <+: commonStart s t := by
  induction start generalizing s t with
  | nil => exact List.nil_prefix
  | cons a start ih =>
    obtain ⟨s, rfl⟩ := hs
    obtain ⟨t, rfl⟩ := ht
    rw [List.cons_append, List.cons_append, commonStart, if_pos rfl, List.prefix_cons_inj]
    exact ih (List.prefix_append _ _) (List.prefix_append _ _)

theorem isLongestStart_sharedStart {ts : List Text} (hne : ts ≠ []) :
    IsLongestStart (sharedStart ts) ts := by
  refine ⟨fun _ => sharedStart_isPrefix, fun start hstart => ?_⟩
  induction ts with
  | nil => exact absurd rfl hne
  | cons t ts ih =>
    obtain ⟨ht, hts⟩ := List.forall_mem_cons.mp hstart
    cases ts with
    | nil => exact ht
    | cons t' ts => exact isPrefix_commonStart ht (ih (List.cons_ne_nil t' ts) hts)

theorem IsLongestStart.exists_head?_ne {ts : List Text} (h : IsLongestStart [] ts) (c : Char) :
    ∃ t ∈ ts, t.head? ≠ some c := by
  by_contra hall
  push Not at hall
  have hprefix : [c] <+: [] := h.longest [c] fun t ht => by
    obtain ⟨rest, rfl⟩ := List.head?_eq_some_iff.mp (hall t ht)
    exact List.prefix_append [c] rest
  cases List.prefix_nil.mp hprefix

theorem isShortened_unindent (ls : List Text) {l : Text} (hl : l ∈ ls) :
    IsShortened (sharedIndent ls) l (unindent (sharedIndent ls) l) := by
  obtain ⟨gone, -, heq, hshared⟩ := exists_unindent ls l
  constructor
  · intro hstarts
    have hprefix : sharedIndent ls <+: l := hstarts.elim (sharedIndent_isPrefix hl) id
    conv_lhs => rw [heq, hshared hprefix]
  · intro _ hnot
    rw [unindent, isPrefixOf?_eq_none_iff.mpr hnot]
    exact List.takeWhile_append_dropWhile.symm

/-! ## Positions -/

theorem lineStartsFrom_append (position : Nat) (above : List Text) (l : Text) (below : List Text) :
    (lineStartsFrom position (above ++ l :: below))[above.length]? =
      some (above.foldl (fun n line => n + line.length + 1) position) := by
  induction above generalizing position with
  | nil => rfl
  | cons l' above ih => exact ih _

/-- Behind a text and the lines that follow it with their newlines stands the next line. -/
theorem drop_foldl_ofLines (front : Text) (above : List Text) (l : Text) (below : List Text) :
    (front ++ ofLines (above ++ l :: below)).drop
      (above.foldl (fun n line => n + line.length + 1) front.length) = ofLines (l :: below) := by
  induction above generalizing front with
  | nil => exact List.drop_left
  | cons l' above ih =>
    have hne : above ++ l :: below ≠ [] := List.append_ne_nil_of_right_ne_nil _ (List.cons_ne_nil _ _)
    have hlength : front.length + l'.length + 1 = (front ++ l' ++ ['\n']).length := by
      simp [Nat.add_assoc]
    have hfront : front ++ ofLines (l' :: (above ++ l :: below)) =
        front ++ l' ++ ['\n'] ++ ofLines (above ++ l :: below) := by
      rw [ofLines_cons l' hne]
      simp
    rw [List.cons_append, List.foldl_cons, hlength, hfront]
    exact ih _

theorem isPrefix_ofLines (l : Text) (below : List Text) : l <+: ofLines (l :: below) := by
  cases below with
  | nil => exact List.prefix_rfl
  | cons => exact List.prefix_append l _

/-- The rest of a line stands behind the lines above it and the start of the line. -/
theorem isPrefix_drop_of_lines {t gone left : Text} {above below : List Text}
    (h : lines t = above ++ (gone ++ left) :: below) :
    left <+: t.drop (above.foldl (fun n line => n + line.length + 1) 0 + gone.length) := by
  obtain ⟨tail, htail⟩ := isPrefix_ofLines (gone ++ left) below
  have hdrop := drop_foldl_ofLines [] above (gone ++ left) below
  rw [List.nil_append, List.length_nil, ← h, ofLines_lines] at hdrop
  rw [← List.drop_drop, hdrop, ← htail, List.append_assoc, List.drop_left]
  exact List.prefix_append left tail

/-! ## Trimmed texts -/

variable {t : Text} {trimmed : Trimmed}

theorem trim?_eq_none_iff : trim? t = none ↔ ∀ l ∈ lines t, isBlank l = true := by
  rw [← trimLines_eq_nil_iff, trim?]
  split
  next hnil => exact iff_of_true rfl hnil
  next hne => exact iff_of_false (Option.some_ne_none _) hne

theorem eq_of_trim? (h : trim? t = some trimmed) :
    trimLines (lines t) ≠ [] ∧
    trimmed.content =
      ofLines ((trimLines (lines t)).map (unindent (sharedIndent (trimLines (lines t))))) ∧
    trimmed.skipped = ((lines t).takeWhile isBlank).foldl (fun n l => n + l.length + 1) 0 +
      (sharedIndent (trimLines (lines t))).length := by
  rw [trim?] at h
  split at h
  next => cases h
  next hne =>
    cases h
    exact ⟨hne, rfl, rfl⟩

theorem isLongestStart_sharedIndent {ls : List Text} {l : Text} (hl : l ∈ ls)
    (hblank : isBlank l = false) :
    IsLongestStart (sharedIndent ls) ((ls.filter fun l => !isBlank l).map indent) := by
  apply isLongestStart_sharedStart
  intro hnil
  have hmem : l ∈ ls.filter fun l => !isBlank l := List.mem_filter.mpr ⟨hl, by rw [hblank]; rfl⟩
  rw [List.map_eq_nil_iff.mp hnil] at hmem
  cases hmem

theorem head?_indent {l : Text} {c : Char} (hc : isIndent c = true) (h : l.head? = some c) :
    (indent l).head? = some c := by
  obtain ⟨l, rfl⟩ := List.head?_eq_some_iff.mp h
  rw [indent, List.takeWhile_cons_of_pos hc, List.head?_cons]

/-- Lines that share no indentation do not all start with the same blank. -/
theorem exists_head?_ne_of_sharedIndent {ls : List Text} {l : Text} (hl : l ∈ ls)
    (hblank : isBlank l = false) (hshared : sharedIndent ls = []) {c : Char} (hc : isIndent c = true) :
    ∃ l ∈ ls, isBlank l = false ∧ l.head? ≠ some c := by
  obtain ⟨_, hindent, hhead⟩ := (hshared ▸ isLongestStart_sharedIndent hl hblank).exists_head?_ne c
  obtain ⟨l', hl', rfl⟩ := List.mem_map.mp hindent
  obtain ⟨hmem, hblank'⟩ := List.mem_filter.mp hl'
  exact ⟨l', hmem, (Bool.not_eq_true' _).mp hblank', fun h => hhead (head?_indent hc h)⟩

theorem lines_of_trim? (h : trim? t = some trimmed) :
    lines trimmed.content =
      (trimLines (lines t)).map (unindent (sharedIndent (trimLines (lines t)))) := by
  obtain ⟨hne, hcontent, -⟩ := eq_of_trim? h
  rw [hcontent]
  refine lines_ofLines (by simpa using hne) fun left hleft hnewline => ?_
  obtain ⟨l, hl, rfl⟩ := List.mem_map.mp hleft
  have hmem : l ∈ lines t := by
    rw [eq_trimLines (lines t)]
    exact List.mem_append_right _ (List.mem_append_left _ hl)
  exact newline_notMem_of_mem_lines hmem ((unindent_sublist _ l).subset hnewline)

theorem isDedent_of_trim? (h : trim? t = some trimmed) :
    ∃ above kept below common, IsDedent t trimmed.content trimmed.skipped above kept below common := by
  obtain ⟨hne, -, hskipped⟩ := eq_of_trim? h
  have hlines := eq_trimLines (lines t)
  have habove : ∀ l ∈ (lines t).takeWhile isBlank, isBlank l = true :=
    fun _ => List.mem_takeWhile_imp
  have hbelow : ∀ l ∈ ((lines t).dropWhile isBlank).rtakeWhile isBlank, isBlank l = true :=
    fun _ => List.mem_rtakeWhile_imp
  have hfirst : ∀ l, (trimLines (lines t)).head? = some l → isBlank l = false :=
    fun _ => isBlank_head?_trimLines
  have hlast := isBlank_getLast?_trimLines (List.getLast?_eq_some_getLast hne)
  have hlines' := lines_of_trim? h
  -- From here on only what is known of the lines above, those that are kept and those below matters.
  generalize trimLines (lines t) = kept at *
  generalize (lines t).takeWhile isBlank = above at *
  generalize ((lines t).dropWhile isBlank).rtakeWhile isBlank = below at *
  obtain ⟨l, rest, rfl⟩ := List.exists_cons_of_ne_nil hne
  have hl : isBlank l = false := hfirst l rfl
  have hleft : isBlank (unindent (sharedIndent (l :: rest)) l) = false := by
    rw [isBlank_unindent, hl]
  refine ⟨above, l :: rest, below, sharedIndent (l :: rest), hlines, ?_, ⟨l, rfl, hl⟩,
    ⟨_, List.getLast?_eq_some_getLast hne, hlast⟩, isLongestStart_sharedIndent List.mem_cons_self hl,
    ?_, ?_, ?_, ?_⟩
  · exact List.forall_mem_append.mpr ⟨habove, hbelow⟩
  · rw [hlines', List.forall₂_map_right_iff, List.forall₂_same]
    exact fun l' hl' => isShortened_unindent _ hl'
  · refine ⟨_, ?_, hskipped⟩
    rw [lineStarts, hlines]
    exact lineStartsFrom_append 0 above l (rest ++ below)
  · refine ⟨unindent (sharedIndent (l :: rest)) l, by rw [hlines']; rfl, ?_, ?_⟩
    · intro hnil
      rw [hnil] at hleft
      cases hleft
    · have hsplit : lines t = above ++ (sharedIndent (l :: rest) ++
          unindent (sharedIndent (l :: rest)) l) :: (rest ++ below) := by
        rw [← eq_sharedIndent_append List.mem_cons_self hl]
        exact hlines
      rw [hskipped]
      exact isPrefix_drop_of_lines hsplit
  · intro c hc
    rw [hlines']
    exact exists_head?_ne_of_sharedIndent (List.mem_map_of_mem List.mem_cons_self) hleft
      (sharedIndent_map_unindent _) hc

/-- The chunk of a candidate is what is left of its excerpt. -/
theorem trimAt?_of_chunk? {s : CommentSyntax} {filter : Bool} {c : Candidate} {k : Chunk}
    (h : c.chunk? s filter = some k) :
    trimAt? c.excerpt.text c.excerpt.start = some (k.content, (k.offset : Int)) := by
  obtain ⟨trimmed, htrim, -, rfl⟩ := chunk?_eq_some_iff.mp h
  rw [trimAt?, htrim, Option.map_some, Int.natCast_add]

/-- Nothing is left of a text if and only if all its lines are blank; otherwise the lines from the first
to the last that is not blank are, without the longest indentation they share, together with the offset
where that starts. What is left is left as it is, wherever it stands. -/
theorem trimAt?_isDedent (t : Text) (offset : Int) :
    (trimAt? t offset = none ↔ ∀ l ∈ lines t, isBlank l = true) ∧
    ∀ content start, trimAt? t offset = some (content, start) →
      (∃ (position : Nat) (above kept below : List Text) (common : Text),
        start = offset + position ∧ IsDedent t content position above kept below common) ∧
      ∀ offset', trimAt? content offset' = some (content, offset') := by
  constructor
  · rw [trimAt?, Option.map_eq_none_iff, trim?_eq_none_iff]
  · intro content start h
    obtain ⟨trimmed, htrim, heq⟩ := Option.map_eq_some_iff.mp h
    cases heq
    obtain ⟨above, kept, below, common, hdedent⟩ := isDedent_of_trim? htrim
    refine ⟨⟨trimmed.skipped, above, kept, below, common, rfl, hdedent⟩, fun offset' => ?_⟩
    simp [trimAt?, trim?_content htrim]

/-- A text with blank lines at its edges and between its lines, one of them with blanks that are no
indentation, and with tabs before spaces. -/
def indented : Text :=
  ['\u00a0', '\n', '\t', ' ', ' ', 'a', '\n', ' ', '\n', '\t', ' ', '\u2003', '\n', '\t', ' ', 'b', '\n']

/-- What is left of it. -/
def dedented : Text :=
  [' ', 'a', '\n', '\n', '\u2003', '\n', 'b']

theorem trimAt?_isDedent_indented :
    trimAt? indented 7 = some (dedented, 11) ∧
      (∃ (position : Nat) (above kept below : List Text) (common : Text),
        (11 : Int) = 7 + position ∧ IsDedent indented dedented position above kept below common) ∧
      trimAt? dedented (-3) = some (dedented, -3) := by
  have h : trimAt? indented 7 = some (dedented, 11) := by decide +kernel
  obtain ⟨hdedent, hagain⟩ := (trimAt?_isDedent indented 7).2 dedented 11 h
  exact ⟨h, hdedent, hagain (-3)⟩

end SourceIndex.Chunking
