import SourceIndex.Proofs.Chunking.Degradation
import SourceIndex.Proofs.Chunking.Parts
import SourceIndex.Proofs.Chunking.Quotation
import SourceIndex.Proofs.Text.Spacing
import Mathlib.Data.List.SplitBy

/-!
# Paragraphs

The paragraphs of a text are its maximal runs of lines that are no fillers (`runs`): lines of spaces
and tabs alone are fillers, lines of other white space are not. A text is cut at its fillers, but
the first line of a text and one without a newline at its end go with the run next to them even if
they are fillers; trimming takes them off again (`exists_runs_paragraphs`). Prose that is cut into
paragraphs within budget therefore has one chunk for each run that is not blank, and the filter
drops none of these (`Chunker.exists_chunks_of_runs`).
-/

namespace SourceIndex.Chunking

open Text

/-- A row of spaces and tabs alone, with or without a newline. -/
def isFiller (row : Text) : Bool :=
  (chomp row).all isIndent

/-- The maximal runs of rows that are no fillers, where the first row is at an offset. -/
def runsFrom (pos : Nat) (rs : List Text) : List Excerpt :=
  (Excerpt.consecutive pos (rs.splitBy fun a b => isFiller a == isFiller b)).filter
    fun e => !e.rows.all isFiller

/-- The maximal runs of lines of a text that are no fillers. -/
def runs (t : Text) : List Excerpt :=
  runsFrom 0 (rows t)

/-- Excerpts are the maximal runs of rows that are no fillers, where the first row is at an
offset. -/
inductive Runs : Nat → List Text → List Excerpt → Prop
  | nil {pos : Nat} : Runs pos [] []
  | filler {pos : Nat} : isFiller row = true → Runs (pos + row.length) rs es →
      Runs pos (row :: rs) es
  | run {pos : Nat} : own ≠ [] → (∀ row ∈ own, isFiller row = false) →
      rs.head?.all isFiller = true → Runs (pos + own.flatten.length) rs es →
      Runs pos (own ++ rs) (⟨pos, own⟩ :: es)

/-- What trimming leaves of an excerpt, without an origin, a number, a flag or a kind. -/
def Excerpt.chunk? (e : Excerpt) : Option Chunk :=
  (trim? e.text).map fun trimmed =>
    { content := trimmed.content, offset := e.start + trimmed.skipped
      origin := none, order := none, oversized := false, kind := none }

variable {pos : Nat} {rs rs' own : List Text} {es es' : List Excerpt} {row : Text} {e : Excerpt}

/-! ## Fillers -/

theorem isFiller_of_isGap (h : isGap row = true) : isFiller row = true := by
  have hrow : row.takeWhile isIndent ++ ['\n'] = row := by
    conv_rhs => rw [← List.takeWhile_append_dropWhile (p := isIndent) (l := row), beq_iff_eq.mp h]
  have hline : '\n' ∉ row.takeWhile isIndent := fun hmem => by
    have := List.mem_takeWhile_imp hmem
    nomatch this
  rw [isFiller, ← hrow, chomp_append_newline hline]
  exact List.all_takeWhile

/-- A filler that ends with a newline separates paragraphs. -/
theorem isGap_of_isFiller (h : isFiller row = true) (hrow : row = chomp row ++ ['\n']) :
    isGap row = true := by
  rw [isGap, hrow, List.dropWhile_append_of_pos (List.all_eq_true.mp h)]
  rfl

theorem AreRows.isBlank_of_isFiller (h : AreRows rs) (hrow : row ∈ rs)
    (hfiller : isFiller row = true) : isBlank row = true := by
  rw [← h.isBlank_chomp row hrow]
  exact isBlank_of_isIndent (List.all_eq_true.mp hfiller)

theorem AreRows.of_append (h : AreRows (rs ++ rs')) : AreRows rs ∧ AreRows rs' :=
  rows_flatten_of_append h

theorem AreRows.tail (h : AreRows (row :: rs)) : AreRows rs := by
  rw [← List.singleton_append] at h
  exact h.of_append.2

/-! ## Runs -/

namespace Runs

theorem of_fillers {fillers : List Text} (h : ∀ row ∈ fillers, isFiller row = true)
    (hruns : Runs (pos + fillers.flatten.length) rs es) : Runs pos (fillers ++ rs) es := by
  induction fillers generalizing pos with
  | nil => exact hruns
  | cons row fillers ih =>
    obtain ⟨hrow, hfillers⟩ := List.forall_mem_cons.mp h
    refine .filler hrow (ih hfillers ?_)
    rwa [List.flatten_cons, List.length_append, ← Nat.add_assoc] at hruns

/-- Runs above a filler and below it have nothing to do with each other. -/
theorem append (h : Runs pos rs es) (hrow : isFiller row = true)
    (h' : Runs (pos + rs.flatten.length + row.length) rs' es') :
    Runs pos (rs ++ row :: rs') (es ++ es') := by
  induction h with
  | nil => exact .filler hrow h'
  | filler hfiller _ ih =>
    refine .filler hfiller (ih ?_)
    rwa [List.flatten_cons, List.length_append, ← Nat.add_assoc] at h'
  | @run own rs es pos hne hown hhead _ ih =>
    rw [List.append_assoc]
    refine .run hne hown ?_ (ih ?_)
    · cases rs with
      | nil => exact hrow
      | cons => exact hhead
    · rwa [List.flatten_append, List.length_append, ← Nat.add_assoc] at h'

/-- A run that ends at a filler is what stands above the first filler. -/
theorem takeWhile_append (hown : ∀ row ∈ own, isFiller row = false)
    (hhead : rs.head?.all isFiller = true) :
    (own ++ rs).takeWhile (fun r => !isFiller r) = own := by
  have hrs : rs.takeWhile (fun r => !isFiller r) = [] := by
    cases rs with
    | nil => rfl
    | cons row rs => exact List.takeWhile_cons_of_neg (by simpa using hhead)
  rw [List.takeWhile_append_of_pos fun row hrow => by rw [hown row hrow]; rfl, hrs, List.append_nil]

/-- Rows have their runs in one way only. -/
theorem unique (h : Runs pos rs es) (h' : Runs pos rs es') : es = es' := by
  induction h generalizing es' with
  | @nil pos =>
    generalize hrows : ([] : List Text) = rs at h'
    cases h' with
    | nil => rfl
    | filler => nomatch hrows
    | run hne => exact absurd (List.append_eq_nil_iff.mp hrows.symm).1 hne
  | @filler row rs es pos hrow _ ih =>
    generalize hrows : row :: rs = rs' at h'
    cases h' with
    | nil => nomatch hrows
    | filler _ h' =>
      obtain ⟨rfl, rfl⟩ := List.cons_eq_cons.mp hrows
      exact ih h'
    | @run own _ _ _ hne hown =>
      obtain ⟨first, own, rfl⟩ := List.exists_cons_of_ne_nil hne
      obtain ⟨rfl, -⟩ := List.cons_eq_cons.mp hrows
      rw [hown _ List.mem_cons_self] at hrow
      nomatch hrow
  | @run own rs es pos hne hown hhead _ ih =>
    generalize hrows : own ++ rs = rs' at h'
    cases h' with
    | nil => exact absurd (List.append_eq_nil_iff.mp hrows).1 hne
    | filler hrow =>
      obtain ⟨first, own, rfl⟩ := List.exists_cons_of_ne_nil hne
      obtain ⟨rfl, -⟩ := List.cons_eq_cons.mp hrows
      rw [hown _ List.mem_cons_self] at hrow
      nomatch hrow
    | @run own' rs' es' _ _ hown' hhead' h' =>
      have hsame : own = own' := by
        rw [← takeWhile_append hown hhead, hrows, takeWhile_append hown' hhead']
      subst hsame
      rw [ih (List.append_cancel_left hrows ▸ h')]

end Runs

/-- Rows next to each other that are alike are all fillers, or none of them is. -/
theorem exists_isFiller_eq {g : List Text}
    (h : g.IsChain fun a b => (isFiller a == isFiller b) = true) :
    ∃ b, ∀ row ∈ g, isFiller row = b := by
  induction g with
  | nil => exact ⟨true, nofun⟩
  | cons row g ih =>
    obtain ⟨b, hb⟩ := ih h.tail
    refine ⟨isFiller row, List.forall_mem_cons.mpr ⟨rfl, fun r hr => ?_⟩⟩
    cases g with
    | nil => nomatch hr
    | cons next g =>
      have hnext := beq_iff_eq.mp (List.isChain_cons_cons.mp h).1
      rw [hb r hr, hnext, hb next List.mem_cons_self]

/-- Of groups that are alike within and differ from the next, those without fillers are the runs. -/
theorem runs_consecutive (pos : Nat) {gs : List (List Text)} (hne : [] ∉ gs)
    (hsame : ∀ g ∈ gs, ∃ b, ∀ row ∈ g, isFiller row = b)
    (hdiff : gs.IsChain fun g g' => ∃ hg hg',
      (isFiller (g.getLast hg) == isFiller (g'.head hg')) = false) :
    Runs pos gs.flatten ((Excerpt.consecutive pos gs).filter fun e => !e.rows.all isFiller) := by
  induction gs generalizing pos with
  | nil => exact .nil
  | cons g gs ih =>
    obtain ⟨hg, hgs⟩ := not_or.mp fun hmem => hne (List.mem_cons.mpr hmem)
    obtain ⟨⟨b, hb⟩, hsame⟩ := List.forall_mem_cons.mp hsame
    have hruns := ih (pos + g.flatten.length) hgs hsame hdiff.tail
    rw [Excerpt.consecutive, List.flatten_cons]
    cases b with
    | true =>
      rw [List.filter_cons_of_neg (by simpa using hb)]
      exact .of_fillers hb hruns
    | false =>
      obtain ⟨first, rest, hfirst⟩ := List.exists_cons_of_ne_nil (Ne.symm hg)
      have hfirst' : isFiller first = false := hb first (hfirst ▸ List.mem_cons_self)
      rw [List.filter_cons_of_pos (by simp [hfirst, hfirst'])]
      refine .run (Ne.symm hg) hb ?_ hruns
      cases gs with
      | nil => rfl
      | cons g' gs =>
        obtain ⟨⟨hlast, hnext, hne'⟩, -⟩ := List.isChain_cons_cons.mp hdiff
        obtain ⟨next, rest', rfl⟩ := List.exists_cons_of_ne_nil hnext
        rw [hb _ (List.getLast_mem hlast)] at hne'
        simpa using hne'

theorem runs_runsFrom (pos : Nat) (rs : List Text) : Runs pos rs (runsFrom pos rs) := by
  have hruns := runs_consecutive pos
    (List.nil_notMem_splitBy (fun a b => isFiller a == isFiller b) rs)
    (fun g hg => exists_isFiller_eq (List.isChain_of_mem_splitBy hg))
    (List.isChain_getLast_head_splitBy (fun a b => isFiller a == isFiller b) rs)
  rwa [List.flatten_splitBy] at hruns

/-! ## Trimming -/

/-- A blank row above others is trimmed off. -/
theorem chunk?_cons_of_blank (h : AreRows (row :: rs)) (hrow : isBlank row = true) :
    (⟨pos, row :: rs⟩ : Excerpt).chunk? = (⟨pos + row.length, rs⟩ : Excerpt).chunk? := by
  have hkept : trimLines (row :: rs) = trimLines rs := by
    rw [trimLines, trimLines, List.dropWhile_cons_of_pos hrow]
  rw [Excerpt.chunk?, Excerpt.chunk?, Excerpt.text, Excerpt.text, h.trim?_flatten,
    h.tail.trim?_flatten, keptLines, keptLines, sharedOf, sharedOf, hkept,
    List.takeWhile_cons_of_pos hrow, List.flatten_cons, List.length_append]
  split
  · rfl
  · simp only [Option.map_some, Nat.add_assoc]

/-- A blank row below others is trimmed off. -/
theorem chunk?_concat_of_blank (h : AreRows (rs ++ [row])) (hrow : isBlank row = true) :
    (⟨pos, rs ++ [row]⟩ : Excerpt).chunk? = (⟨pos, rs⟩ : Excerpt).chunk? := by
  have hkept : trimLines (rs ++ [row]) = trimLines rs :=
    trimLines_append_of_blank (List.forall_mem_singleton.mpr hrow)
  rw [Excerpt.chunk?, Excerpt.chunk?, Excerpt.text, Excerpt.text, h.trim?_flatten,
    h.of_append.1.trim?_flatten, keptLines, keptLines, sharedOf, sharedOf, hkept]
  split
  · rfl
  · rename_i hne
    have habove : (rs ++ [row]).takeWhile isBlank = rs.takeWhile isBlank := by
      rw [List.takeWhile_append, if_neg]
      intro hlength
      refine hne (trimLines_eq_nil_iff.mpr (List.takeWhile_eq_self_iff.mp ?_))
      exact (List.takeWhile_prefix isBlank).eq_of_length hlength
    rw [habove]

theorem chunk?_eq_none_iff (h : AreRows e.rows) : e.chunk? = none ↔ isBlank e.text = true := by
  have hblank : isBlank e.text = true ↔ trimLines e.rows = [] := by
    simp only [trimLines_eq_nil_iff, isBlank, Excerpt.text, List.all_eq_true, List.mem_flatten]
    refine ⟨fun hc row hrow c hmem => hc c ⟨row, hrow, hmem⟩, fun hrows c hc => ?_⟩
    obtain ⟨row, hrow, hmem⟩ := hc
    exact hrows row hrow c hmem
  rw [hblank, Excerpt.chunk?, Excerpt.text, h.trim?_flatten, Option.map_eq_none_iff]
  simp

theorem filterMap_chunk?_singleton {e e' : Excerpt} (h : e.chunk? = e'.chunk?) :
    [e].filterMap Excerpt.chunk? = [e'].filterMap Excerpt.chunk? := by
  rw [List.filterMap_cons, List.filterMap_cons, h]

/-- Rows of which at most the last is a filler are one paragraph, which is their run. -/
theorem exists_runs_of_solid (pos : Nat) {last : List Text} (h : AreRows (own ++ last))
    (hown : ∀ row ∈ own, isFiller row = false)
    (hlast : last = [] ∨ ∃ row, last = [row] ∧ isFiller row = true) :
    ∃ es, Runs pos (own ++ last) es ∧
      [(⟨pos, own ++ last⟩ : Excerpt)].filterMap Excerpt.chunk? = es.filterMap Excerpt.chunk? := by
  have hruns : ∀ p, Runs p last [] := by
    intro p
    rcases hlast with rfl | ⟨row, rfl, hrow⟩
    · exact .nil
    · exact .filler hrow .nil
  have hhead : last.head?.all isFiller = true := by
    rcases hlast with rfl | ⟨row, rfl, hrow⟩
    · rfl
    · exact hrow
  have hchunk : (⟨pos, own ++ last⟩ : Excerpt).chunk? = (⟨pos, own⟩ : Excerpt).chunk? := by
    rcases hlast with rfl | ⟨row, rfl, hrow⟩
    · rw [List.append_nil]
    · refine chunk?_concat_of_blank h (h.isBlank_of_isFiller ?_ hrow)
      exact List.mem_append_right own List.mem_cons_self
  by_cases hne : own = []
  · subst hne
    refine ⟨[], hruns pos, ?_⟩
    rw [filterMap_chunk?_singleton hchunk]
    rfl
  · exact ⟨[⟨pos, own⟩], .run hne hown hhead (hruns _), filterMap_chunk?_singleton hchunk⟩

/-- Rows without a gap have a filler at their end only. -/
theorem exists_solid (h : AreRows rs) (hgaps : ∀ r ∈ rs, isGap r = false) :
    ∃ own last, rs = own ++ last ∧ (∀ row ∈ own, isFiller row = false) ∧
      (last = [] ∨ ∃ row, last = [row] ∧ isFiller row = true) := by
  rcases rs.eq_nil_or_concat with rfl | ⟨above, row, rfl⟩
  · exact ⟨[], [], rfl, nofun, .inl rfl⟩
  rw [List.concat_eq_append] at h hgaps ⊢
  have habove : ∀ r ∈ above, isFiller r = false := by
    refine fun r hr => Bool.eq_false_iff.mpr fun hfiller => ?_
    have hrow := eq_chomp_append_of_above h (List.cons_ne_nil row []) r hr
    have hgap := isGap_of_isFiller hfiller hrow
    rw [hgaps r (List.mem_append_left _ hr)] at hgap
    nomatch hgap
  cases hrow : isFiller row with
  | true => exact ⟨above, [row], rfl, habove, .inr ⟨row, rfl, hrow⟩⟩
  | false =>
    refine ⟨above ++ [row], [], (List.append_nil _).symm, ?_, .inl rfl⟩
    exact List.forall_mem_append.mpr ⟨habove, List.forall_mem_singleton.mpr hrow⟩

/-- Rows without a gap below the first are one paragraph, and their run is what it leaves when it is
trimmed. -/
theorem exists_runs_of_body (pos : Nat) (h : AreRows (row :: rs))
    (hgaps : ∀ r ∈ rs, isGap r = false) :
    ∃ es, Runs pos (row :: rs) es ∧
      [(⟨pos, row :: rs⟩ : Excerpt)].filterMap Excerpt.chunk? = es.filterMap Excerpt.chunk? := by
  obtain ⟨own, last, rfl, hown, hlast⟩ := exists_solid h.tail hgaps
  cases hrow : isFiller row with
  | true =>
    obtain ⟨es, hruns, hchunks⟩ := exists_runs_of_solid (pos + row.length) h.tail hown hlast
    refine ⟨es, .filler hrow hruns, ?_⟩
    rw [← hchunks]
    exact filterMap_chunk?_singleton
      (chunk?_cons_of_blank h (h.isBlank_of_isFiller List.mem_cons_self hrow))
  | false =>
    rw [← List.cons_append] at h ⊢
    exact exists_runs_of_solid pos h (List.forall_mem_cons.mpr ⟨hrow, hown⟩) hlast

/-- Paragraphs and runs leave the same when they are trimmed. -/
theorem exists_runs_paragraphs (pos : Nat) (h : AreRows rs) :
    ∃ es, Runs pos rs es ∧
      (paragraphs pos rs).filterMap Excerpt.chunk? = es.filterMap Excerpt.chunk? := by
  fun_induction paragraphs pos rs with
  | case1 pos => exact ⟨[], .nil, rfl⟩
  | case2 pos row rows body hrest =>
    have hgaps : ∀ r ∈ rows, isGap r = false := by simpa using hrest
    have hbody : body = row :: rows := by
      rw [List.cons.injEq, ← List.append_nil (rows.takeWhile _), ← hrest]
      exact ⟨rfl, List.takeWhile_append_dropWhile⟩
    rw [hbody]
    exact exists_runs_of_body pos h hgaps
  | case3 pos row rows body gap rest hrest gaps ih =>
    have hgap : isGap gap = true := by
      have := List.head?_dropWhile_not (fun r => !isGap r) rows
      rw [hrest] at this
      simpa using this
    have hrows : row :: rows = body ++ (gap :: (rest.takeWhile isGap ++ rest.dropWhile isGap)) := by
      rw [List.cons_append, List.takeWhile_append_dropWhile, ← hrest,
        List.takeWhile_append_dropWhile]
    rw [hrows] at h ⊢
    obtain ⟨hbody, hbelow⟩ := h.of_append
    obtain ⟨es, hruns, hchunks⟩ := exists_runs_of_body pos hbody fun r hr => by
      simpa using List.mem_takeWhile_imp hr
    obtain ⟨es', hruns', hchunks'⟩ := ih hbelow.tail.of_append.2
    refine ⟨es ++ es', hruns.append (isFiller_of_isGap hgap) (.of_fillers (fun r hr => ?_) ?_), ?_⟩
    · exact isFiller_of_isGap (List.mem_takeWhile_imp hr)
    · have hgaps : gaps.flatten.length = gap.length + (rest.takeWhile isGap).flatten.length :=
        List.length_append
      rwa [hgaps, ← Nat.add_assoc] at hruns'
    · rw [List.filterMap_append, ← hchunks, ← hchunks', ← List.filterMap_append]
      rfl

theorem Runs.areRows (h : Runs pos rs es) (hrs : AreRows rs) : ∀ e ∈ es, AreRows e.rows := by
  induction h with
  | nil => nofun
  | filler _ _ ih => exact ih hrs.tail
  | run _ _ _ _ ih => exact List.forall_mem_cons.mpr ⟨hrs.of_append.1, ih hrs.of_append.2⟩

theorem Excerpt.IsOf.isBlank {t : Text} (h : e.IsOf t) (hblank : Text.isBlank t = true) :
    Text.isBlank e.text = true := by
  obtain ⟨above, below, hrows, -⟩ := h
  refine List.all_eq_true.mpr fun c hc => List.all_eq_true.mp hblank c ?_
  rw [← flatten_rows t, hrows, List.flatten_append, List.flatten_append]
  exact List.mem_append_right _ (List.mem_append_left _ hc)

theorem areRows_rows (t : Text) : AreRows (rows t) := by
  rw [AreRows, flatten_rows]

/-- The paragraphs of a text and its runs leave the same when they are trimmed. -/
theorem filterMap_chunk?_paragraphs (t : Text) :
    (paragraphs 0 (rows t)).filterMap Excerpt.chunk? = (runs t).filterMap Excerpt.chunk? := by
  obtain ⟨es, hruns, hchunks⟩ := exists_runs_paragraphs 0 (areRows_rows t)
  rw [hchunks, hruns.unique (runs_runsFrom 0 (rows t)), runs]

/-- Each excerpt that is not blank leaves a chunk. -/
theorem forall₂_chunk? (h : ∀ e ∈ es, AreRows e.rows) :
    List.Forall₂ (fun e k => Excerpt.chunk? e = some k) (es.filter fun e => !isBlank e.text)
      (es.filterMap Excerpt.chunk?) := by
  induction es with
  | nil => exact .nil
  | cons e es ih =>
    obtain ⟨he, hes⟩ := List.forall_mem_cons.mp h
    have hnone := chunk?_eq_none_iff he
    cases hk : e.chunk? with
    | none =>
      rw [List.filterMap_cons_none hk, List.filter_cons_of_neg (by simp [hnone.mp hk])]
      exact ih hes
    | some k =>
      have hblank : isBlank e.text ≠ true := fun hblank => by
        rw [hnone.mpr hblank] at hk
        nomatch hk
      rw [List.filterMap_cons_some hk, List.filter_cons_of_pos (by simpa using hblank)]
      exact .cons hk (ih hes)

/-! ## Prose -/

theorem isClosing_prose (line : Text) : isClosing .prose line = false := by
  rw [isClosing]
  rfl

theorem isInsignificant_prose {content line : Text} (hline : (lines content).head? = some line)
    (hblank : isBlank line = false) : isInsignificant .prose content = false := by
  obtain ⟨rest, hlines⟩ := List.head?_eq_some_iff.mp hline
  have hempty : (trim line).isEmpty = false := by
    simp [trim_eq_nil_iff, hblank]
  have hscan : scanLine .prose none (trim line) = none := by
    rw [scanLine, hempty, isClosing_prose]
    rfl
  rw [isInsignificant, hlines, scanLines, hscan]

/-- Nothing is dropped from prose. -/
theorem chunk?_prose (filter : Bool) {t : Text} (h : e.IsOf t) :
    Candidate.chunk? .prose filter { excerpt := e } = e.chunk? := by
  rw [Excerpt.chunk?]
  cases htrim : trim? e.text with
  | none => rw [Candidate.chunk?, htrim]; rfl
  | some trimmed =>
    obtain ⟨above, below, hrows, hstart⟩ := h
    have hchunk : Candidate.chunk? .prose false { excerpt := e } = some _ :=
      chunk?_eq_some_iff.mpr ⟨trimmed, htrim, rfl, rfl⟩
    have hmade := madeOf_of_chunk? hrows hstart hchunk
    obtain ⟨line, rest, hlines⟩ := List.exists_cons_of_ne_nil (lines_ne_nil trimmed.content)
    have hfirst := (hmade.quotes.first line (by rw [hlines]; rfl)).1
    refine chunk?_eq_some_iff.mpr ⟨trimmed, htrim, ?_, rfl⟩
    rw [isInsignificant_prose (by rw [hlines]; rfl) hfirst, Bool.and_false]

/-- What is made of prose without an origin is what trimming leaves of it. -/
theorem finalize_prose (filter : Bool) {t : Text} (h : ∀ e ∈ es, e.IsOf t) :
    finalize .prose filter (es.map fun e => { excerpt := e }) = es.filterMap Excerpt.chunk? := by
  have hchunks : (es.map fun e => { excerpt := e }).filterMap (Candidate.chunk? .prose filter) =
      es.filterMap Excerpt.chunk? := by
    rw [List.filterMap_map]
    exact List.filterMap_congr fun e he => chunk?_prose filter (h e he)
  rw [finalize_eq_numberFrom, hchunks]
  refine numberFrom_of_origin_eq_none fun k hk => ?_
  obtain ⟨e, -, hk⟩ := List.mem_filterMap.mp hk
  obtain ⟨trimmed, -, rfl⟩ := Option.map_eq_some_iff.mp hk
  rfl

/-- The candidates of excerpts within budget are these excerpts. -/
theorem candidates_of_within {budget : Nat} {label : String}
    {outs : List (List (Text × Nat) × List Candidate)} {estimator : Token.Estimator}
    (houts : List.Forall₂ (fun e out => (excerptPlan budget label none e).Gives out.1 out.2) es
      outs)
    (hread : outs.flatMap Prod.fst = estimator.read ((outs.flatMap Prod.fst).map Prod.fst))
    (hwithin : ∀ r ∈ estimator.read (es.map Excerpt.text), r.2 ≤ budget) :
    outs.flatMap Prod.snd = es.map fun e => { excerpt := e } := by
  induction houts generalizing estimator with
  | nil => rfl
  | @cons e out es outs hgives _ ih =>
    obtain ⟨n, rest, hout, hcs⟩ := gives_excerptPlan.mp hgives
    rw [List.flatMap_cons, hout, List.cons_append, List.map_cons, Token.Estimator.read] at hread
    obtain ⟨hn, hread⟩ := List.cons_eq_cons.mp hread
    rw [List.map_cons, Token.Estimator.read] at hwithin
    obtain ⟨hle, hwithin⟩ := List.forall_mem_cons.mp hwithin
    rw [if_pos ((Prod.mk.inj hn).2 ▸ hle)] at hcs
    obtain ⟨rfl, hcs⟩ := hcs
    rw [List.flatMap_cons, List.map_cons, hcs, ih hread hwithin]
    rfl

namespace Chunker

/-- The texts of the paragraphs of a text that are measured, in order. A filler at the start of the
text is measured together with the run below it, and one without a newline with the run above it. -/
def paragraphTexts (t : Text) : List Text :=
  ((paragraphs 0 (rows t)).filter fun e => !isBlank e.text).map Excerpt.text

variable {c : Chunker} {doc : Document} {signal : Option Signal} {budget fit : Nat}
  {ks : List Chunk}

theorem eq_filterMap_paragraphs (hprose : Language.isProse doc.language = true)
    (hcut : c.fitsWhole doc = false)
    (hbudgets : budgets c.estimator.contextLength = .ok (budget, fit))
    (hwithin : ∀ r ∈ (c.estimator.measure doc.text).2.2.read (paragraphTexts doc.text),
      r.2 ≤ budget) (h : (c.chunk doc signal).result = .ok ks) :
    ks = (paragraphs 0 (rows doc.text)).filterMap Excerpt.chunk? := by
  have hof : ∀ e ∈ paragraphs 0 (rows doc.text), e.IsOf doc.text :=
    (Excerpt.isOf_whole doc.text).of_tiling (tiling_paragraphs 0 (rows doc.text))
  have hnone : ∀ e ∈ paragraphs 0 (rows doc.text), isBlank e.text = true → e.chunk? = none :=
    fun e he => (chunk?_eq_none_iff (hof e he).areRows).mpr
  cases hblank : isBlank doc.text with
  | true =>
    obtain ⟨cs, rfl, hgives⟩ := exists_candidates h
    rw [gives_candidatePlan, if_pos hblank] at hgives
    rw [hgives.2, List.filterMap_eq_nil_iff.mpr fun e he => hnone e he ((hof e he).isBlank hblank)]
    rfl
  | false =>
    obtain ⟨_, _, cs, hbudgets', rfl, hcs⟩ := exists_candidates_of_ne_blank h hblank
    rw [hbudgets, Except.ok.injEq, Prod.mk.injEq] at hbudgets'
    obtain ⟨rfl, rfl⟩ := hbudgets'
    rw [hcut, if_neg Bool.false_ne_true] at hcs
    obtain ⟨rest, hreadings, hgives⟩ := hcs
    have hrest : rest = (c.estimator.measure doc.text).2.2.read (rest.map Prod.fst) := by
      have hread := Plan.readings_trace (c.plan doc) ⟨c.estimator, signal⟩
      rw [← trace, hreadings] at hread
      exact (List.cons_eq_cons.mp hread).2
    rw [gives_cutPlan, if_pos hprose] at hgives
    obtain ⟨outs, houts, rfl, rfl⟩ :=
      exists_outs_of_collect (paragraphs 0 (rows doc.text)) (fun e => ⟨"paragraph", none, e⟩) hgives
    rw [candidates_of_within (List.forall₂_map_left_iff.mp houts) hrest hwithin,
      Language.commentSyntax, if_pos hprose,
      finalize_prose c.filter fun e he => hof e (List.mem_filter.mp he).1, List.filterMap_filter]
    refine List.filterMap_congr fun e he => ?_
    cases hempty : isBlank e.text with
    | true => exact (hnone e he hempty).symm
    | false => rfl

/-- Prose that does not fit whole, with all its paragraphs within budget, has a chunk for each of
its maximal runs of lines that are no fillers, unless the run is blank: what trimming leaves of the
run, with no metadata. Whether the filter is on makes no difference. -/
theorem exists_chunks_of_runs (c : Chunker) (doc : Document) (signal : Option Signal)
    {budget fit : Nat} (hprose : Language.isProse doc.language = true)
    (hcut : c.fitsWhole doc = false)
    (hbudgets : budgets c.estimator.contextLength = .ok (budget, fit))
    (hwithin : ∀ r ∈ (c.estimator.measure doc.text).2.2.read (paragraphTexts doc.text),
      r.2 ≤ budget) :
    (∃ ks, (c.chunk doc signal).result = .ok ks ∧
      List.Forall₂ (fun e k => Excerpt.chunk? e = some k)
        ((runs doc.text).filter fun e => !isBlank e.text) ks) ∨
    ¬Plan.Setting.IsSilent ⟨c.estimator, signal⟩ ∧
      (c.chunk doc signal).result = .error .cancelled ∧
      ∃ raised, (c.chunk doc signal).signal = some raised ∧ raised.raised = true := by
  by_cases hcancelled : (c.chunk doc signal).result = .error .cancelled
  · have hstops : ¬(isBlank doc.text = false ∧ ∃ cause,
        budgets c.estimator.contextLength = .error cause ∧ Stop.cancelled = .budget cause) :=
      fun ⟨_, _, _, hstop⟩ => nomatch hstop
    exact .inr ⟨(c.orderly_plan doc).not_isSilent_of_cancelled hstops hcancelled, hcancelled,
      (c.orderly_plan doc).raised_of_cancelled hstops hcancelled⟩
  · obtain ⟨ks, hks⟩ | ⟨-, _, herror, -⟩ := exists_chunks hcancelled
    · refine .inl ⟨ks, hks, ?_⟩
      rw [eq_filterMap_paragraphs hprose hcut hbudgets hwithin hks, filterMap_chunk?_paragraphs]
      exact forall₂_chunk? ((runs_runsFrom 0 (rows doc.text)).areRows (areRows_rows doc.text))
    · rw [hbudgets] at herror
      nomatch herror

/-- Prose that starts with empty lines, has a no-break space on a line between its two paragraphs,
and ends with spaces. -/
def spaced : Document where
  text := [' ', '\n', '\n', 'a', '\n', 'b', '\n', '\t', '\n', '\u00a0', '\n', '\n', ' ', ' ', 'c',
    '\n', ' ', ' ']
  language := some "markdown"

/-- The two paragraphs are the chunks, and the no-break space is none. -/
theorem exists_chunks_of_runs_spaced :
    ∃ ks, ((ofTokenizer 10 .characters []).chunk spaced none).result = .ok ks ∧
      ks.map (fun k => (k.content, k.offset)) = [(['a', '\n', 'b'], 3), (['c'], 14)] ∧
      List.Forall₂ (fun e k => Excerpt.chunk? e = some k)
        ((runs spaced.text).filter fun e => !isBlank e.text) ks := by
  have hbudgets : budgets (ofTokenizer 10 .characters []).estimator.contextLength = .ok (8, 9) := by
    decide +kernel
  have hchunks := exists_chunks_of_runs (ofTokenizer 10 .characters []) spaced none
    (by decide +kernel) (by decide +kernel) hbudgets (by decide +kernel)
  obtain ⟨ks, hks, hruns⟩ := hchunks.resolve_right fun hcancelled => hcancelled.1 (.inl rfl)
  have htold : ((ofTokenizer 10 .characters []).chunk spaced none).result.toOption.map
      (·.map fun k => (k.content, k.offset)) = some [(['a', '\n', 'b'], 3), (['c'], 14)] := by
    decide +kernel
  rw [hks] at htold
  exact ⟨ks, hks, Option.some.inj htold, hruns⟩

end Chunker

end SourceIndex.Chunking
