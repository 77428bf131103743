import SourceIndex.Proofs.Chunking.Outcome
import Mathlib.Algebra.GroupWithZero.Nat

/-! # Chunks and the token budget

What a run measures falls into pieces (`Piece`): excerpts that are cut further, excerpts that are
kept, and the rows of a split that go together. Each chunk is made from one of these, in order, and
is flagged if it is a single row over budget, and only then (`Chunk.CutFrom`). The greedy grouping
of rows keeps the budget (`exists_sizes_groupFrom`), so do the plans (`accounts_cutPlan`), and so
does a run, whatever the tokenizer answers (`Chunker.exists_pieces`). If sizes add up and do not
grow by trimming, chunks that are not flagged are within budget themselves. -/

namespace SourceIndex.Chunking

open Text

/-- What a run measured together: an excerpt that was cut further, or one that was kept, with its
size, or consecutive rows of a split, with the size of each. -/
inductive Piece where
  | cut (e : Excerpt) (size : Nat)
  | whole (e : Excerpt) (size : Nat)
  | fragment (start : Nat) (rows : List (Text × Nat))

namespace Piece

/-- The texts that were measured, with their sizes. -/
def readings : Piece → List (Text × Nat)
  | cut e size | whole e size => [(e.text, size)]
  | fragment _ rows => rows

/-- Where a piece is in the text. -/
def excerpt : Piece → Excerpt
  | cut e _ | whole e _ => e
  | fragment start rows => ⟨start, rows.map Prod.fst⟩

/-- A piece makes something under a budget, flagged if it is a single row over budget, and only
then; what is not flagged is no larger than the budget. -/
def Makes (budget : Nat) : Piece → Bool → Prop
  | cut _ _, _ => False
  | whole _ size, flag => flag = false ∧ size ≤ budget
  | fragment _ rows, flag =>
    (flag = true ↔ ∃ row size, rows = [(row, size)] ∧ budget < size) ∧
      (flag = false → (rows.map Prod.snd).sum ≤ budget)

end Piece

/-- A chunk is what trimming leaves of a piece, and its flag tells whether it is over budget. -/
def Chunk.CutFrom (budget : Nat) (k : Chunk) (piece : Piece) : Prop :=
  piece.Makes budget k.oversized ∧
    ∃ skipped, trim? piece.excerpt.text = some ⟨k.content, skipped⟩ ∧
      k.offset = piece.excerpt.start + skipped

variable {budget : Nat} {rs rs' : List (Text × Nat)} {cs cs' : List Candidate}

/-! ## Groups -/

/-- The sizes of the rows of a group. -/
def Group.HasSizes (budget : Nat) (g : Group) (sizes : List (Text × Nat)) : Prop :=
  g.rows = sizes.map Prod.fst ∧ ∀ start, (Piece.fragment start sizes).Makes budget g.oversized

theorem exists_sizes_close {gathered : List (Text × Nat)}
    (h : (gathered.map Prod.snd).sum ≤ budget) :
    ∃ parts : List (List (Text × Nat)), parts.flatten = gathered ∧
      List.Forall₂ (Group.HasSizes budget) (Group.close (gathered.map Prod.fst)) parts := by
  cases gathered with
  | nil => exact ⟨[], rfl, .nil⟩
  | cons r gathered =>
    refine ⟨[r :: gathered], by simp, .cons ⟨rfl, fun _ => ⟨⟨nofun, ?_⟩, fun _ => h⟩⟩ .nil⟩
    rintro ⟨row, size, hsizes, hlt⟩
    rw [hsizes] at h
    simp only [List.map_cons, List.map_nil, List.sum_singleton] at h
    omega

/-- Grouping keeps the budget: its invariant is that the rows gathered so far are within it. -/
theorem exists_sizes_groupFrom (rows gathered : List (Text × Nat))
    (h : (gathered.map Prod.snd).sum ≤ budget) :
    ∃ parts : List (List (Text × Nat)), parts.flatten = gathered ++ rows ∧
      List.Forall₂ (Group.HasSizes budget)
        (groupFrom budget (gathered.map Prod.fst) (gathered.map Prod.snd).sum rows) parts := by
  induction rows generalizing gathered with
  | nil =>
    rw [groupFrom, List.append_nil]
    exact exists_sizes_close h
  | cons r rows ih =>
    obtain ⟨row, size⟩ := r
    rw [groupFrom]
    split
    · rename_i hover
      obtain ⟨closed, hclosed, hgroups⟩ := exists_sizes_close h
      obtain ⟨parts, hparts, hrest⟩ := ih [] (Nat.zero_le budget)
      have hsingle : Group.HasSizes budget ⟨[row], true⟩ [(row, size)] :=
        ⟨rfl, fun _ => ⟨⟨fun _ => ⟨row, size, rfl, hover⟩, fun _ => rfl⟩, nofun⟩⟩
      refine ⟨closed ++ [(row, size)] :: parts, ?_, List.rel_append hgroups (.cons hsingle hrest)⟩
      rw [List.flatten_append, hclosed, List.flatten_cons, hparts]
      rfl
    · rename_i hfits
      split
      · obtain ⟨closed, hclosed, hgroups⟩ := exists_sizes_close h
        obtain ⟨parts, hparts, hrest⟩ := ih [(row, size)] (by simpa using Nat.le_of_not_lt hfits)
        refine ⟨closed ++ parts, ?_, List.rel_append hgroups (by simpa using hrest)⟩
        rw [List.flatten_append, hclosed, hparts]
        rfl
      · rename_i hsum
        obtain ⟨parts, hparts, hrest⟩ := ih (gathered ++ [(row, size)])
          (by simpa using Nat.le_of_not_lt hsum)
        exact ⟨parts, by simpa using hparts, by simpa using hrest⟩

/-! ## Plans -/

/-- What was measured falls into pieces, and each candidate is made of one of these, in order. -/
def Accounts (budget : Nat) (rs : List (Text × Nat)) (cs : List Candidate) : Prop :=
  ∃ pieces : List Piece, rs = pieces.flatMap Piece.readings ∧
    List.SublistForall₂ (fun c piece => c.excerpt = piece.excerpt ∧ piece.Makes budget c.oversized)
      cs pieces

theorem sublistForall₂_append {α β : Type} {R : α → β → Prop} {as as' : List α} {bs bs' : List β}
    (h : List.SublistForall₂ R as bs) (h' : List.SublistForall₂ R as' bs') :
    List.SublistForall₂ R (as ++ as') (bs ++ bs') := by
  rw [List.sublistForall₂_iff] at h h' ⊢
  obtain ⟨l, hl, hsub⟩ := h
  obtain ⟨l', hl', hsub'⟩ := h'
  exact ⟨l ++ l', List.rel_append hl hl', hsub.append hsub'⟩

namespace Accounts

theorem nil : Accounts budget [] [] :=
  ⟨[], rfl, .nil⟩

theorem append (h : Accounts budget rs cs) (h' : Accounts budget rs' cs') :
    Accounts budget (rs ++ rs') (cs ++ cs') := by
  obtain ⟨pieces, rfl, hpieces⟩ := h
  obtain ⟨pieces', rfl, hpieces'⟩ := h'
  exact ⟨pieces ++ pieces', List.flatMap_append.symm, sublistForall₂_append hpieces hpieces'⟩

/-- An excerpt that is measured and then cut makes nothing by itself. -/
theorem cut (e : Excerpt) (size : Nat) (h : Accounts budget rs cs) :
    Accounts budget ((e.text, size) :: rs) cs := by
  obtain ⟨pieces, rfl, hpieces⟩ := h
  exact ⟨.cut e size :: pieces, rfl, .cons_right hpieces⟩

theorem collect {plans : List (Plan (List Candidate))}
    (hplans : ∀ plan ∈ plans, ∀ rs cs, plan.Gives rs cs → Accounts budget rs cs)
    (h : (Plan.collect plans).Gives rs cs) : Accounts budget rs cs := by
  obtain ⟨outs, houts, rfl, rfl⟩ := Plan.gives_collect.mp h
  induction houts with
  | nil => exact .nil
  | cons hgives _ ih =>
    obtain ⟨hplan, hplans⟩ := List.forall_mem_cons.mp hplans
    exact (hplan _ _ hgives).append (ih hplans (Plan.gives_collect.mpr ⟨_, ‹_›, rfl, rfl⟩))

end Accounts

/-- The candidates of a split are made of fragments with the sizes of its rows. -/
theorem exists_fragments (origin : Option Origin) (kind : Option String) (start : Nat)
    {gs : List Group} {parts : List (List (Text × Nat))}
    (h : List.Forall₂ (Group.HasSizes budget) gs parts) :
    Accounts budget parts.flatten
      (List.zipWith (fun excerpt g => { excerpt, origin, oversized := g.oversized, kind })
        (Excerpt.consecutive start (gs.map Group.rows)) gs) := by
  induction h generalizing start with
  | nil => exact .nil
  | @cons g sizes gs parts hg _ ih =>
    obtain ⟨pieces, hpieces, hmakes⟩ := ih (start + g.rows.flatten.length)
    refine ⟨.fragment start sizes :: pieces, by rw [List.flatten_cons, hpieces]; rfl, ?_⟩
    exact .cons ⟨by rw [hg.1]; rfl, hg.2 start⟩ hmakes

theorem accounts_splitPlan {origin : Option Origin} {kind : Option String} {e : Excerpt}
    (h : (splitPlan budget origin kind e).Gives rs cs) : Accounts budget rs cs := by
  obtain ⟨-, rfl⟩ := gives_splitPlan.mp h
  obtain ⟨parts, hparts, hgroups⟩ := exists_sizes_groupFrom rs [] (Nat.zero_le budget)
  have haccounts := exists_fragments origin kind e.start hgroups
  rw [hparts, List.nil_append] at haccounts
  exact haccounts

theorem accounts_excerptPlan {label : String} {kind : Option String} {e : Excerpt}
    (h : (excerptPlan budget label kind e).Gives rs cs) : Accounts budget rs cs := by
  obtain ⟨n, rest, rfl, hcs⟩ := gives_excerptPlan.mp h
  split at hcs
  · rename_i hle
    obtain ⟨rfl, rfl⟩ := hcs
    exact ⟨[.whole e n], rfl, .cons ⟨rfl, rfl, hle⟩ .nil⟩
  · exact (accounts_splitPlan hcs).cut e n

/-- A segment or a paragraph is left out or kept as an excerpt. -/
theorem accounts_look {skip : Bool} {label : String} {kind : Option String} {e : Excerpt}
    (h : (Plan.look (if skip then .done [] else excerptPlan budget label kind e)).Gives rs cs) :
    Accounts budget rs cs := by
  rw [Plan.gives_look] at h
  cases skip with
  | true =>
    obtain ⟨rfl, rfl⟩ := Plan.gives_done.mp h
    exact .nil
  | false => exact accounts_excerptPlan h

theorem accounts_cutPlan {doc : Document} {bs : List Syntax.Breakpoint}
    (h : (cutPlan budget doc bs).Gives rs cs) : Accounts budget rs cs := by
  rw [gives_cutPlan] at h
  split at h
  · refine .collect ?_ h
    intro plan hplan rs cs hgives
    obtain ⟨e, -, rfl⟩ := List.mem_map.mp hplan
    exact accounts_look hgives
  · split at h
    · exact accounts_splitPlan h
    · refine .collect ?_ h
      intro plan hplan rs cs hgives
      obtain ⟨segment, -, rfl⟩ := List.mem_map.mp hplan
      exact accounts_look hgives

/-- A text that does not fit whole is measured first and then cut. -/
theorem accounts_candidatePlan {contextLength fit : Nat} {find : Document → List Syntax.Breakpoint}
    {doc : Document} (hbudgets : budgets contextLength = .ok (budget, fit))
    (hcut : ∀ n, (doc.text, n) ∈ rs.head? → fit < n)
    (h : (candidatePlan contextLength find doc).Gives rs cs) : Accounts budget rs cs := by
  rw [gives_candidatePlan] at h
  split at h
  · obtain ⟨rfl, rfl⟩ := h
    exact .nil
  · obtain ⟨budget', fit', hbudgets', n, rest, rfl, h⟩ := h
    rw [hbudgets, Except.ok.injEq, Prod.mk.injEq] at hbudgets'
    obtain ⟨rfl, rfl⟩ := hbudgets'
    rw [if_neg (Nat.not_le.mpr (hcut n rfl))] at h
    have hwhole := (accounts_cutPlan h).cut (.whole doc.text) n
    rw [Excerpt.text_whole] at hwhole
    exact hwhole

/-! ## Chunks -/

/-- Chunks are made of the same pieces as the candidates that they come from. -/
theorem sublistForall₂_chunks (s : CommentSyntax) (filter : Bool) {t : Text} {pieces : List Piece}
    (h : List.SublistForall₂
      (fun c piece => c.excerpt = piece.excerpt ∧ piece.Makes budget c.oversized) cs pieces)
    (hcs : ∀ c ∈ cs, c.excerpt.IsOf t) :
    List.SublistForall₂ (fun k piece => k.CutFrom budget piece ∧ piece.excerpt.IsOf t)
      (cs.filterMap (·.chunk? s filter)) pieces := by
  induction h with
  | nil => exact .nil
  | @cons c piece cs pieces hpiece _ ih =>
    obtain ⟨hc, hcs⟩ := List.forall_mem_cons.mp hcs
    cases hk : c.chunk? s filter with
    | none =>
      rw [List.filterMap_cons_none hk]
      exact .cons_right (ih hcs)
    | some k =>
      rw [List.filterMap_cons_some hk]
      obtain ⟨trimmed, htrim, -, rfl⟩ := chunk?_eq_some_iff.mp hk
      rw [hpiece.1] at htrim hc
      exact .cons ⟨⟨hpiece.2, trimmed.skipped, htrim, by rw [hpiece.1]⟩, hc⟩ (ih hcs)
  | cons_right _ ih => exact .cons_right (ih hcs)

/-- Sizes that add up: a text is no larger than its rows together. -/
theorem size_flatten_le {size : Text → Nat} (hadd : ∀ a b, size (a ++ b) ≤ size a + size b)
    {rows : List Text} (hne : rows ≠ []) : size rows.flatten ≤ (rows.map size).sum := by
  induction rows with
  | nil => exact absurd rfl hne
  | cons row rows ih =>
    cases rows with
    | nil => simp
    | cons row' rows =>
      calc size (row :: row' :: rows).flatten
          ≤ size row + size (row' :: rows).flatten := hadd _ _
        _ ≤ size row + ((row' :: rows).map size).sum :=
          Nat.add_le_add_left (ih (List.cons_ne_nil _ _)) _

/-- A chunk that is not flagged is within budget, if sizes add up and do not grow by trimming. -/
theorem Chunk.CutFrom.size_le {size : Text → Nat} {k : Chunk} {piece : Piece}
    (h : k.CutFrom budget piece) (hflag : k.oversized = false)
    (hsizes : ∀ r ∈ piece.readings, r.2 = size r.1)
    (hadd : ∀ a b, size (a ++ b) ≤ size a + size b)
    (htrims : ∀ t trimmed, trim? t = some trimmed → size trimmed.content ≤ size t) :
    size k.content ≤ budget := by
  obtain ⟨hmakes, skipped, htrim, -⟩ := h
  refine (htrims _ _ htrim).trans ?_
  cases piece with
  | cut => exact hmakes.elim
  | whole e n =>
    have hsize : n = size e.text := hsizes (e.text, n) List.mem_cons_self
    exact hsize ▸ hmakes.2
  | fragment start rows =>
    have hne : rows.map Prod.fst ≠ [] := by
      intro hnil
      rw [Piece.excerpt, hnil] at htrim
      cases htrim
    have hmap : (rows.map Prod.fst).map size = rows.map Prod.snd := by
      rw [List.map_map]
      exact List.map_congr_left fun r hr => (hsizes r hr).symm
    exact (size_flatten_le hadd hne).trans (hmap ▸ hmakes.2 hflag)

namespace Chunker

section

variable {c : Chunker} {doc : Document} {signal : Option Signal} {ks : List Chunk} {fit : Nat}

theorem exists_cutFrom (hbudgets : budgets c.estimator.contextLength = .ok (budget, fit))
    (hcut : c.fitsWhole doc = false) (h : (c.chunk doc signal).result = .ok ks) :
    ∃ pieces, readings (c.trace doc signal) = pieces.flatMap Piece.readings ∧
      List.SublistForall₂ (fun k piece => k.CutFrom budget piece ∧ piece.excerpt.IsOf doc.text)
        ks pieces := by
  obtain ⟨cs, rfl, hgives⟩ := exists_candidates h
  have hlarge : ∀ n, (doc.text, n) ∈ (readings (c.trace doc signal)).head? → fit < n := by
    intro n hn
    obtain ⟨rest, hrest⟩ := List.head?_eq_some_iff.mp hn
    rw [size_of_readings hrest]
    simpa only [fitsWhole, hbudgets, decide_eq_false_iff_not, Nat.not_le] using hcut
  obtain ⟨pieces, hreadings, hmakes⟩ := accounts_candidatePlan hbudgets hlarge hgives
  have hchunks := sublistForall₂_chunks (Language.commentSyntax doc.language) c.filter hmakes
    (isOf_of_candidatePlan hgives)
  rw [← map_unnumbered_finalize, List.sublistForall₂_map_left_iff] at hchunks
  exact ⟨pieces, hreadings, hchunks⟩

/-- A chunk of a text that is cut is within budget unless it is flagged. -/
theorem size_content_le_budget (hbudgets : budgets c.estimator.contextLength = .ok (budget, fit))
    (hcut : c.fitsWhole doc = false) (h : (c.chunk doc signal).result = .ok ks)
    {size : Text → Nat} (hcounts : c.estimator.Counts size)
    (hadd : ∀ a b, size (a ++ b) ≤ size a + size b)
    (htrims : ∀ t trimmed, trim? t = some trimmed → size trimmed.content ≤ size t) {k : Chunk}
    (hk : k ∈ ks) (hflag : k.oversized = false) : size k.content ≤ budget := by
  obtain ⟨pieces, hreadings, hchunks⟩ := exists_cutFrom hbudgets hcut h
  obtain ⟨taken, htaken, hsub⟩ := List.sublistForall₂_iff.mp hchunks
  have hfrom : List.Forall₂ (fun piece (k : Chunk) =>
      k.CutFrom budget piece ∧ piece.excerpt.IsOf doc.text) taken _ := htaken.flip
  obtain ⟨piece, hpiece, hcutFrom, -⟩ := exists_of_forall₂ hfrom hk
  refine hcutFrom.size_le hflag ?_ hadd htrims
  intro r hr
  have hmem : r ∈ readings (c.trace doc signal) := by
    rw [hreadings]
    exact List.mem_flatMap.mpr ⟨piece, hsub.subset hpiece, hr⟩
  rw [trace, Plan.readings_trace, hcounts.read_eq] at hmem
  obtain ⟨text, -, rfl⟩ := List.mem_map.mp hmem
  rfl

end

/-- A text that does not fit whole is cut under the budget: each chunk is made of a piece of what was
measured, by its tokens or else by a quarter of its characters, in order, and is flagged if that is a
single row over budget, and only then; a fragment that is not flagged has rows whose sizes sum to no
more than the budget, and an excerpt that was not split is within it. If a tokenizer that never fails
counts sizes that add up and do not grow by trimming, chunks that are not flagged are within budget. -/
theorem exists_pieces (c : Chunker) (doc : Document) (signal : Option Signal) (ks : List Chunk)
    (fit : Nat) (hbudgets : budgets c.estimator.contextLength = .ok (budget, fit))
    (hcut : c.fitsWhole doc = false) (h : (c.chunk doc signal).result = .ok ks) :
    (∃ pieces, readings (c.trace doc signal) = pieces.flatMap Piece.readings ∧
      c.estimator.read ((pieces.flatMap Piece.readings).map Prod.fst) =
        pieces.flatMap Piece.readings ∧
      c.estimator.IsReading (pieces.flatMap Piece.readings) ∧
      List.SublistForall₂ (fun k piece => k.CutFrom budget piece ∧ piece.excerpt.IsOf doc.text)
        ks pieces) ∧
    ∀ size : Text → Nat, c.estimator.Counts size → (∀ a b, size (a ++ b) ≤ size a + size b) →
      (∀ t trimmed, trim? t = some trimmed → size trimmed.content ≤ size t) →
      ∀ k ∈ ks, k.oversized = false → size k.content ≤ budget := by
  obtain ⟨pieces, hreadings, hchunks⟩ := exists_cutFrom hbudgets hcut h
  have hread : readings (c.trace doc signal) =
      c.estimator.read ((readings (c.trace doc signal)).map Prod.fst) :=
    Plan.readings_trace (c.plan doc) { estimator := c.estimator, signal }
  have hreading : c.estimator.IsReading (pieces.flatMap Piece.readings) := by
    rw [← hreadings, hread]
    exact Token.Estimator.isReading_read _
  refine ⟨⟨pieces, hreadings, by rw [← hreadings, ← hread], hreading, hchunks⟩, ?_⟩
  intro size hcounts hadd htrims k hk hflag
  exact size_content_le_budget hbudgets hcut h hcounts hadd htrims hk hflag

theorem exists_pieces_sample :
    budgets sampleChunker.estimator.contextLength = .ok (8, 9) ∧
      sampleChunker.fitsWhole sample = false ∧
      ∃ ks, (sampleChunker.chunk sample none).result = .ok ks ∧
        ks.map Chunk.oversized = [false, true, false] ∧
        (∃ pieces, List.SublistForall₂ (fun k piece => k.CutFrom 8 piece ∧
          piece.excerpt.IsOf sample.text) ks pieces) ∧
        ∀ k ∈ ks, k.oversized = false → k.content.length ≤ 8 := by
  have hcut : sampleChunker.fitsWhole sample = false := by decide +kernel
  refine ⟨rfl, hcut, _, rfl, rfl, ?_⟩
  obtain ⟨⟨pieces, -, -, -, hpieces⟩, hsizes⟩ :=
    exists_pieces sampleChunker sample none _ 9 rfl hcut rfl
  refine ⟨⟨pieces, hpieces⟩, hsizes List.length ?_ (fun _ _ => List.length_append.le) ?_⟩
  · exact Token.Estimator.counts_of_tokenizer rfl fun _ text => ⟨_, rfl, List.length_range⟩
  · exact fun _ _ htrim => (content_sublist_of_trim? htrim).length_le

end Chunker

end SourceIndex.Chunking
