import SourceIndex.Proofs.Syntax.Candidates
import SourceIndex.Proofs.Syntax.Outline

/-! # The order of patterns

Patterns may be permuted and repeated, and patterns that the engine refuses or that capture nothing may
be added (`IsRearrangement`): the candidates are still the same, in some order (`perm_candidates`), and
so are the points of interest that are kept of them (`perm_resolve`). Of those that start on one line
the first is told by where it starts and stops, unless two of them have one range (`kind_eq_or_tied`).
So breakpoints stay on their lines, and keep their types but for such ties
(`breakpoints_of_isRearrangement`). -/

namespace SourceIndex.Syntax

/-- Patterns are permuted, one of them is repeated, or one is added that an engine refuses, or whose
matches in a tree capture nothing, and so on. -/
inductive IsRearrangement (engine : QueryEngine) (t : Tree) : List String → List String → Prop where
  | perm {ps ps' : List String} : ps.Perm ps' → IsRearrangement engine t ps ps'
  | again {ps : List String} {pattern : String} : pattern ∈ ps →
      IsRearrangement engine t ps (pattern :: ps)
  | invalid {ps : List String} {pattern : String} : engine.search? pattern = none →
      IsRearrangement engine t ps (pattern :: ps)
  | idle {ps : List String} {pattern : String} {search : Tree → List Match} :
      engine.search? pattern = some search → (∀ m ∈ search t, m.taken = []) →
      IsRearrangement engine t ps (pattern :: ps)
  | trans {ps ps' ps'' : List String} : IsRearrangement engine t ps ps' →
      IsRearrangement engine t ps' ps'' → IsRearrangement engine t ps ps''

variable {engine : QueryEngine} {t : Tree} {ps ps' : List String} {p q : Place}

/-! ## Candidates -/

/-- A pattern for which nothing is captured adds no candidate. -/
theorem mem_candidates_cons_iff {pattern : String} (hengine : engine.CapturesNodes t)
    (hnone : engine.captured pattern t = []) :
    p ∈ candidates engine (pattern :: ps) t ↔ p ∈ candidates engine ps t := by
  simp [mem_candidates hengine, hnone]

theorem IsRearrangement.mem_candidates_iff (hengine : engine.CapturesNodes t)
    (h : IsRearrangement engine t ps ps') :
    p ∈ candidates engine ps' t ↔ p ∈ candidates engine ps t := by
  induction h with
  | perm h => simp only [mem_candidates hengine, h.mem_iff]
  | @again ps pattern hpattern =>
    simp only [mem_candidates hengine, List.mem_cons, exists_eq_or_imp, or_iff_right_iff_imp]
    exact fun hp => ⟨pattern, hpattern, hp⟩
  | invalid hnone =>
    exact mem_candidates_cons_iff hengine (by rw [QueryEngine.captured, hnone])
  | idle hsearch hnone =>
    refine mem_candidates_cons_iff hengine ?_
    rw [QueryEngine.captured, hsearch]
    exact List.flatMap_eq_nil_iff.mpr hnone
  | trans _ _ ih ih' => exact ih'.trans ih

theorem nodup_candidates (engine : QueryEngine) (ps : List String) (t : Tree) :
    (candidates engine ps t).Nodup :=
  (nodup_path_candidates engine ps t).of_map Place.path

theorem IsRearrangement.perm_candidates (hengine : engine.CapturesNodes t)
    (h : IsRearrangement engine t ps ps') :
    (candidates engine ps' t).Perm (candidates engine ps t) :=
  (List.perm_ext_iff_of_nodup (nodup_candidates engine ps' t) (nodup_candidates engine ps t)).mpr
    fun _ => h.mem_candidates_iff hengine

/-! ## Points of interest -/

/-- What is kept of candidates does not depend on their order, but for its own order. -/
theorem perm_resolve (policy : String → Option Winner) (outermostOnly : Bool)
    {candidates candidates' : List Place} (h : candidates'.Perm candidates) :
    (resolve policy outermostOnly candidates').Perm (resolve policy outermostOnly candidates) := by
  have hway : givesWay policy candidates' = givesWay policy candidates := by
    funext p
    rw [givesWay, givesWay, h.any_eq, h.any_eq]
  have hsurvivors : (survivors policy candidates').Perm (survivors policy candidates) := by
    rw [survivors, survivors, hway]
    exact h.filter _
  have houtermost : (outermost (survivors policy candidates')).Perm
      (outermost (survivors policy candidates)) := by
    have hoccurs : occurs (survivors policy candidates') = occurs (survivors policy candidates) :=
      funext fun path => hsurvivors.any_eq
    rw [outermost, outermost, hoccurs]
    exact hsurvivors.filter _
  refine (List.mergeSort_perm _ _).trans (.trans ?_ (List.mergeSort_perm _ _).symm)
  split
  · exact houtermost
  · exact hsurvivors

/-- The language of a description with other patterns for its points of interest. -/
abbrev withPatterns (spec : LanguageSpec) (patterns : List String) : LanguageSpec :=
  { spec with pointsOfInterest := patterns }

variable {spec : LanguageSpec} {text : Text}

theorem IsRearrangement.perm_pointsOfInterest (hengine : engine.CapturesNodes t)
    (h : IsRearrangement engine t spec.pointsOfInterest ps) :
    (pointsOfInterest engine (withPatterns spec ps) t).Perm (pointsOfInterest engine spec t) :=
  perm_resolve _ _ (h.perm_candidates hengine)

/-! ## Breakpoints -/

theorem IsRearrangement.map_line_outline (hengine : engine.CapturesNodes t)
    (h : IsRearrangement engine t spec.pointsOfInterest ps) :
    (outline engine (withPatterns spec ps) text t).map Breakpoint.line =
      (outline engine spec text t).map Breakpoint.line := by
  have hascending (spec : LanguageSpec) :
      ((outline engine spec text t).map Breakpoint.line).Pairwise (· < ·) :=
    List.pairwise_map.mpr (Breakpoint.pairwise_ofStarts _)
  apply (hascending (withPatterns spec ps)).eq_of_mem_iff (hascending spec)
  intro line
  rw [List.mem_map, List.mem_map, exists_line_iff, exists_line_iff]
  simp only [(h.perm_pointsOfInterest hengine).mem_iff]
  exact Iff.rfl

/-- What stands in a list is in front of a place in it, the place itself, or related to it. -/
theorem eq_or_of_pairwise {α : Type} {R : α → α → Prop} {l before after : List α} {a b : α}
    (hpairwise : l.Pairwise R) (hl : l = before ++ a :: after) (hb : b ∈ l) (hnot : b ∉ before) :
    b = a ∨ R a b := by
  subst hl
  rcases List.mem_cons.mp ((List.mem_append.mp hb).resolve_left hnot) with rfl | hafter
  · exact .inl rfl
  · exact .inr ((List.pairwise_cons.mp (List.pairwise_append.mp hpairwise).2.1).1 b hafter)

/-- Two places that lead each other have one range. -/
theorem Place.Leads.range_eq {cs cs' : List Place} (h : p.Leads cs q) (h' : q.Leads cs' p) :
    p.start = q.start ∧ p.stop = q.stop := by
  rcases h with hlt | ⟨hstart, hstop⟩
  · rcases h' with hlt' | ⟨hstart', -⟩ <;> omega
  · rcases h' with hlt' | ⟨-, hstop'⟩
    · omega
    · refine ⟨hstart, ?_⟩
      rcases hstop with hlt | ⟨heq, -⟩ <;> rcases hstop' with hlt' | ⟨heq', -⟩ <;> omega

/-- Two points of interest that are kept start on one line and have one range. -/
structure IsTied (engine : QueryEngine) (spec : LanguageSpec) (text : Text) (t : Tree) (line : Nat)
    (p q : Place) : Prop where
  kept : p ∈ pointsOfInterest engine spec t ∧ q ∈ pointsOfInterest engine spec t
  distinct : p.path ≠ q.path
  lines : lineOf spec text p = line ∧ lineOf spec text q = line
  range : p.start = q.start ∧ p.stop = q.stop

theorem IsRearrangement.kind_eq_or_tied (hengine : engine.CapturesNodes t)
    (h : IsRearrangement engine t spec.pointsOfInterest ps) {b b' : Breakpoint}
    (hb : b ∈ outline engine spec text t) (hb' : b' ∈ outline engine (withPatterns spec ps) text t)
    (hline : b'.line = b.line) :
    b'.kind = b.kind ∨ ∃ p q, IsTied engine spec text t b.line p q := by
  obtain ⟨before, p, after, hpoints, hp, hkind, hbefore⟩ := exists_first_of_mem_outline hb
  obtain ⟨before', p', after', hpoints', hp', hkind', hbefore'⟩ := exists_first_of_mem_outline hb'
  have hperm := h.perm_pointsOfInterest hengine
  have hmem : p ∈ pointsOfInterest engine spec t := by
    rw [hpoints]
    exact List.mem_append_right _ List.mem_cons_self
  have hmem' : p' ∈ pointsOfInterest engine (withPatterns spec ps) t := by
    rw [hpoints']
    exact List.mem_append_right _ List.mem_cons_self
  -- Each of the two is the first that starts on the line, among the points in the one order and in the
  -- other.
  have hleads := eq_or_of_pairwise pairwise_resolve hpoints (hperm.mem_iff.mp hmem')
    fun hfirst => hbefore p' hfirst (hp'.trans hline)
  have hleads' := eq_or_of_pairwise pairwise_resolve hpoints' (hperm.mem_iff.mpr hmem)
    fun hfirst => hbefore' p hfirst (hp.trans hline.symm)
  by_cases heq : p' = p
  · exact .inl (by rw [hkind, hkind', heq])
  · right
    refine ⟨p, p', ⟨hmem, hperm.mem_iff.mp hmem'⟩, fun hpath => heq ?_, ⟨hp, hp'.trans hline⟩,
      (hleads.resolve_left heq).range_eq (hleads'.resolve_left (Ne.symm heq))⟩
    exact (List.inj_on_of_nodup_map (nodup_path_candidates _ _ t) (mem_of_mem_resolve hmem)
      (mem_of_mem_resolve (hperm.mem_iff.mp hmem')) hpath).symm

/-- Patterns may be rearranged: there are breakpoints on the same lines, in the same order, and the type
of each stays what it was, unless two points of interest that start on its line have one range. -/
theorem breakpoints_of_isRearrangement {spec? spec?' : String → Option LanguageSpec}
    {parser : Parser} {language : String} {variant : Option String}
    (hspec : spec? language = some spec) (hspec' : spec?' language = some (withPatterns spec ps))
    (hparse : parser.parse text language variant = some t)
    (hengine : (parser.engine language variant).CapturesNodes t)
    (h : IsRearrangement (parser.engine language variant) t spec.pointsOfInterest ps) :
    let bs := breakpoints spec? parser text language variant
    let bs' := breakpoints spec?' parser text language variant
    bs'.map Breakpoint.line = bs.map Breakpoint.line ∧
      ∀ b ∈ bs, ∀ b' ∈ bs', b'.line = b.line → b'.kind = b.kind ∨
        ∃ p q, IsTied (parser.engine language variant) spec text t b.line p q := by
  simp only [breakpoints, hspec, hspec', hparse, Option.map_some, Option.getD_some]
  split
  next => exact ⟨rfl, fun _ hb => absurd hb List.not_mem_nil⟩
  next =>
    exact ⟨h.map_line_outline hengine,
      fun b hb b' hb' hline => h.kind_eq_or_tied hengine hb hb' hline⟩

/-- A language in which exports and classes are points of interest. -/
def exportSpec : LanguageSpec where
  grammar := ⟨"", ""⟩
  pointsOfInterest := ["(export) @it", "(wrapper) @it", "(class) @it"]

/-- A parser that knows one tree. -/
def exportParser : Parser where
  parse _ _ _ := some wrapped
  engine _ _ := Pattern.engine

theorem breakpoints_of_isRearrangement_exported :
    let patterns := ["(", "(class) @it", "(class)", "(wrapper) @it", "(export) @it", "(class) @it"]
    let text := ['e', ' ', 'x', '\n', 'c', 'l', 'a', 's', 's']
    let bs := breakpoints (fun _ => some exportSpec) exportParser text "" none
    let bs' := breakpoints (fun _ => some (withPatterns exportSpec patterns)) exportParser text "" none
    Pattern.engine.CapturesNodes wrapped ∧
      IsRearrangement Pattern.engine wrapped exportSpec.pointsOfInterest patterns ∧
      bs'.map Breakpoint.line = bs.map Breakpoint.line ∧
      ∀ b ∈ bs, ∀ b' ∈ bs', b'.line = b.line →
        b'.kind = b.kind ∨ ∃ p q, IsTied Pattern.engine exportSpec text wrapped b.line p q := by
  intro patterns text
  let again := "(class) @it" :: exportSpec.pointsOfInterest
  have hagain : IsRearrangement Pattern.engine wrapped exportSpec.pointsOfInterest again :=
    .again (by decide)
  have hunnamed : Pattern.parse? "(class)".toList = some ⟨"class", none, none⟩ := by decide +kernel
  have hidle : IsRearrangement Pattern.engine wrapped again ("(class)" :: again) :=
    .idle (congrArg (Option.map Pattern.found) hunnamed) (by decide)
  have hwrong : IsRearrangement Pattern.engine wrapped ("(class)" :: again)
      ("(" :: "(class)" :: again) := .invalid (by decide +kernel)
  have h : IsRearrangement Pattern.engine wrapped exportSpec.pointsOfInterest patterns :=
    hagain.trans (hidle.trans (hwrong.trans (.perm (by decide))))
  have hengine := Pattern.capturesNodes_engine wrapped
  exact ⟨hengine, h, breakpoints_of_isRearrangement rfl rfl rfl hengine h⟩

end SourceIndex.Syntax
