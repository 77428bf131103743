import SourceIndex.Proofs.Chunking.Outcome
import SourceIndex.Proofs.Token.Budget
import SourceIndex.Proofs.Token.Substitution

/-! # Failures cost precision, and nothing else

A plan looks at an estimator through the sizes that it reads alone, so estimators that agree make no
difference to a run (`Plan.run_eq_of_agrees`). A tokenizer that fails is therefore as good as one that
gives a token for every four characters, and an extractor that fails as one that finds nothing; what
is left to stop a chunker is the signal (`Chunker.chunk_degrades`). -/

namespace SourceIndex.Chunking

namespace Plan

variable {α : Type} {plan : Plan α} {stops : Stop → Prop} {ready : Bool} {s : Setting}

/-- No signal is raised in a run. -/
def Setting.IsSilent (s : Setting) : Prop :=
  s.signal = none ∨ s.signal.any Signal.rises = false ∧ s.estimator.IsQuiet

/-- Estimators that agree make the same run. -/
theorem run_eq_of_agrees {e e' : Token.Estimator} (h : e.Agrees e') (plan : Plan α)
    (signal : Option Signal) :
    (plan.run ⟨e, signal⟩).1 = (plan.run ⟨e', signal⟩).1 ∧
      (plan.run ⟨e, signal⟩).2.signal = (plan.run ⟨e', signal⟩).2.signal ∧
      plan.trace ⟨e, signal⟩ = plan.trace ⟨e', signal⟩ := by
  induction plan generalizing e e' signal with
  | done | stop => exact ⟨rfl, rfl, rfl⟩
  | look next ih =>
    rw [run_look, run_look, trace, trace]
    dsimp only
    split
    · exact ⟨rfl, rfl, rfl⟩
    · obtain ⟨hresult, hsignal, htrace⟩ := ih h (Signal.look? signal).2
      exact ⟨hresult, hsignal, congrArg _ htrace⟩
  | measure text next ih =>
    obtain ⟨hsize, hraises⟩ := h [] text
    simp only [Token.Estimator.after_nil] at hsize hraises
    simp only [run_measure, trace, Setting.after, Setting.measurement, ← hsize, ← hraises]
    obtain ⟨hresult, hsignal, htrace⟩ := ih (e.measure text).1 (h.measure text)
      (if (e.measure text).2.1 then signal.map Signal.raise else signal)
    exact ⟨hresult, hsignal, congrArg _ htrace⟩

theorem signal_run_of_isSilent (h : s.IsSilent) : (plan.run s).2.signal = s.signal := by
  induction plan generalizing s with
  | done | stop => rfl
  | look next ih =>
    have hafter : s.after .look = s := by
      have hlook : Signal.look? s.signal = (false, s.signal) := by
        rcases h with hnone | ⟨hdown, -⟩
        · rw [hnone]; rfl
        · exact Signal.look?_of_not_rises hdown
      rw [Setting.after, hlook]
    rw [run_look, hafter]
    split
    · rfl
    · exact ih h
  | measure text next ih =>
    have hsignal : (s.after (s.measurement text)).signal = s.signal := by
      rw [Setting.measurement, Setting.after]
      rcases h with hnone | ⟨-, hquiet⟩
      · rw [hnone]; exact ite_self none
      · have hraises := hquiet [] text
        rw [Token.Estimator.after_nil] at hraises
        rw [hraises]
        rfl
    rw [run_measure, ih, hsignal]
    rw [Setting.IsSilent, hsignal]
    exact h.imp_right fun hdown => ⟨hdown.1, hdown.2.measure text⟩

/-- A run is cancelled by a signal that is raised, if its plan does not call itself cancelled. -/
theorem Orderly.raised_of_cancelled (h : plan.Orderly stops ready) (hstops : ¬stops .cancelled)
    (hrun : (plan.run s).1 = .error .cancelled) :
    ∃ signal, (plan.run s).2.signal = some signal ∧ signal.raised = true := by
  induction plan generalizing ready s with
  | done => cases hrun
  | stop reason =>
    cases hrun
    exact absurd h hstops
  | look next ih =>
    rw [run_look] at hrun ⊢
    split
    · rename_i hlook
      cases hsignal : s.signal with
      | none =>
        rw [hsignal] at hlook
        cases hlook
      | some signal =>
        rw [hsignal] at hlook
        exact ⟨signal.look.2, by rw [Setting.after, hsignal]; rfl, Signal.raised_look hlook⟩
    · rw [if_neg ‹_›] at hrun
      exact ih h hrun
  | measure text next ih => exact ih _ (h.2 _) hrun

theorem Orderly.not_isSilent_of_cancelled (h : plan.Orderly stops ready)
    (hstops : ¬stops .cancelled) (hrun : (plan.run s).1 = .error .cancelled) : ¬s.IsSilent := by
  intro hsilent
  obtain ⟨signal, hsignal, hraised⟩ := h.raised_of_cancelled hstops hrun
  rw [signal_run_of_isSilent hsilent] at hsignal
  obtain hnone | ⟨hdown, -⟩ := hsilent
  · rw [hnone] at hsignal
    nomatch hsignal
  · rw [hsignal, Option.any_some, Signal.rises, hraised] at hdown
    nomatch hdown

end Plan

theorem candidatePlan_congr {contextLength : Nat} {find find' : Document → List Syntax.Breakpoint}
    {doc : Document} (h : find doc = find' doc) :
    candidatePlan contextLength find doc = candidatePlan contextLength find' doc := by
  rw [candidatePlan, candidatePlan, h]

theorem exists_budgets {contextLength : Nat} (h : Token.HasParts contextLength) :
    ∃ budget limit, budgets contextLength = .ok (budget, limit.toNat) ∧ 0 ≤ limit ∧
      Token.part contextLength Token.fitFactor = .ok limit := by
  obtain ⟨_, _, _, hchunk⟩ := h Token.chunkFactor List.mem_cons_self
  obtain ⟨_, _, _, hfit⟩ :=
    h Token.fitFactor (List.mem_cons_of_mem _ (List.mem_singleton.mpr rfl))
  obtain ⟨budget, hbudget⟩ := Token.exists_part hchunk
  obtain ⟨limit, hlimit⟩ := Token.exists_part hfit
  refine ⟨budget.toNat, limit, ?_, Token.part_nonneg rfl hlimit, hlimit⟩
  rw [budgets, hbudget, hlimit]
  rfl

namespace Chunker

def withTokenizer (c : Chunker) (t : Token.Tokenizer) : Chunker :=
  { c with estimator := c.estimator.withTokenizer t }

/-- The whole text is held against the limit in one way, whether it is tokenized or estimated. -/
theorem fitsOrEstimate_eq_fitsWhole {c : Chunker} (h : Token.HasParts c.estimator.contextLength)
    (doc : Document) :
    c.estimator.fitsOrEstimate doc.text Token.fitFactor =
      (.ok (c.fitsWhole doc), (c.estimator.measure doc.text).2.2) := by
  obtain ⟨budget, limit, hbudgets, hnonneg, hlimit⟩ := exists_budgets h
  rw [Token.Estimator.fitsOrEstimate_eq hlimit, fitsWhole, hbudgets]
  dsimp only
  congr 3
  rw [eq_iff_iff]
  omega

theorem signal_chunk {c : Chunker} {doc : Document} {signal : Option Signal} :
    (c.chunk doc signal).signal =
      ((c.plan doc).run { estimator := c.estimator, signal }).2.signal := rfl

/-- An extractor that fails is as good as one that finds nothing. -/
theorem plan_of_extract_error {c : Chunker} {doc : Document} {language cause : String}
    (hlanguage : doc.language = some language)
    (h : c.extract doc.text language doc.variant = .error cause) :
    ({ c with extract := .disposed } : Chunker).plan doc = c.plan doc := by
  have hfound : ({ c with extract := .disposed } : Chunker).breakpoints doc = c.breakpoints doc := by
    rw [breakpoints, breakpoints, hlanguage]
    dsimp only
    rw [h]
    rfl
  rw [plan, plan, chunkPlan, chunkPlan, candidatePlan_congr hfound]

/-- A chunker stops because of a signal that is raised, or for want of a budget. -/
theorem exists_chunks_or_raised {c : Chunker} (h : Token.HasParts c.estimator.contextLength)
    (doc : Document) (signal : Option Signal) :
    (∃ ks, (c.chunk doc signal).result = .ok ks) ∨
      (c.chunk doc signal).result = .error .cancelled ∧
        ∃ raised, (c.chunk doc signal).signal = some raised ∧ raised.raised = true := by
  obtain ⟨_, _, hbudgets, -⟩ := exists_budgets h
  by_cases hcancelled : (c.chunk doc signal).result = .error .cancelled
  · refine .inr ⟨hcancelled, (c.orderly_plan doc).raised_of_cancelled ?_ hcancelled⟩
    rintro ⟨-, _, -, hstop⟩
    cases hstop
  · refine .inl ((exists_chunks hcancelled).resolve_right ?_)
    rintro ⟨-, _, herror, -⟩
    rw [hbudgets] at herror
    cases herror

/-- Failures of a tokenizer, to load or to encode, at any of its calls, do what a tokenizer that never
fails does by giving a token for every four characters, rounded up, at these calls; and the failure of
an extractor does what finding nothing does. So nothing but a signal that is raised keeps a chunker from
its chunks. -/
theorem chunk_degrades (c : Chunker) (doc : Document) (signal : Option Signal) :
    (∃ t : Token.Tokenizer, t.StandsIn c.estimator) ∧
    (∀ t : Token.Tokenizer, t.StandsIn c.estimator →
      ((c.withTokenizer t).chunk doc signal).result = (c.chunk doc signal).result ∧
        ((c.withTokenizer t).chunk doc signal).signal = (c.chunk doc signal).signal ∧
        (c.withTokenizer t).trace doc signal = c.trace doc signal) ∧
    (∀ language cause, doc.language = some language →
      c.extract doc.text language doc.variant = .error cause →
      ({ c with extract := .disposed }.chunk doc signal).result = (c.chunk doc signal).result ∧
        ({ c with extract := .disposed }.chunk doc signal).signal = (c.chunk doc signal).signal) ∧
    (Token.HasParts c.estimator.contextLength →
      c.estimator.fitsOrEstimate doc.text Token.fitFactor =
          (.ok (c.fitsWhole doc), (c.estimator.measure doc.text).2.2) ∧
        ((∃ ks, (c.chunk doc signal).result = .ok ks) ∨
          (c.chunk doc signal).result = .error .cancelled ∧
            ∃ raised, (c.chunk doc signal).signal = some raised ∧ raised.raised = true) ∧
        (Plan.Setting.IsSilent ⟨c.estimator, signal⟩ →
          ∃ ks, (c.chunk doc signal).result = .ok ks)) := by
  refine ⟨⟨_, c.estimator.standsIn_substitute⟩, ?_, ?_, ?_⟩
  · intro t ht
    obtain ⟨hresult, hsignal, htrace⟩ :=
      Plan.run_eq_of_agrees (Token.Estimator.agrees_of_standsIn ht) (c.plan doc) signal
    exact ⟨hresult.symm, hsignal.symm, htrace.symm⟩
  · intro language cause hlanguage herror
    have hplan := plan_of_extract_error hlanguage herror
    rw [result_chunk, result_chunk, signal_chunk, signal_chunk, hplan]
    exact ⟨rfl, rfl⟩
  · intro hparts
    refine ⟨fitsOrEstimate_eq_fitsWhole hparts doc, exists_chunks_or_raised hparts doc signal, ?_⟩
    intro hsilent
    refine (exists_chunks_or_raised hparts doc signal).resolve_right ?_
    rintro ⟨-, raised, hraised, htrue⟩
    rw [signal_chunk, Plan.signal_run_of_isSilent hsilent] at hraised
    dsimp only at hraised
    subst hraised
    rcases hsilent with hnone | ⟨hdown, -⟩
    · cases hnone
    · rw [Option.any_some, Signal.rises, htrue] at hdown
      cases hdown

/-- A chunker whose tokenizer fails at its first and at its fourth call, and whose extractor fails. -/
def faulty : Chunker where
  estimator := {
    contextLength := 6
    load := fun _ => .error ""
    tokenizer := some { encode := fun n text => {
      ids := if n = 1 ∨ n = 4 then .error "boom" else .ok (List.range text.length) } } }
  extract _ _ _ := .error "no grammar"
  filter := false

/-- The text, which is measured first, has twenty-three characters, and its third row has four. -/
theorem chunk_degrades_faulty :
    (faulty.estimator.tokenize sample.text).1.ids = .error (.notEncoded "boom") ∧
      sample.text.length = 23 ∧
      (readings (faulty.trace sample none)).map Prod.snd = [6, 2, 4, 1, 1, 10, 2] ∧
      (∃ t : Token.Tokenizer, t.StandsIn faulty.estimator) ∧
      (∀ t : Token.Tokenizer, t.StandsIn faulty.estimator →
        (∃ ids, (t.encode 1 sample.text).ids = .ok ids ∧ ids.length = 6) ∧
          ((faulty.withTokenizer t).chunk sample none).result =
            (faulty.chunk sample none).result ∧
          (readings ((faulty.withTokenizer t).trace sample none)).map Prod.snd =
            [6, 2, 4, 1, 1, 10, 2]) ∧
      ({ faulty with extract := .disposed }.chunk sample none).result =
        (faulty.chunk sample none).result ∧
      ∃ ks, (faulty.chunk sample none).result = .ok ks := by
  obtain ⟨hexists, htokenizer, hextract, hchunks⟩ := chunk_degrades faulty sample none
  have hparts : Token.HasParts faulty.estimator.contextLength := by
    refine List.forall_mem_cons.mpr ⟨⟨_, _, _, rfl⟩, List.forall_mem_singleton.mpr ⟨_, _, _, rfl⟩⟩
  have hsizes : (readings (faulty.trace sample none)).map Prod.snd = [6, 2, 4, 1, 1, 10, 2] := by
    decide +kernel
  have hfails : (faulty.estimator.tokenize sample.text).1.ids = .error (.notEncoded "boom") := rfl
  refine ⟨hfails, rfl, hsizes, hexists, fun t ht => ?_, (hextract "python" "no grammar" rfl rfl).1,
    (hchunks hparts).2.2 (.inl rfl)⟩
  obtain ⟨hresult, -, htrace⟩ := htokenizer t ht
  exact ⟨ht.estimated [] sample.text _ hfails, hresult, by rw [htrace, hsizes]⟩

end Chunker

end SourceIndex.Chunking
