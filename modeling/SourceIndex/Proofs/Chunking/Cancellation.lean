import SourceIndex.Proofs.Chunking.Outcome

/-! # Cancellation

A signal that rises after so many looks either is never seen raised, and then changes nothing
(`Plan.run_of_count_le`), or ends the run at its next look, before which the run was the one that is
not cancelled (`Plan.exists_trace_of_lt_count`). The plan of a document is orderly, so nothing is
measured once the signal has risen. For a document all this is `Chunker.chunk_cancellation`. -/

namespace SourceIndex.Chunking

theorem count_look_measure (text : Text) (size : Nat) (raises : Bool) (events : List Event) :
    (Event.measure text size raises :: events).count .look = events.count .look := by
  have hne : Event.measure text size raises ≠ .look := nofun
  exact List.count_cons_of_ne hne

namespace Plan

variable {α β : Type} {plan : Plan α} {e : Token.Estimator}

/-! ## Signals that rise after some looks -/

/-- A quiet estimator leaves the signal alone while it measures. -/
theorem trace_measure (hquiet : e.IsQuiet) (text : Text) (next : Nat → Plan α)
    (signal : Option Signal) :
    (measure text next).trace ⟨e, signal⟩ =
      .measure text (e.measure text).1 false ::
        (next (e.measure text).1).trace ⟨(e.measure text).2.2, signal⟩ := by
  have hraises : (e.measure text).2.1 = false := hquiet [] text
  rw [trace, Setting.measurement, Setting.after]
  simp only [hraises]
  rfl

theorem run_measure_of_isQuiet (hquiet : e.IsQuiet) (text : Text) (next : Nat → Plan α)
    (signal : Option Signal) :
    (measure text next).run ⟨e, signal⟩ =
      (next (e.measure text).1).run ⟨(e.measure text).2.2, signal⟩ := by
  have hraises : (e.measure text).2.1 = false := hquiet [] text
  rw [run_measure, Setting.measurement, Setting.after]
  simp only [hraises]
  rfl

/-- A signal that is looked at no more often than it stays down changes nothing. -/
theorem run_of_count_le (hquiet : e.IsQuiet) {n : Nat}
    (h : (plan.trace ⟨e, some {}⟩).count .look ≤ n) :
    (plan.run ⟨e, some { remaining := some n }⟩).1 = (plan.run ⟨e, none⟩).1 := by
  induction plan generalizing e n with
  | done | stop => rfl
  | look next ih =>
    have htrace : (look next).trace ⟨e, some {}⟩ = .look :: next.trace ⟨e, some {}⟩ := rfl
    rw [htrace, List.count_cons_self] at h
    cases n with
    | zero => exact absurd h (Nat.not_succ_le_zero _)
    | succ n => exact ih hquiet (Nat.le_of_succ_le_succ h)
  | measure text next ih =>
    rw [trace_measure hquiet, count_look_measure] at h
    rw [run_measure_of_isQuiet hquiet, run_measure_of_isQuiet hquiet]
    exact ih _ (hquiet.measure text) h

/-- A signal that is looked at more often ends the run at the look at which it rises. -/
theorem exists_trace_of_lt_count (hquiet : e.IsQuiet) {n : Nat}
    (h : n < (plan.trace ⟨e, some {}⟩).count .look) :
    (plan.run ⟨e, some { remaining := some n }⟩).1 = .error .cancelled ∧
      ∃ before after, plan.trace ⟨e, some {}⟩ = before ++ .look :: after ∧
        before.count .look = n ∧
        plan.trace ⟨e, some { remaining := some n }⟩ = before ++ [.look] := by
  induction plan generalizing e n with
  | done | stop => exact absurd h (Nat.not_lt_zero n)
  | look next ih =>
    have htrace : (look next).trace ⟨e, some {}⟩ = .look :: next.trace ⟨e, some {}⟩ := rfl
    rw [htrace, List.count_cons_self] at h
    cases n with
    | zero => exact ⟨rfl, [], _, htrace, rfl, rfl⟩
    | succ n =>
      obtain ⟨hrun, before, after, hbefore, hcount, hstopped⟩ :=
        ih hquiet (Nat.lt_of_succ_lt_succ h)
      refine ⟨hrun, .look :: before, after, by rw [htrace, hbefore]; rfl, ?_, ?_⟩
      · rw [List.count_cons_self, hcount]
      · exact congrArg _ hstopped
  | measure text next ih =>
    rw [trace_measure hquiet, count_look_measure] at h
    obtain ⟨hrun, before, after, hbefore, hcount, hstopped⟩ := ih _ (hquiet.measure text) h
    rw [run_measure_of_isQuiet hquiet, trace_measure hquiet, trace_measure hquiet, hbefore,
      hstopped]
    refine ⟨hrun, .measure text (e.measure text).1 false :: before, after, rfl, ?_, rfl⟩
    rw [count_look_measure, hcount]

/-! ## Estimators that do not remember -/

/-- What a stateless estimator measured before does not change a run. -/
theorem run_after (hstateless : e.IsStateless) (texts texts' : List Text) (signal : Option Signal) :
    (plan.run ⟨e.after texts, signal⟩).1 = (plan.run ⟨e.after texts', signal⟩).1 := by
  induction plan generalizing texts texts' signal with
  | done | stop => rfl
  | look next ih =>
    rw [run_look, run_look]
    split
    · rfl
    · exact ih texts texts' _
  | measure text next ih =>
    obtain ⟨hsize, hraises⟩ := hstateless texts text
    obtain ⟨hsize', hraises'⟩ := hstateless texts' text
    have hmeasured (before : List Text) :
        ((e.after before).measure text).2.2 = e.after (before ++ [text]) := by
      rw [Token.Estimator.after_append]
      rfl
    simp only [run_measure, Setting.after, Setting.measurement, hsize, hsize', hraises, hraises',
      hmeasured]
    exact ih _ (texts ++ [text]) (texts' ++ [text]) _

end Plan

namespace Chunker

/-- What a chunker with a stateless estimator did before does not change what it does next. -/
theorem result_chunk_chunk (c : Chunker) (doc doc' : Document) (signal signal' : Option Signal)
    (hstateless : c.estimator.IsStateless) :
    ((c.chunk doc signal).chunker.chunk doc' signal').result = (c.chunk doc' signal').result := by
  rw [chunker_chunk, Plan.run_snd, Plan.estimator_foldl_after, result_chunk, result_chunk, plan,
    Token.Estimator.contextLength_after]
  exact Plan.run_after hstateless _ [] signal'

/-- Cancellation is all or nothing: a signal that rises after so many looks either changes nothing
or ends the run when it is seen, and what was measured until then is what is measured without it. It
leaves nothing behind for documents that come later, if the estimator is stateless. And it is
prompt: there is a look between any two measurements, so if the signal is raised during one, no
other follows. -/
theorem chunk_cancellation (c : Chunker) (doc : Document) :
    (c.estimator.IsQuiet → ∀ n,
      ((c.trace doc (some {})).count .look ≤ n →
        (c.chunk doc (some { remaining := some n })).result = (c.chunk doc none).result) ∧
      (n < (c.trace doc (some {})).count .look →
        (c.chunk doc (some { remaining := some n })).result = .error .cancelled ∧
          ∃ before after, c.trace doc (some {}) = before ++ .look :: after ∧
            before.count .look = n ∧
            c.trace doc (some { remaining := some n }) = before ++ [.look] ∧
            (c.chunk doc (some { remaining := some n })).chunker.estimator =
              c.estimator.after ((readings before).map Prod.fst))) ∧
    (c.estimator.IsStateless → ∀ signal doc' signal',
      ((c.chunk doc signal).chunker.chunk doc' signal').result = (c.chunk doc' signal').result) ∧
    ∀ signal, (c.trace doc signal).IsChain (fun a b => a = .look ∨ b = .look) ∧
      ∀ before text size after, signal.isSome →
        c.trace doc signal = before ++ .measure text size true :: after →
        after = [] ∨ after = [.look] ∧ (c.chunk doc signal).result = .error .cancelled := by
  refine ⟨?_, ?_, ?_⟩
  · intro hquiet n
    refine ⟨fun hle => Plan.run_of_count_le hquiet hle, ?_⟩
    intro hlt
    obtain ⟨hrun, before, after, hbefore, hcount, hstopped⟩ :=
      Plan.exists_trace_of_lt_count hquiet hlt
    refine ⟨hrun, before, after, hbefore, hcount, hstopped, ?_⟩
    rw [chunker_chunk, Plan.run_snd, Plan.estimator_foldl_after, hstopped, readings,
      List.filterMap_append]
    exact congrArg _ (congrArg _ (List.append_nil _))
  · intro hstateless signal doc' signal'
    exact c.result_chunk_chunk doc doc' signal signal' hstateless
  · intro signal
    refine ⟨((c.orderly_plan doc).isChain_trace _).1, ?_⟩
    intro before text size after hsignal htrace
    obtain ⟨s, rfl⟩ := Option.isSome_iff_exists.mp hsignal
    exact (c.orderly_plan doc).trace_of_raises htrace

theorem chunk_cancellation_sample :
    (sampleChunker.trace sample (some {})).count .look = 9 ∧
      (sampleChunker.chunk sample (some { remaining := some 9 })).result =
        (sampleChunker.chunk sample none).result ∧
      (sampleChunker.chunk sample (some { remaining := some 4 })).result = .error .cancelled ∧
      ((sampleChunker.chunk sample (some { remaining := some 4 })).chunker.chunk sample
          none).result = (sampleChunker.chunk sample none).result := by
  have hcount : (sampleChunker.trace sample (some {})).count .look = 9 := by decide +kernel
  obtain ⟨hquiet, hstateless, -⟩ := chunk_cancellation sampleChunker sample
  have hruns := hquiet (Token.Estimator.isQuiet_of_tokenizer rfl fun _ _ => rfl)
  refine ⟨hcount, (hruns 9).1 hcount.le, ((hruns 4).2 (hcount ▸ by decide)).1, ?_⟩
  exact hstateless (Token.Estimator.isStateless_of_tokenizer rfl fun _ _ _ => rfl) _ sample none

end Chunker

end SourceIndex.Chunking
