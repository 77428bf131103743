import SourceIndex.Proofs.Chunking.Candidates
import Mathlib.Data.List.Chain

/-! # Plans that look before they measure

An orderly plan looks at the signal before each measurement, but for the first if it starts with one
(`Plan.Orderly`). Hence no two measurements follow one another in a run
(`Plan.Orderly.isChain_trace`), and none follows one during which the signal was raised
(`Plan.Orderly.trace_of_raises`). An orderly plan also stops for known reasons only
(`Plan.Orderly.run`). All plans for the candidates of a document are orderly (`orderly_cutPlan`). -/

namespace SourceIndex.Chunking

namespace Plan

variable {α β : Type}

/-- A plan that looks at the signal before each measurement, and stops for some reasons only; if it
is `ready`, it may start with a measurement. -/
def Orderly (stops : Stop → Prop) (ready : Bool) : Plan α → Prop
  | .done _ => True
  | .stop reason => stops reason
  | .look next => next.Orderly stops true
  | .measure _ next => ready = true ∧ ∀ n, (next n).Orderly stops false

namespace Orderly

variable {plan : Plan α} {e : Token.Estimator} {stops : Stop → Prop} {ready : Bool}

theorem weaken (h : plan.Orderly stops false) : plan.Orderly stops ready := by
  cases plan with
  | done => trivial
  | stop | look => exact h
  | measure => exact absurd h.1 Bool.false_ne_true

theorem bind {f : α → Plan β} (h : plan.Orderly stops ready)
    (hf : ∀ a, (f a).Orderly stops false) : (plan.bind f).Orderly stops ready := by
  induction plan generalizing ready with
  | done a => exact (hf a).weaken
  | stop => exact h
  | look _ ih => exact ih h
  | measure _ _ ih => exact ⟨h.1, fun n => ih n (h.2 n)⟩

theorem collect {plans : List (Plan (List α))} (h : ∀ plan ∈ plans, plan.Orderly stops false) :
    (Plan.collect plans).Orderly stops false := by
  induction plans with
  | nil => trivial
  | cons plan plans ih =>
    obtain ⟨hplan, hplans⟩ := List.forall_mem_cons.mp h
    exact hplan.bind fun _ => (ih hplans).bind fun _ => trivial

theorem measureAll (measured : List (Text × Nat)) (texts : List Text) :
    (Plan.measureAll measured texts).Orderly stops false := by
  induction texts generalizing measured with
  | nil => trivial
  | cons text texts ih => exact ⟨rfl, fun n => ih ((text, n) :: measured)⟩

/-- It ends with a result, unless it is cancelled or has one of its reasons to stop. -/
theorem run (h : plan.Orderly stops ready) (s : Setting) :
    (∃ a, (plan.run s).1 = .ok a) ∨ (plan.run s).1 = .error .cancelled ∨
      ∃ reason, stops reason ∧ (plan.run s).1 = .error reason := by
  induction plan generalizing ready s with
  | done a => exact .inl ⟨a, rfl⟩
  | stop reason => exact .inr (.inr ⟨reason, h, rfl⟩)
  | look next ih =>
    rw [run_look]
    split
    · exact .inr (.inl rfl)
    · exact ih h _
  | measure text next ih => exact ih _ (h.2 _) _

/-- Of two events in a row, one is a look; and a plan that is not ready starts with one. -/
theorem isChain_trace (h : plan.Orderly stops ready) (s : Setting) :
    (plan.trace s).IsChain (fun a b => a = .look ∨ b = .look) ∧
      (ready = false → ∀ event ∈ (plan.trace s).head?, event = .look) := by
  induction plan generalizing ready s with
  | done | stop => exact ⟨.nil, fun _ => nofun⟩
  | look next ih =>
    rw [trace]
    refine ⟨List.isChain_cons.mpr ⟨fun _ _ => .inl rfl, ?_⟩,
      fun _ _ hevent => (Option.some.inj hevent).symm⟩
    split
    · exact .nil
    · exact (ih h _).1
  | measure text next ih =>
    obtain ⟨rfl, hnext⟩ := h
    rw [trace]
    obtain ⟨hchain, hhead⟩ := ih _ (hnext (s.estimator.measure text).1)
      (s.after (s.measurement text))
    exact ⟨List.isChain_cons.mpr ⟨fun _ hevent => .inr (hhead rfl _ hevent), hchain⟩,
      fun hready => absurd hready.symm Bool.false_ne_true⟩

/-- Nothing is measured under a signal that was raised, and if it is looked at, the run is
cancelled. -/
theorem trace_of_raised (h : plan.Orderly stops false) {s : Signal} (hraised : s.raised = true) :
    plan.trace ⟨e, some s⟩ = [] ∨
      plan.trace ⟨e, some s⟩ = [.look] ∧ (plan.run ⟨e, some s⟩).1 = .error .cancelled := by
  cases plan with
  | done | stop => exact .inl rfl
  | look next =>
    have hlook : (Signal.look? (some s)).1 = true := by
      rw [Signal.look?, Signal.look_eq_of_raised hraised]
    rw [trace, run_look, if_pos hlook, if_pos hlook]
    exact .inr ⟨rfl, rfl⟩
  | measure => exact absurd h.1 Bool.false_ne_true

/-- If the signal is raised during a measurement, that is the last one. -/
theorem trace_of_raises (h : plan.Orderly stops ready) {s : Signal} {before after : List Event}
    {text : Text} {size : Nat}
    (htrace : plan.trace ⟨e, some s⟩ = before ++ .measure text size true :: after) :
    after = [] ∨ after = [.look] ∧ (plan.run ⟨e, some s⟩).1 = .error .cancelled := by
  induction plan generalizing ready e s before with
  | done | stop => exact absurd htrace.symm (List.append_ne_nil_of_right_ne_nil _ nofun)
  | look next ih =>
    rw [trace] at htrace
    cases before with
    | nil => cases htrace
    | cons event before =>
      rw [List.cons_append, List.cons.injEq] at htrace
      rw [run_look]
      split at htrace
      · exact absurd htrace.2.symm (List.append_ne_nil_of_right_ne_nil _ nofun)
      · rename_i hnot
        rw [if_neg hnot]
        exact ih h htrace.2
  | measure text' next ih =>
    obtain ⟨-, hnext⟩ := h
    rw [trace, Setting.measurement, Setting.after] at htrace
    rw [run_measure, Setting.measurement, Setting.after]
    cases before with
    | nil =>
      rw [List.nil_append, List.cons.injEq, Event.measure.injEq] at htrace
      obtain ⟨⟨-, -, hraises⟩, rfl⟩ := htrace
      simp only [hraises, if_true]
      exact (hnext _).trace_of_raised rfl
    | cons event before =>
      rw [List.cons_append, List.cons.injEq] at htrace
      generalize (e.measure text').2.1 = raises at htrace ⊢
      cases raises with
      | true => exact ih _ (hnext _) htrace.2
      | false => exact ih _ (hnext _) htrace.2

end Orderly

end Plan

variable {stops : Stop → Prop}

theorem orderly_splitPlan (budget : Nat) (origin : Option Origin) (kind : Option String)
    (e : Excerpt) : (splitPlan budget origin kind e).Orderly stops false :=
  (Plan.Orderly.measureAll [] e.rows).bind fun _ => trivial

theorem orderly_excerptPlan (budget : Nat) (label : String) (kind : Option String) (e : Excerpt) :
    (excerptPlan budget label kind e).Orderly stops true := by
  refine ⟨rfl, fun n => ?_⟩
  dsimp only
  split
  · trivial
  · exact orderly_splitPlan _ _ _ _

theorem orderly_segmentPlan (budget : Nat) (segment : Option String × Excerpt) :
    (segmentPlan budget segment).Orderly stops false := by
  rw [segmentPlan, Plan.Orderly]
  split
  · trivial
  · exact orderly_excerptPlan _ _ _ _

theorem orderly_oneParagraphPlan (budget : Nat) (e : Excerpt) :
    (oneParagraphPlan budget e).Orderly stops false := by
  rw [oneParagraphPlan, Plan.Orderly]
  split
  · trivial
  · exact orderly_excerptPlan _ _ _ _

theorem orderly_cutPlan (budget : Nat) (doc : Document) (bs : List Syntax.Breakpoint) :
    (cutPlan budget doc bs).Orderly stops false := by
  rw [cutPlan]
  split
  · rw [paragraphPlan_eq]
    apply Plan.Orderly.collect
    intro plan hplan
    obtain ⟨e, -, rfl⟩ := List.mem_map.mp hplan
    exact orderly_oneParagraphPlan budget e
  · rw [Plan.Orderly]
    split
    · exact (orderly_splitPlan _ _ _ _).weaken
    · rw [structuralPlan_eq]
      apply Plan.Orderly.weaken
      apply Plan.Orderly.collect
      intro plan hplan
      obtain ⟨segment, -, rfl⟩ := List.mem_map.mp hplan
      exact orderly_segmentPlan budget segment

end SourceIndex.Chunking
