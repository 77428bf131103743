import SourceIndex.Chunking.Plan
import SourceIndex.Proofs.Token.Measure
import Mathlib.Data.List.Forall2

/-! # Runs of plans, step by step

A run of a plan is a series of events: looks at the signal and measurements (`Plan.trace`). The
events tell what becomes of the setting (`run_snd`), and a run that gives a result gives the one
that the plan has for the sizes that were read (`Plan.gives_of_run`). What a plan can give is
therefore a matter of `Plan.Gives` alone, which passes through `bind`, `collect` and
`measureAll`. -/

namespace SourceIndex.Chunking

/-- A step of a run: a look at the signal, or the measurement of a text, with the size that was read
and whether a signal was raised meanwhile. -/
inductive Event where
  | look
  | measure (text : Text) (size : Nat) (raises : Bool)
  deriving DecidableEq, Repr

/-- The text of a measurement and the size that was read. -/
def Event.reading? : Event → Option (Text × Nat)
  | .look => none
  | .measure text size _ => some (text, size)

/-- What was measured in a run, in order, with the sizes that were read. -/
def readings (events : List Event) : List (Text × Nat) :=
  events.filterMap Event.reading?

namespace Plan

variable {α β : Type}

/-- What an event makes of a setting. -/
def Setting.after (s : Setting) : Event → Setting
  | .look => { s with signal := (Signal.look? s.signal).2 }
  | .measure text _ raises => {
      estimator := (s.estimator.measure text).2.2
      signal := if raises then s.signal.map Signal.raise else s.signal }

def Setting.measurement (s : Setting) (text : Text) : Event :=
  .measure text (s.estimator.measure text).1 (s.estimator.measure text).2.1

/-- The events of a run, in order. -/
def trace : Plan α → Setting → List Event
  | .done _, _ => []
  | .stop _, _ => []
  | .look next, s =>
    .look :: if (Signal.look? s.signal).1 then [] else next.trace (s.after .look)
  | .measure text next, s =>
    s.measurement text :: (next (s.estimator.measure text).1).trace (s.after (s.measurement text))

theorem run_look (next : Plan α) (s : Setting) :
    (look next).run s =
      if (Signal.look? s.signal).1 then (.error .cancelled, s.after .look)
      else next.run (s.after .look) := rfl

theorem run_measure (text : Text) (next : Nat → Plan α) (s : Setting) :
    (measure text next).run s =
      (next (s.estimator.measure text).1).run (s.after (s.measurement text)) := rfl

/-- The setting after a run is what the events made of it. -/
theorem run_snd (plan : Plan α) (s : Setting) :
    (plan.run s).2 = (plan.trace s).foldl Setting.after s := by
  induction plan generalizing s with
  | done | stop => rfl
  | look next ih =>
    rw [run_look, trace, List.foldl_cons]
    split
    · rfl
    · exact ih _
  | measure text next ih => exact ih _ _

theorem estimator_foldl_after (events : List Event) (s : Setting) :
    (events.foldl Setting.after s).estimator =
      s.estimator.after ((readings events).map Prod.fst) := by
  induction events generalizing s with
  | nil => rfl
  | cons event events ih => cases event <;> exact ih _

/-- The sizes are those that the estimator reads, text after text. -/
theorem readings_trace (plan : Plan α) (s : Setting) :
    readings (plan.trace s) = s.estimator.read ((readings (plan.trace s)).map Prod.fst) := by
  induction plan generalizing s with
  | done | stop => rfl
  | look next ih =>
    rw [trace]
    split
    · rfl
    · exact ih _
  | measure text next ih => exact congrArg _ (ih _ _)

/-! ## What a plan gives -/

/-- With these sizes of the texts that it measures, a plan ends with a result. -/
inductive Gives : Plan α → List (Text × Nat) → α → Prop
  | done : Gives (.done a) [] a
  | look : Gives next rs a → Gives (.look next) rs a
  | measure : Gives (next n) rs a → Gives (.measure text next) ((text, n) :: rs) a

theorem gives_of_run {plan : Plan α} {s : Setting} {a : α} (h : (plan.run s).1 = .ok a) :
    plan.Gives (readings (plan.trace s)) a := by
  induction plan generalizing s with
  | done b => cases h; exact .done
  | stop => cases h
  | look next ih =>
    rw [run_look] at h
    split at h
    · cases h
    · rename_i hnot
      rw [trace, if_neg hnot]
      exact .look (ih h)
  | measure text next ih => exact .measure (ih _ h)

variable {rs : List (Text × Nat)}

theorem gives_done {a b : α} : (done a).Gives rs b ↔ rs = [] ∧ b = a := by
  constructor
  · rintro ⟨⟩
    exact ⟨rfl, rfl⟩
  · rintro ⟨rfl, rfl⟩
    exact .done

theorem gives_look {next : Plan α} {a : α} : (look next).Gives rs a ↔ next.Gives rs a :=
  ⟨fun | .look h => h, .look⟩

theorem gives_measure {text : Text} {next : Nat → Plan α} {a : α} :
    (measure text next).Gives rs a ↔ ∃ n rest, rs = (text, n) :: rest ∧ (next n).Gives rest a := by
  constructor
  · rintro ⟨⟩
    exact ⟨_, _, rfl, ‹_›⟩
  · rintro ⟨n, rest, rfl, h⟩
    exact .measure h

theorem gives_bind {plan : Plan α} {f : α → Plan β} {b : β} :
    (plan.bind f).Gives rs b ↔
      ∃ rs₁ a rs₂, rs = rs₁ ++ rs₂ ∧ plan.Gives rs₁ a ∧ (f a).Gives rs₂ b := by
  induction plan generalizing rs with
  | done a =>
    constructor
    · exact fun h => ⟨[], a, rs, rfl, .done, h⟩
    · rintro ⟨_, _, _, rfl, ⟨⟩, h⟩
      exact h
  | stop reason =>
    constructor
    · rintro ⟨⟩
    · rintro ⟨_, _, _, _, ⟨⟩, _⟩
  | look next ih => simp only [bind, gives_look, ih]
  | measure text next ih =>
    simp only [bind, gives_measure, ih]
    constructor
    · rintro ⟨n, _, rfl, rs₁, a, rs₂, rfl, h₁, h₂⟩
      exact ⟨_, a, rs₂, rfl, ⟨n, rs₁, rfl, h₁⟩, h₂⟩
    · rintro ⟨_, a, rs₂, rfl, ⟨n, rs₁, rfl, h₁⟩, h₂⟩
      exact ⟨n, _, rfl, rs₁, a, rs₂, rfl, h₁, h₂⟩

/-- Plans that are carried out one after another give the results of each, and read what each
reads. -/
theorem gives_collect {plans : List (Plan (List α))} {as : List α} :
    (collect plans).Gives rs as ↔
      ∃ outs : List (List (Text × Nat) × List α),
        List.Forall₂ (fun plan out => plan.Gives out.1 out.2) plans outs ∧
          rs = outs.flatMap Prod.fst ∧ as = outs.flatMap Prod.snd := by
  induction plans generalizing rs as with
  | nil =>
    rw [collect, gives_done]
    constructor
    · rintro ⟨rfl, rfl⟩
      exact ⟨[], .nil, rfl, rfl⟩
    · rintro ⟨_, ⟨⟩, rfl, rfl⟩
      exact ⟨rfl, rfl⟩
  | cons plan plans ih =>
    simp only [collect, gives_bind, gives_done, ih]
    constructor
    · rintro ⟨rs₁, xs, _, rfl, h, _, ys, _, rfl, ⟨outs, houts, rfl, rfl⟩, rfl, rfl⟩
      exact ⟨(rs₁, xs) :: outs, .cons h houts, by simp, by simp⟩
    · rintro ⟨_, h, rfl, rfl⟩
      obtain ⟨⟩ := h
      rename_i out outs h houts
      exact ⟨_, _, _, rfl, h, _, _, [], (List.append_nil _).symm, ⟨outs, houts, rfl, rfl⟩, rfl, rfl⟩

theorem gives_measureAll {measured out : List (Text × Nat)} {texts : List Text} :
    (measureAll measured texts).Gives rs out ↔
      rs.map Prod.fst = texts ∧ out = measured.reverse ++ rs := by
  induction texts generalizing measured rs with
  | nil =>
    rw [measureAll, gives_done, List.map_eq_nil_iff]
    constructor <;> rintro ⟨rfl, rfl⟩ <;> exact ⟨rfl, by simp⟩
  | cons text texts ih =>
    simp only [measureAll, gives_look, gives_measure, ih]
    constructor
    · rintro ⟨n, rest, rfl, rfl, rfl⟩
      exact ⟨rfl, by simp⟩
    · rintro ⟨hfst, rfl⟩
      cases rs with
      | nil => cases hfst
      | cons r rest =>
        cases hfst
        exact ⟨r.2, rest, rfl, rfl, by simp⟩

end Plan

end SourceIndex.Chunking
