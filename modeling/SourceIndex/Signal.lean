/-! Cancellation signals. -/

namespace SourceIndex

/-- A cancellation signal. It is raised from outside, or rises by itself after so many more looks at
it; once raised it stays raised. -/
structure Signal where
  raised : Bool := false
  remaining : Option Nat := none
  deriving DecidableEq, Repr

namespace Signal

/-- Looks at the signal: whether it is raised, and the signal from then on. -/
def look (s : Signal) : Bool × Signal :=
  if s.raised then (true, s)
  else
    match s.remaining with
    | none => (false, s)
    | some 0 => (true, { s with raised := true })
    | some (n + 1) => (false, { s with remaining := some n })

def raise (s : Signal) : Signal :=
  { s with raised := true }

/-- Whether the signal ends up raised if it is looked at again and again. -/
def rises (s : Signal) : Bool :=
  s.raised || s.remaining.isSome

/-- Looks at a signal that may be missing, and then is not raised. -/
def look? : Option Signal → Bool × Option Signal
  | none => (false, none)
  | some s => (s.look.1, some s.look.2)

theorem look_eq_of_raised {s : Signal} (h : s.raised = true) : s.look = (true, s) := by
  simp [look, h]

theorem raised_look {s : Signal} (h : s.look.1 = true) : s.look.2.raised = true := by
  grind [look]

theorem look?_of_not_rises {s : Option Signal} (h : s.any rises = false) : look? s = (false, s) := by
  cases s with
  | none => rfl
  | some s =>
    obtain ⟨hraised, hremaining⟩ := Bool.or_eq_false_iff.mp h
    rw [Option.isSome_eq_false_iff, Option.isNone_iff_eq_none] at hremaining
    simp only [look?, look, hraised, hremaining, if_neg Bool.false_ne_true]

@[simp] theorem raised_raise (s : Signal) : s.raise.raised = true := rfl

end Signal

end SourceIndex
