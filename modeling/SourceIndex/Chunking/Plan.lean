import SourceIndex.Signal
import SourceIndex.Token.Estimator

/-! Plans: computations that look at a cancellation signal and measure texts. A plan is a tree of such
steps, so that one plan can be carried out against any signal and any estimator. -/

namespace SourceIndex.Chunking

/-- Why a plan was not carried out to its end. -/
inductive Stop where
  | cancelled
  | budget (cause : Token.BudgetError)
  deriving DecidableEq, Repr

def cancelledMessage : String := "Operation cancelled"

def Stop.message : Stop → String
  | .cancelled => cancelledMessage
  | .budget cause => cause.message

/-- A plan for a result: it looks at the signal before it goes on, and goes on with the number of
tokens of a text. -/
inductive Plan (α : Type) where
  | done (result : α)
  | stop (reason : Stop)
  | look (next : Plan α)
  | measure (text : Text) (next : Nat → Plan α)

namespace Plan

variable {α β : Type}

def bind (plan : Plan α) (f : α → Plan β) : Plan β :=
  match plan with
  | .done a => f a
  | .stop reason => .stop reason
  | .look next => .look (next.bind f)
  | .measure text next => .measure text fun n => (next n).bind f

instance : Monad Plan where
  pure := .done
  bind := .bind

/-- The results of plans, one after another. -/
def collect : List (Plan (List α)) → Plan (List α)
  | [] => .done []
  | plan :: plans => plan.bind fun xs => (collect plans).bind fun ys => .done (xs ++ ys)

/-- Looks at the signal and measures, for each text in turn; `measured` has those before, latest
first. -/
def measureAll (measured : List (Text × Nat)) : List Text → Plan (List (Text × Nat))
  | [] => .done measured.reverse
  | text :: texts => .look (.measure text fun n => measureAll ((text, n) :: measured) texts)

/-- What plans are carried out against. -/
structure Setting where
  estimator : Token.Estimator
  signal : Option Signal

def run : Plan α → Setting → Except Stop α × Setting
  | .done a, setting => (.ok a, setting)
  | .stop reason, setting => (.error reason, setting)
  | .look next, setting =>
    let (raised, signal) := Signal.look? setting.signal
    let setting := { setting with signal }
    if raised then (.error .cancelled, setting) else next.run setting
  | .measure text next, setting =>
    let (n, raises, estimator) := setting.estimator.measure text
    let signal := if raises then setting.signal.map Signal.raise else setting.signal
    (next n).run { estimator, signal }

theorem bind_done (plan : Plan α) : plan.bind .done = plan := by
  induction plan with
  | done | stop => rfl
  | look _ ih => rw [bind, ih]
  | measure _ _ ih => simp only [bind, ih]

theorem bind_assoc {γ : Type} (plan : Plan α) (f : α → Plan β) (g : β → Plan γ) :
    (plan.bind f).bind g = plan.bind fun a => (f a).bind g := by
  induction plan with
  | done | stop => rfl
  | look _ ih => simp only [bind, ih]
  | measure _ _ ih => simp only [bind, ih]

theorem run_bind (plan : Plan α) (f : α → Plan β) (s : Setting) :
    (plan.bind f).run s =
      match plan.run s with
      | (.ok a, s) => (f a).run s
      | (.error reason, s) => (.error reason, s) := by
  induction plan generalizing s with
  | done | stop => rfl
  | look _ ih =>
    simp only [bind, run]
    split
    · rfl
    · exact ih _
  | measure _ _ ih => exact ih _ _

end Plan

end SourceIndex.Chunking
