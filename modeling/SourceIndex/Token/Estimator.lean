import SourceIndex.Token.Budget
import SourceIndex.Token.Tokenizer

/-! Estimators count tokens for a model. The tokenizer is loaded when it is first needed, and again at
the next need if loading failed. -/

namespace SourceIndex.Token

/-- Why no tokens were found. -/
inductive TokenError where
  | notLoaded (cause : String)
  | notEncoded (cause : String)
  deriving DecidableEq, Repr

def TokenError.message : TokenError → String
  | .notLoaded cause => "Failed to initialize tokenizer: " ++ cause
  | .notEncoded cause => "Tokenization failed: " ++ cause

/-- A context length must be positive. -/
structure ContextError where
  length : Int
  deriving DecidableEq, Repr

def ContextError.message (e : ContextError) : String :=
  s!"context_length must be positive, got {e.length}"

/-- An estimator, with the numbers of loads and of tokenizer calls it has made. -/
structure Estimator where
  contextLength : Nat
  load : Nat → Except String Tokenizer
  tokenizer : Option Tokenizer
  loads : Nat := 0
  calls : Nat := 0

namespace Estimator

/-- An estimator for a context length, with a tokenizer or with the means to load one. -/
def create (contextLength : Int) (tokenizer : Option Tokenizer)
    (load : Nat → Except String Tokenizer) : Except ContextError Estimator :=
  if contextLength ≤ 0 then .error ⟨contextLength⟩
  else .ok { contextLength := contextLength.toNat, load, tokenizer }

/-- The tokenizer, loaded if it was not yet. -/
def provide (e : Estimator) : Except TokenError Tokenizer × Estimator :=
  match e.tokenizer with
  | some t => (.ok t, e)
  | none =>
    let e := { e with loads := e.loads + 1 }
    match e.load e.loads with
    | .ok t => (.ok t, { e with tokenizer := some t })
    | .error cause => (.error (.notLoaded cause), e)

/-- What one tokenization gave, and whether a signal was raised while it lasted. -/
structure Reading where
  ids : Except TokenError (List Nat)
  raises : Bool := false

def tokenize (e : Estimator) (text : Text) : Reading × Estimator :=
  match e.provide with
  | (.error cause, e) => ({ ids := .error cause }, e)
  | (.ok tokenizer, e) =>
    let e := { e with calls := e.calls + 1 }
    let reply := tokenizer.encode e.calls text
    ({ ids := reply.ids.mapError .notEncoded, raises := reply.raises }, e)

def count (e : Estimator) (text : Text) : Except TokenError Nat × Estimator :=
  let (reading, e) := e.tokenize text
  (reading.ids.map List.length, e)

/-- Why a fit could not be decided. -/
inductive FitError where
  | token (cause : TokenError)
  | budget (cause : BudgetError)
  deriving DecidableEq, Repr

def FitError.message : FitError → String
  | .token cause => cause.message
  | .budget cause => cause.message

/-- Whether a text fits into a part of the context length. The text is counted first. -/
def fits (e : Estimator) (text : Text) (factor : Binary.Number) : Except FitError Bool × Estimator :=
  match e.count text with
  | (.error cause, e) => (.error (.token cause), e)
  | (.ok n, e) =>
    match part e.contextLength factor with
    | .error cause => (.error (.budget cause), e)
    | .ok limit => (.ok ((n : Int) ≤ limit), e)

/-- The most tokens for one chunk. -/
def budget (e : Estimator) (factor : Binary.Number) : Except BudgetError Int :=
  part e.contextLength factor

/-- The number of tokens of a text, estimated where it cannot be measured, and whether a signal was
raised meanwhile. -/
def measure (e : Estimator) (text : Text) : Nat × Bool × Estimator :=
  let (reading, e) := e.tokenize text
  match reading.ids with
  | .ok ids => (ids.length, reading.raises, e)
  | .error _ => (estimate text, reading.raises, e)

end Estimator

end SourceIndex.Token
