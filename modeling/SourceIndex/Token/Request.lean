import SourceIndex.Token.Estimator

/-! Requests to an estimator, which are served one after another. -/

namespace SourceIndex.Token

/-- What an estimator can be asked for. A factor tells which part of the context length is meant. -/
inductive Request where
  | tokenizer
  | tokenize (text : Text)
  | count (text : Text)
  | fits (text : Text) (factor : Binary.Number)
  | budget (factor : Binary.Number)
  | contextLength

/-- Whether a request cannot be served without the tokenizer. -/
def Request.needsTokenizer : Request → Bool
  | .tokenizer | .tokenize _ | .count _ | .fits .. => true
  | .budget _ | .contextLength => false

/-- What is answered to a request. -/
inductive Answer where
  | tokenizer (tokenizer : Tokenizer)
  | ids (ids : List Nat)
  | count (n : Nat)
  | fits (fits : Bool)
  | budget (limit : Int)
  | contextLength (length : Nat)

namespace Estimator

/-- The answer to a request, and the estimator after it. -/
def serve (e : Estimator) : Request → Except FitError Answer × Estimator
  | .tokenizer =>
    let (result, e) := e.provide
    ((result.map .tokenizer).mapError .token, e)
  | .tokenize text =>
    let (reading, e) := e.tokenize text
    ((reading.ids.map .ids).mapError .token, e)
  | .count text =>
    let (result, e) := e.count text
    ((result.map .count).mapError .token, e)
  | .fits text factor =>
    let (result, e) := e.fits text factor
    (result.map .fits, e)
  | .budget factor => (((e.budget factor).map .budget).mapError .budget, e)
  | .contextLength => (.ok (.contextLength e.contextLength), e)

/-- An answer, and how many loads had been attempted when it was given. -/
structure Served where
  answer : Except FitError Answer
  loads : Nat

/-- What is served to requests that are made one after another. -/
def serveAll (e : Estimator) : List Request → List Served
  | [] => []
  | r :: rs => ⟨(e.serve r).1, (e.serve r).2.loads⟩ :: (e.serve r).2.serveAll rs

end Estimator

end SourceIndex.Token
