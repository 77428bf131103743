import SourceIndex.Proofs.Token.Measure

/-! # Tokenizers in place of estimators

What an estimator answers to a call depends on the number of the call and on the text, not on the texts
of the calls before (`after_eq_of_length_eq`). So a tokenizer that never fails can stand in for an
estimator whose tokenizer fails to load or to encode, at any of its calls (`Tokenizer.StandsIn`,
`standsIn_substitute`): it gives a token for every four characters, rounded up, wherever the estimator
fails, and the same tokens wherever it does not. The two agree on whatever is measured
(`agrees_of_standsIn`). -/

namespace SourceIndex.Token

/-- A tokenizer never fails and answers each call as an estimator does: by the same tokens, or by one
for every four characters, rounded up, if the call fails. -/
structure Tokenizer.StandsIn (t : Tokenizer) (e : Estimator) : Prop where
  same : ∀ before text ids, ((e.after before).tokenize text).1.ids = .ok ids →
    (t.encode (before.length + 1) text).ids = .ok ids
  estimated : ∀ before text cause, ((e.after before).tokenize text).1.ids = .error cause →
    ∃ ids, (t.encode (before.length + 1) text).ids = .ok ids ∧ ids.length = (text.length + 3) / 4
  raises : ∀ before text, (t.encode (before.length + 1) text).raises =
    ((e.after before).tokenize text).1.raises

namespace Estimator

/-- The estimator that has a tokenizer at hand, which was not called yet. -/
def withTokenizer (e : Estimator) (t : Tokenizer) : Estimator :=
  { e with tokenizer := some t, calls := 0 }

/-- Two estimators read the same sizes off any texts, and raise a signal at the same time. -/
def Agrees (e e' : Estimator) : Prop :=
  ∀ before text, ((e.after before).measure text).1 = ((e'.after before).measure text).1 ∧
    ((e.after before).measure text).2.1 = ((e'.after before).measure text).2.1

/-- The tokenizer that stands in for an estimator. -/
def substitute (e : Estimator) : Tokenizer where
  encode n text :=
    let reading := ((e.after (List.replicate (n - 1) [])).tokenize text).1
    let ids := match reading.ids with
      | .ok ids => ids
      | .error _ => List.range (estimate text)
    { ids := .ok ids, raises := reading.raises }

/-- Whether a text fits by its tokens, or by the estimate of their number if it is not tokenized. -/
def fitsOrEstimate (e : Estimator) (text : Text) (factor : Binary.Number) :
    Except BudgetError Bool × Estimator :=
  match e.fits text factor with
  | (.ok fits, e) => (.ok fits, e)
  | (.error (.budget cause), e) => (.error cause, e)
  | (.error (.token _), e) =>
    ((part e.contextLength factor).map fun limit => (estimate text : Int) ≤ limit, e)

variable {e e' : Estimator} {t : Tokenizer}

theorem tokenize_snd_eq (text text' : Text) : (e.tokenize text).2 = (e.tokenize text').2 := by
  simp only [tokenize]
  split <;> rfl

theorem after_eq_of_length_eq {before before' : List Text} (h : before.length = before'.length) :
    e.after before = e.after before' := by
  induction before generalizing e before' with
  | nil => rw [List.eq_nil_of_length_eq_zero h.symm]
  | cons text before ih =>
    cases before' with
    | nil => cases h
    | cons text' before' =>
      rw [after_cons, after_cons, measure_snd, measure_snd, tokenize_snd_eq text text']
      exact ih (Nat.succ.inj h)

theorem Agrees.measure (h : e.Agrees e') (text : Text) :
    (e.measure text).2.2.Agrees (e'.measure text).2.2 :=
  fun before => h (text :: before)

theorem calls_after (h : e.tokenizer = some t) (before : List Text) :
    (e.after before).calls = e.calls + before.length := by
  induction before generalizing e with
  | nil => rfl
  | cons text before ih =>
    have hcalls : (e.measure text).2.2.calls = e.calls + 1 := by
      rw [measure_snd]
      simp only [tokenize, provide, h]
    rw [after_cons, ih (tokenizer_measure h text), hcalls, List.length_cons]
    omega

theorem agrees_of_standsIn (h : t.StandsIn e) : e.Agrees (e.withTokenizer t) := by
  intro before text
  obtain ⟨hsize, hraises⟩ :=
    measure_of_tokenizer (tokenizer_after (e := e.withTokenizer t) rfl before) text
  have hcalls : ((e.withTokenizer t).after before).calls + 1 = before.length + 1 := by
    rw [calls_after (e := e.withTokenizer t) rfl before]
    exact congrArg _ (Nat.zero_add _)
  rw [hcalls] at hsize hraises
  refine ⟨?_, by rw [hraises, h.raises, measure_snd]⟩
  rw [hsize, measure_fst]
  cases hids : ((e.after before).tokenize text).1.ids with
  | ok ids => rw [h.same before text ids hids]
  | error cause =>
    obtain ⟨ids, hids', hlength⟩ := h.estimated before text cause hids
    rw [hids']
    exact hlength.symm

theorem standsIn_substitute (e : Estimator) : e.substitute.StandsIn e := by
  have hafter (before : List Text) :
      e.after (List.replicate (before.length + 1 - 1) []) = e.after before :=
    after_eq_of_length_eq (by rw [List.length_replicate, Nat.add_sub_cancel])
  constructor
  · intro before text ids hids
    simp only [substitute, hafter, hids]
  · intro before text cause hids
    refine ⟨List.range (estimate text), ?_, List.length_range⟩
    simp only [substitute, hafter, hids]
  · intro before text
    simp only [substitute, hafter]

/-- The estimate is held against the same limit as the tokens. -/
theorem fitsOrEstimate_eq {factor : Binary.Number} {limit : Int}
    (h : part e.contextLength factor = .ok limit) (text : Text) :
    e.fitsOrEstimate text factor =
      (.ok (((e.measure text).1 : Int) ≤ limit), (e.measure text).2.2) := by
  have hlength : (e.tokenize text).2.contextLength = e.contextLength := by
    have hmeasure := contextLength_measure (e := e) text
    rwa [measure_snd] at hmeasure
  have hcount : e.count text = ((e.tokenize text).1.ids.map List.length, (e.tokenize text).2) := rfl
  rw [fitsOrEstimate, fits, hcount, measure_snd, measure_fst]
  cases (e.tokenize text).1.ids with
  | ok ids => simp only [Except.map, hlength, h]
  | error cause => simp only [Except.map, hlength, h]

end Estimator

end SourceIndex.Token
