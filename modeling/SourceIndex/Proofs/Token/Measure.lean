import SourceIndex.Token.Estimator

/-! # Estimators over time

An estimator changes with each text it measures, since it may load its tokenizer and counts its
calls. What it answers is therefore said of all the estimators that it becomes (`Estimator.after`):
its answers depend on the text alone (`IsStateless`), it never raises a signal (`IsQuiet`), or it
counts every text and never fails (`Counts`). A tokenizer at hand that always answers alike has what
it takes (`isStateless_of_tokenizer`, `isQuiet_of_tokenizer`, `counts_of_tokenizer`). -/

namespace SourceIndex.Token.Estimator

/-- The estimator after it measured some texts. -/
def after (e : Estimator) (texts : List Text) : Estimator :=
  texts.foldl (fun e text => (e.measure text).2.2) e

/-- Texts that are measured one after another, with the sizes that are read. -/
def read (e : Estimator) : List Text → List (Text × Nat)
  | [] => []
  | text :: texts => (text, (e.measure text).1) :: (e.measure text).2.2.read texts

/-- What was measured before changes neither the size of a text nor whether a signal is raised. -/
def IsStateless (e : Estimator) : Prop :=
  ∀ before text, ((e.after before).measure text).1 = (e.measure text).1 ∧
    ((e.after before).measure text).2.1 = (e.measure text).2.1

/-- No signal is raised while a text is measured. -/
def IsQuiet (e : Estimator) : Prop :=
  ∀ before text, ((e.after before).measure text).2.1 = false

/-- Each text is tokenized, into as many tokens as `size` tells. -/
def Counts (e : Estimator) (size : Text → Nat) : Prop :=
  ∀ before text, ∃ ids, ((e.after before).tokenize text).1.ids = .ok ids ∧ ids.length = size text

/-- Texts are read one after another: each has the size of its tokens, or one for every four characters,
rounded up, where it is not tokenized. -/
inductive IsReading : Estimator → List (Text × Nat) → Prop where
  | nil {e : Estimator} : IsReading e []
  | tokenized {e : Estimator} {text : Text} {ids : List Nat} {rest : List (Text × Nat)} :
      (e.tokenize text).1.ids = .ok ids → IsReading (e.tokenize text).2 rest →
      IsReading e ((text, ids.length) :: rest)
  | estimated {e : Estimator} {text : Text} {cause : TokenError} {rest : List (Text × Nat)} :
      (e.tokenize text).1.ids = .error cause → IsReading (e.tokenize text).2 rest →
      IsReading e ((text, (text.length + 3) / 4) :: rest)

variable {e : Estimator} {size : Text → Nat}

theorem measure_fst (text : Text) : (e.measure text).1 =
    match (e.tokenize text).1.ids with
    | .ok ids => ids.length
    | .error _ => estimate text := by
  simp only [measure]
  split <;> simp_all

theorem measure_snd (text : Text) :
    (e.measure text).2 = ((e.tokenize text).1.raises, (e.tokenize text).2) := by
  simp only [measure]
  split <;> rfl

theorem isReading_read (texts : List Text) : e.IsReading (e.read texts) := by
  induction texts generalizing e with
  | nil => exact .nil
  | cons text texts ih =>
    rw [read, measure_fst, measure_snd]
    cases hids : (e.tokenize text).1.ids with
    | ok ids => exact .tokenized hids ih
    | error cause => exact .estimated hids ih

@[simp] theorem after_nil : e.after [] = e := rfl

@[simp] theorem after_cons (text : Text) (texts : List Text) :
    e.after (text :: texts) = (e.measure text).2.2.after texts := rfl

theorem after_append (texts texts' : List Text) :
    e.after (texts ++ texts') = (e.after texts).after texts' :=
  List.foldl_append

@[simp] theorem contextLength_measure (text : Text) :
    (e.measure text).2.2.contextLength = e.contextLength := by
  simp only [measure, tokenize, provide]
  grind

@[simp] theorem contextLength_after (texts : List Text) :
    (e.after texts).contextLength = e.contextLength := by
  induction texts generalizing e with
  | nil => rfl
  | cons text texts ih => rw [after_cons, ih, contextLength_measure]

theorem Counts.measure (h : e.Counts size) (text : Text) : (e.measure text).2.2.Counts size :=
  fun before => h (text :: before)

theorem Counts.size_eq (h : e.Counts size) (text : Text) : (e.measure text).1 = size text := by
  obtain ⟨ids, hids, hsize⟩ := h [] text
  rw [after_nil] at hids
  simp only [Estimator.measure, hids, hsize]

theorem Counts.read_eq (h : e.Counts size) (texts : List Text) :
    e.read texts = texts.map fun text => (text, size text) := by
  induction texts generalizing e with
  | nil => rfl
  | cons text texts ih => rw [read, h.size_eq, ih (h.measure text), List.map_cons]

theorem IsQuiet.measure (h : e.IsQuiet) (text : Text) : (e.measure text).2.2.IsQuiet :=
  fun before => h (text :: before)

/-! ## Estimators with a tokenizer at hand -/

variable {t : Tokenizer}

theorem tokenizer_measure (h : e.tokenizer = some t) (text : Text) :
    (e.measure text).2.2.tokenizer = some t := by
  simp only [measure, tokenize, provide, h]
  grind

theorem tokenizer_after (h : e.tokenizer = some t) (texts : List Text) :
    (e.after texts).tokenizer = some t := by
  induction texts generalizing e with
  | nil => exact h
  | cons text texts ih => exact ih (tokenizer_measure h text)

theorem tokenize_of_tokenizer (h : e.tokenizer = some t) (text : Text) :
    (e.tokenize text).1 =
      { ids := (t.encode (e.calls + 1) text).ids.mapError .notEncoded
        raises := (t.encode (e.calls + 1) text).raises } := by
  simp only [tokenize, provide, h]

theorem measure_of_tokenizer (h : e.tokenizer = some t) (text : Text) :
    (e.measure text).1 =
      (match (t.encode (e.calls + 1) text).ids with
      | .ok ids => ids.length
      | .error _ => estimate text) ∧
    (e.measure text).2.1 = (t.encode (e.calls + 1) text).raises := by
  simp only [measure, tokenize, provide, h]
  cases (t.encode (e.calls + 1) text).ids <;> exact ⟨rfl, rfl⟩

theorem isStateless_of_tokenizer (h : e.tokenizer = some t)
    (ht : ∀ m n text, t.encode m text = t.encode n text) : e.IsStateless := by
  intro before text
  have h₁ := measure_of_tokenizer (tokenizer_after h before) text
  have h₂ := measure_of_tokenizer h text
  rw [ht _ (e.calls + 1)] at h₁
  exact ⟨h₁.1.trans h₂.1.symm, h₁.2.trans h₂.2.symm⟩

theorem isQuiet_of_tokenizer (h : e.tokenizer = some t)
    (ht : ∀ n text, (t.encode n text).raises = false) : e.IsQuiet :=
  fun before text => (measure_of_tokenizer (tokenizer_after h before) text).2.trans (ht _ text)

theorem counts_of_tokenizer (h : e.tokenizer = some t)
    (ht : ∀ n text, ∃ ids, (t.encode n text).ids = .ok ids ∧ ids.length = size text) :
    e.Counts size := by
  intro before text
  obtain ⟨ids, hids, hsize⟩ := ht ((e.after before).calls + 1) text
  refine ⟨ids, ?_, hsize⟩
  rw [tokenize_of_tokenizer (tokenizer_after h before), hids]
  rfl

end SourceIndex.Token.Estimator
