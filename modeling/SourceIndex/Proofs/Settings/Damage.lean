import SourceIndex.Proofs.Json.Reading
import SourceIndex.Proofs.Text.Utf8
import SourceIndex.Settings.Basic

/-!
# Settings files that hold no object

Reading a file can fail at its bytes, at its text and at the kind of its value. A text that is no
value, or a value that is no object, leaves the settings as they are without a file. Bytes that are no
text do not: no settings are loaded at all, whatever the environment says. Neither are they from a text
with a number of too many digits, or from one in which more arrays and objects start than there is room
for levels of them.
-/

namespace SourceIndex.Settings

variable {room : Nat} {bytes : List UInt8}

/-- The bytes are the code of a text of an object, however deep it is. -/
def HoldsObject (bytes : List UInt8) : Prop :=
  ∃ t members room, bytes = Text.Utf8.encode t ∧ Json.IsSpaced (room + 1) t (.object members)

/-- A file counts for nothing: all values come from the environment or are built in. -/
structure IsIgnored (room : Nat) (bytes : List UInt8) : Prop where
  load_eq (env : Environment) : load room env (some bytes) = load room env none
  value_eq : ∃ members, restore room bytes = .ok members ∧ ∀ env key, value env members key =
    if (env key.inEnvironment).isEmpty then Json.codes key.builtIn.toList
    else Json.codes (env key.inEnvironment)

/-- A file cannot be read: there are no settings in any environment. -/
def IsFatal (room : Nat) (bytes : List UInt8) (cause : StoreError) : Prop :=
  ∀ env, load room env (some bytes) = .error (.store cause)

theorem value_nil (env : Environment) (key : Key) : value env [] key =
    if (env key.inEnvironment).isEmpty then Json.codes key.builtIn.toList
    else Json.codes (env key.inEnvironment) := by
  have hstored : stored [] key = [] := rfl
  cases h : (env key.inEnvironment).isEmpty <;> simp [value, hstored, h]

theorem isIgnored_of_restore (h : restore room bytes = .ok []) : IsIgnored room bytes where
  load_eq env := by rw [load_of_restore h, load_none]
  value_eq := ⟨[], h, value_nil⟩

/-- Members that were read leave nothing to be said against their file. -/
theorem ofMembers_ne_error (env : Environment) (members : Members) (cause : StoreError) :
    ofMembers env members ≠ .error (.store cause) := by
  intro h
  simp only [ofMembers] at h
  split at h <;> cases h

/-- A value that is no object and that there is room for is ignored. -/
theorem isIgnored_of_isSpaced {t : Text} (ht : bytes = Text.Utf8.encode t) {value : Json}
    (hvalue : Json.IsSpaced (room + 1) t value) (hobject : ∀ members, value ≠ .object members) :
    IsIgnored room bytes := by
  have hdecode := Text.Utf8.decode_eq_ok_iff.mpr ht
  have hread := Json.read_eq_ok_iff.mpr hvalue
  cases value with
  | object members => exact absurd rfl (hobject members)
  | _ => exact isIgnored_of_restore (by simp only [restore, hdecode, hread])

/-- A text of no object is ignored unless it has a number of too many digits, or there is not enough
room for what is nested in it; a value that there is room for is always ignored. Bytes of no text are an
error in every environment. -/
theorem load_of_not_holdsObject (h : ¬ HoldsObject bytes) :
    (∃ t, bytes = Text.Utf8.encode t ∧
      (∀ value, Json.IsSpaced (room + 1) t value → IsIgnored room bytes) ∧
      (IsIgnored room bytes ∨
        (∃ count, Json.HasRun t count ∧ IsFatal room bytes (.tooManyDigits count)) ∨
        ∃ container, Json.Exceeds (room + 1) t ∧ IsFatal room bytes (.tooDeep container))) ∨
    (∀ t, bytes ≠ Text.Utf8.encode t) ∧ ∃ cause, IsFatal room bytes (.encoding cause) := by
  cases hdecode : Text.Utf8.decode bytes with
  | error cause =>
    refine .inr ⟨fun t ht => ?_, cause, load_of_restore_error (by simp only [restore, hdecode])⟩
    cases hdecode.symm.trans (Text.Utf8.decode_eq_ok_iff.mpr ht)
  | ok t =>
    have ht := Text.Utf8.decode_eq_ok_iff.mp hdecode
    have hobject {value : Json} (hvalue : Json.IsSpaced (room + 1) t value) :
        IsIgnored room bytes := by
      refine isIgnored_of_isSpaced ht hvalue ?_
      rintro members rfl
      exact h ⟨t, members, _, ht, hvalue⟩
    refine .inl ⟨t, ht, fun _ => hobject, ?_⟩
    cases hread : Json.read room t with
    | error e =>
      cases e with
      | malformed => exact .inl (isIgnored_of_restore (by simp only [restore, hdecode, hread]))
      | tooManyDigits count =>
        exact .inr (.inl ⟨count, Json.hasRun_of_read hread,
          load_of_restore_error (by simp only [restore, hdecode, hread])⟩)
      | tooDeep container =>
        exact .inr (.inr ⟨container, Json.exceeds_of_read hread,
          load_of_restore_error (by simp only [restore, hdecode, hread])⟩)
    | ok value => exact .inl (hobject (Json.read_eq_ok_iff.mp hread))

/-- Bytes hold no object if the text that they are read as is not read as one. -/
theorem not_holdsObject {t : Text} (hdecode : Text.Utf8.decode bytes = .ok t)
    (hread : ∀ room members, Json.read room t ≠ .ok (.object members)) : ¬ HoldsObject bytes := by
  rintro ⟨u, members, room, hbytes, hu⟩
  obtain rfl := Except.ok.inj ((Text.Utf8.decode_eq_ok_iff.mpr hbytes).symm.trans hdecode)
  exact hread room members (Json.read_eq_ok_iff.mpr hu)

/-- An array in an array. -/
def nested : Text :=
  ['[', '[', ']', ']']

/-- It is ignored where there is room for the inner array, and an error where there is not. -/
theorem load_of_not_holdsObject_nested :
    ¬ HoldsObject (Text.Utf8.encode nested) ∧ IsIgnored 1 (Text.Utf8.encode nested) ∧
      IsFatal 0 (Text.Utf8.encode nested) (.tooDeep .array) := by
  have hdecode := Text.Utf8.decode_eq_ok_iff.mpr (Eq.refl (Text.Utf8.encode nested))
  have hread (room : Nat) : Json.read (room + 1) nested = .ok (.array [.array []]) := rfl
  have hdeep : Json.read 0 nested = .error (.tooDeep .array) := rfl
  have h : ¬ HoldsObject (Text.Utf8.encode nested) := by
    refine not_holdsObject hdecode fun room members hobject => ?_
    cases room with
    | zero => cases hdeep.symm.trans hobject
    | succ room => cases (hread room).symm.trans hobject
  refine ⟨h, ?_, load_of_restore_error (by simp only [restore, hdecode, hdeep])⟩
  rcases load_of_not_holdsObject h with ⟨t, ht, hignored, -⟩ | ⟨hnone, -⟩
  · obtain rfl := Except.ok.inj (hdecode.symm.trans (Text.Utf8.decode_eq_ok_iff.mpr ht))
    exact hignored _ (Json.read_eq_ok_iff.mp (hread 0))
  · exact absurd rfl (hnone nested)

/-- A byte that no text has in its code. -/
theorem load_ne_of_ill_formed : ¬ HoldsObject [0xff] ∧
    load 900 (fun _ => []) (some [0xff]) =
      .error (.store (.encoding ⟨0, [0xff], .invalidStart⟩)) ∧
    load 900 (fun _ => []) (some [0xff]) ≠ load 900 (fun _ => []) none := by
  have hdecode : Text.Utf8.decode [0xff] = .error ⟨0, [0xff], .invalidStart⟩ := by
    simp [Text.Utf8.decode, Text.Utf8.pieces, Text.Utf8.piece, Text.Utf8.tailRanges,
      Text.Utf8.decodePieces]
  have hrestore : restore 900 [0xff] = .error (.encoding ⟨0, [0xff], .invalidStart⟩) := by
    simp only [restore, hdecode]
  have hload := load_of_restore_error hrestore fun _ => []
  refine ⟨?_, hload, fun h => ?_⟩
  · rintro ⟨t, members, room, hbytes, -⟩
    cases hdecode.symm.trans (Text.Utf8.decode_eq_ok_iff.mpr hbytes)
  · rw [hload, load_none] at h
    exact ofMembers_ne_error _ _ _ h.symm

end SourceIndex.Settings
