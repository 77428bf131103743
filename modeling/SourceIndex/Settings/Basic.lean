import SourceIndex.Embedding.Pooling
import SourceIndex.Settings.Key
import SourceIndex.Settings.Store
import SourceIndex.Settings.Workers
import SourceIndex.Text.Lower

/-! Settings. The environment goes before the settings file, and that before what is built in; a value
that is empty counts as not given. -/

namespace SourceIndex

/-- What can be set. No number of workers means that it follows from the number of cores. -/
structure Settings where
  model : Text
  modelPath : Text
  contextLength : Int
  pooling : Text
  normalize : Bool
  filter : Bool
  workers : Option Nat

namespace Settings

/-- The values of variables; one that is not set is empty. -/
abbrev Environment := String → Text

/-- The value of a key in a settings file, as plain text. -/
def stored (members : Members) (key : Key) : List Nat :=
  match members.lookup (Json.codes key.inFile.toList) with
  | none | some .null => []
  | some value => value.plain

/-- The value of a key, as code points. -/
def value (env : Environment) (members : Members) (key : Key) : List Nat :=
  if !(env key.inEnvironment).isEmpty then Json.codes (env key.inEnvironment)
  else if !(stored members key).isEmpty then stored members key
  else Json.codes key.builtIn.toList

/-- Why there are no settings. -/
inductive LoadError where
  | store (cause : StoreError)
  | contextLength (value : List Nat) (cause : Text.IntegerError)
  deriving DecidableEq, Repr

/-- How much of a value is shown when it is no integer. -/
def shownLength : Nat := 200

def LoadError.message : LoadError → String
  | .store cause => cause.message
  | .contextLength value .malformed =>
    "invalid literal for int() with base 10: " ++
      String.ofList ((Text.quoteCodes value).take shownLength)
  | .contextLength _ (.tooManyDigits count) => Text.tooManyDigitsMessage count

/-- A text in small letters, without white space around it. -/
def fold (t : Text) : Text :=
  Text.lower (Text.trim t)

/-- Whether a word switches something on. -/
def isOn (t : Text) : Bool :=
  ["1".toList, "true".toList, "yes".toList, "on".toList].contains (fold t)

/-- The number of workers that a text sets; nothing but a positive number sets one. -/
def workersOf (t : Text) : Option Nat :=
  match Text.readInteger (Text.trim t) with
  | .ok n => if 0 < n then some n.toNat else none
  | .error _ => none

/-- The settings that an environment and the members of a settings file give. -/
def ofMembers (env : Environment) (members : Members) : Except LoadError Settings :=
  let text (key : Key) : Text := Json.text (value env members key)
  match Text.readInteger (text .contextLength) with
  | .error cause => .error (.contextLength (value env members .contextLength) cause)
  | .ok contextLength => .ok {
      model := text .model
      modelPath := text .modelPath
      contextLength
      pooling := fold (text .pooling)
      normalize := isOn (text .normalize)
      filter := isOn (text .filter)
      workers := workersOf (text .maxWorkers) }

/-- The settings that an environment and the bytes of a settings file, if there is one, give. The file
is read with so much room. -/
def load (room : Nat) (env : Environment) (file : Option (List UInt8)) :
    Except LoadError Settings :=
  match file.mapM (restore room) with
  | .error cause => .error (.store cause)
  | .ok members => ofMembers env (members.getD [])

variable {room : Nat} {bytes : List UInt8}

theorem load_none (room : Nat) (env : Environment) : load room env none = ofMembers env [] := rfl

theorem load_of_restore {members : Members} (h : restore room bytes = .ok members)
    (env : Environment) : load room env (some bytes) = ofMembers env members := by
  simp only [load, Option.mapM_some, h]
  rfl

theorem load_of_restore_error {cause : StoreError} (h : restore room bytes = .error cause)
    (env : Environment) : load room env (some bytes) = .error (.store cause) := by
  simp only [load, Option.mapM_some, h]
  rfl

/-- The number of workers, where so many cores were found. -/
def workerCount (s : Settings) (found : Option Int) : Except CoreOverflow Nat :=
  match s.workers with
  | some n => .ok n
  | none => workersFor (coreCount none found)

/-- The options for vectors; an unknown strategy gives way to the mean. -/
def options (s : Settings) : Embedding.Options :=
  let name := String.ofList s.pooling
  { pooling := if (Embedding.Strategy.ofName? name).isSome then name else "mean"
    normalize := s.normalize }

end Settings

end SourceIndex
