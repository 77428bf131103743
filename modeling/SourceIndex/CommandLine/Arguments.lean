import SourceIndex.CommandLine.Grammar

/-! Reading command lines. The main level has a command as its operand, and what follows the command is
read at the level of that command. -/

namespace SourceIndex.CommandLine

/-- Why the reading of a level stopped: help was asked for, or there is an error. -/
inductive Halt where
  | help
  | usage (cause : UsageError)
  deriving DecidableEq, Repr

/-- What a command line says of an option: nothing, that its value is void, or its value. -/
inductive Given (α : Type) where
  | absent
  | void
  | value (a : α)
  deriving DecidableEq, Repr

namespace Given

def map {α β : Type} (f : α → β) : Given α → Given β
  | .absent => .absent
  | .void => .void
  | .value a => .value (f a)

/-- The value, unless it is void; `default` is the value of an option that is absent. -/
def orDefault {α : Type} (default : α) : Given α → Option α
  | .absent => some default
  | .void => none
  | .value a => some a

end Given

/-- What a level was found to hold: its options with their values, latest first and missing where they
are void, the words of its operand, and the words that nothing was made of. -/
structure Found where
  values : List (OptionSpec × Option Text) := []
  operand : Option (List Text) := none
  extras : List Text := []

namespace Found

/-- What is said of an option, the latest if it was given more than once. -/
def given (f : Found) (o : OptionSpec) : Given Text :=
  match f.values.lookup o with
  | none => .absent
  | some none => .void
  | some (some value) => .value value

/-- Notes an option with its value. -/
def note (f : Found) (o : OptionSpec) (value : Text) : Except Halt Found :=
  match o.takes with
  | .help => .error .help
  | .integer =>
    match Text.readInteger value with
    | .ok _ => .ok { f with values := (o, some value) :: f.values }
    | .error _ => .error (.usage (.notInteger o.label value))
  | _ => .ok { f with values := (o, some value) :: f.values }

end Found

/-- What an option makes of a value attached to it. The separator is dropped where it stands for a
value, which then is void. An option without a value refuses one. But behind a single dash several
letters can stand, each an option; the one for help is the only such option that there is, so that what
remains when its letter was taken off again and again must be nothing. -/
def noteAttached (f : Found) (m : Meaning) (value : Text) : Except Halt Found :=
  match m.spec.takes with
  | .text | .integer =>
    if value = ['-', '-'] then .ok { f with values := (m.spec, none) :: f.values }
    else f.note m.spec value
  | .nothing | .help =>
    let rest := value.dropWhile fun c => m.letter? == some c
    if !value.isEmpty && rest.isEmpty then f.note m.spec []
    else .error (.usage (.valueIgnored m.spec.label rest))

/-- The operand among words without options: it may stand behind the separator. -/
def finish (l : Level) (f : Found) (words : List Word) : Found :=
  match f.operand, words with
  | none, .separator :: .plain t :: rest =>
    if l.takesRest then { f with operand := some (words.map Word.text) }
    else { f with operand := some [t], extras := f.extras ++ rest.map Word.text }
  | none, .plain t :: .separator :: rest =>
    if l.takesRest then { f with operand := some (words.map Word.text) }
    else { f with operand := some [t], extras := f.extras ++ rest.map Word.text }
  | none, .plain t :: rest =>
    if l.takesRest then { f with operand := some (words.map Word.text) }
    else { f with operand := some [t], extras := f.extras ++ rest.map Word.text }
  | _, words => { f with extras := f.extras ++ words.map Word.text }

/-- Goes through the words of a level up to the last option. -/
def scan (l : Level) (f : Found) : List Word → Except Halt Found
  | [] => .ok f
  | .option t none :: rest => scan l { f with extras := f.extras ++ [t] } rest
  | .option _ (some m) :: rest =>
    match m.attached, m.spec.takes, rest with
    | some value, _, rest =>
      match noteAttached f m value with
      | .error halt => .error halt
      | .ok f => scan l f rest
    | none, .nothing, rest | none, .help, rest =>
      match f.note m.spec [] with
      | .error halt => .error halt
      | .ok f => scan l f rest
    | none, _, .plain value :: rest =>
      match f.note m.spec value with
      | .error halt => .error halt
      | .ok f => scan l f rest
    | none, _, _ => .error (.usage (.valueExpected m.spec.label))
  | word :: rest =>
    if !rest.any Word.isOption then .ok (finish l f (word :: rest))
    else if f.operand.isSome then scan l { f with extras := f.extras ++ [word.text] } rest
    else if l.takesRest then .ok { f with operand := some ((word :: rest).map Word.text) }
    else scan l { f with operand := some [word.text] } rest

/-- Reads the words of a level, which must have its operand. -/
def readLevel (l : Level) (words : List Text) : Except Halt (List Text × Found) :=
  match classify l words with
  | .error cause => .error (.usage cause)
  | .ok words =>
    match scan l {} words with
    | .error halt => .error halt
    | .ok f =>
      match f.operand with
      | none => .error (.usage (.missing l.operand))
      | some operand => .ok (operand, f)

inductive Command where
  | chunk
  | embed
  deriving DecidableEq, Repr

/-- The word for a command. -/
def Command.word : Command → String
  | .chunk => "chunk"
  | .embed => "embed"

def Command.all : List Command :=
  [.chunk, .embed]

def Command.ofWord? (t : Text) : Option Command :=
  Command.all.find? fun c => c.word.toList == t

def helpOption : OptionSpec := ⟨["-h", "--help"], .help⟩

def logOption : OptionSpec := ⟨["--log"], .nothing⟩

def modelOption : OptionSpec := ⟨["--model"], .text⟩

def contextOption : OptionSpec := ⟨["--context-length"], .integer⟩

def languageOption : OptionSpec := ⟨["--language"], .text⟩

def program : String := "codeembed"

/-- The level of the program itself. -/
def mainLevel : Level where
  program := program
  options := [helpOption, logOption, modelOption, contextOption]
  operand := "command"
  takesRest := true

def Command.level (c : Command) : Level where
  program := program ++ " " ++ c.word
  options := [helpOption, languageOption]
  operand := "file"

/-- What a command line asks for. -/
structure Request where
  command : Command
  file : Text
  language : Given Text := .absent
  model : Given Text := .absent
  contextLength : Given Int := .absent
  log : Bool := false
  deriving DecidableEq, Repr

/-- Why a command line asks for nothing, and at which program's level that was found. -/
structure Refusal where
  program : String
  halt : Halt
  deriving DecidableEq, Repr

/-- Reads a level and says where the reading halted. -/
def Level.read (l : Level) (words : List Text) : Except Refusal (List Text × Found) :=
  (readLevel l words).mapError fun halt => ⟨l.program, halt⟩

/-- The request that two levels amount to. -/
def requestOf (command : Command) (file : Text) (outer inner : Found) : Request where
  command := command
  file := file
  language := inner.given languageOption
  model := outer.given modelOption
  contextLength := (outer.given contextOption).map fun t => (Text.readInteger t).toOption.getD 0
  log := outer.given logOption != .absent

def request (words : List Text) : Except Refusal Request :=
  match mainLevel.read words with
  | .error refusal => .error refusal
  | .ok (operand, outer) =>
    let word := operand.headD []
    match Command.ofWord? word with
    | none =>
      .error ⟨program, .usage (.unknownChoice mainLevel.operand word (Command.all.map Command.word))⟩
    | some command =>
      match command.level.read operand.tail with
      | .error refusal => .error refusal
      | .ok (file, inner) =>
        match outer.extras ++ inner.extras with
        | [] => .ok (requestOf command (file.headD []) outer inner)
        | extras => .error ⟨program, .usage (.unrecognized extras)⟩

end SourceIndex.CommandLine
