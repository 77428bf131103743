import SourceIndex.Text.Integer
import SourceIndex.Text.Quoted

/-! The grammar of command lines: options that go before and between operands, with or without a value,
and the words of a line by what they can be. An option may be cut short as long as no other starts the
same way, and its value may be attached to it by an equals sign. -/

namespace SourceIndex.CommandLine

/-- What an option takes; that for help ends the reading of the line. -/
inductive Takes where
  | nothing
  | help
  | text
  | integer
  deriving DecidableEq, Repr

/-- An option: its names, dashes included, and what it takes. -/
structure OptionSpec where
  names : List String
  takes : Takes
  deriving DecidableEq, Repr

/-- What an option is called in messages. -/
def OptionSpec.label (o : OptionSpec) : String :=
  "/".intercalate o.names

/-- A level of a command line: the name of the program, its options, and its operand, which may take all
words after it. -/
structure Level where
  program : String
  options : List OptionSpec
  operand : String
  takesRest : Bool := false

/-- Why a command line cannot be followed. -/
inductive UsageError where
  | valueExpected (option : String)
  | notInteger (option : String) (value : Text)
  | valueIgnored (option : String) (value : Text)
  | ambiguous (word : Text) (names : List String)
  | missing (operand : String)
  | unknownChoice (operand : String) (value : Text) (choices : List String)
  | unrecognized (words : List Text)
  deriving DecidableEq, Repr

def quoted (t : Text) : String :=
  String.ofList (Text.quote t)

def UsageError.message : UsageError → String
  | .valueExpected o => "argument " ++ o ++ ": expected one argument"
  | .notInteger o v => "argument " ++ o ++ ": invalid int value: " ++ quoted v
  | .valueIgnored o v => "argument " ++ o ++ ": ignored explicit argument " ++ quoted v
  | .ambiguous word names =>
    "ambiguous option: " ++ String.ofList word ++ " could match " ++ ", ".intercalate names
  | .missing operand => "the following arguments are required: " ++ operand
  | .unknownChoice operand v choices =>
    "argument " ++ operand ++ ": invalid choice: " ++ quoted v ++ " (choose from " ++
      ", ".intercalate (choices.map fun c => quoted c.toList) ++ ")"
  | .unrecognized words =>
    "unrecognized arguments: " ++ " ".intercalate (words.map String.ofList)

/-- The option that a word stands for: by which of its names, and the value attached to it. -/
structure Meaning where
  spec : OptionSpec
  name : String
  attached : Option Text := none
  deriving DecidableEq, Repr

/-- The letter of a name that has a single dash. -/
def Meaning.letter? (m : Meaning) : Option Char :=
  match m.name.toList with
  | ['-', c] => some c
  | _ => none

/-- A word of a command line: an operand or a value, the mark after which there are no options, or an
option, which may be unknown. -/
inductive Word where
  | plain (text : Text)
  | separator
  | option (text : Text) (meaning : Option Meaning)
  deriving DecidableEq, Repr

namespace Word

def text : Word → Text
  | .plain t => t
  | .separator => ['-', '-']
  | .option t _ => t

def isOption : Word → Bool
  | .option .. => true
  | _ => false

end Word

namespace Level

/-- The names of all options, with what they stand for. -/
def names (l : Level) : List (String × OptionSpec) :=
  l.options.flatMap fun o => o.names.map fun name => (name, o)

def option? (l : Level) (name : Text) : Option Meaning :=
  (l.names.find? fun (n, _) => n.toList == name).map fun (n, o) => { spec := o, name := n }

end Level

/-- A word before and after its first equals sign. -/
def splitEquals (t : Text) : Text × Option Text :=
  match t.dropWhile (· != '=') with
  | [] => (t, none)
  | _ :: value => (t.takeWhile (· != '='), some value)

/-- Whether a word is a negative number, with a line end after it or not. -/
def isNegativeNumber : Text → Bool
  | '-' :: t =>
    let t := if t.getLast? = some '\n' then t.dropLast else t
    let isDigit (c : Char) : Bool := (Text.decimalValue? c).isSome
    match t.dropWhile isDigit with
    | [] => !t.isEmpty
    | '.' :: decimals => !decimals.isEmpty && decimals.all isDigit
    | _ => false
  | _ => false

/-- What a word that is no option's full name can stand for. -/
def candidates (l : Level) (t : Text) : List Meaning :=
  match t with
  | '-' :: '-' :: _ =>
    let (start, attached) := splitEquals t
    (l.names.filter fun (n, _) => start.isPrefixOf n.toList).map fun (n, o) =>
      { spec := o, name := n, attached }
  | _ =>
    (l.option? (t.take 2)).toList.map fun meaning =>
      { meaning with attached := some (t.drop 2) }

/-- Tells what a word with a dash in front is. -/
def classifyDashed (l : Level) (t : Text) : Except UsageError Word :=
  let (start, attached) := splitEquals t
  match l.option? t, t.length, attached.bind fun _ => l.option? start with
  | some meaning, _, _ => .ok (.option t (some meaning))
  | none, 1, _ => .ok (.plain t)
  | none, _, some meaning => .ok (.option t (some { meaning with attached }))
  | none, _, none =>
    match candidates l t with
    | [meaning] => .ok (.option t (some meaning))
    | [] => .ok (if isNegativeNumber t || t.contains ' ' then .plain t else .option t none)
    | several => .error (.ambiguous t (several.map Meaning.name))

/-- Tells what each word of a command line is. -/
def classify (l : Level) : List Text → Except UsageError (List Word)
  | [] => .ok []
  | t :: ts =>
    if t = ['-', '-'] then .ok (.separator :: ts.map .plain)
    else do
      let word ← if t.head? = some '-' then classifyDashed l t else .ok (.plain t)
      return word :: (← classify l ts)

end SourceIndex.CommandLine
