import NoiseFilter.Binary.Value
import NoiseFilter.Configuration.Basic
import NoiseFilter.Decimal.Text

/-!
# Command lines

A command line names a command and gives its options. It is read from left to right and what decides
first wins: a mistake ends the reading as a misuse, a request for help ends it as that, and only a line
without either is a command. An option has one spelling with two dashes and perhaps one with a single
dash and a letter; its value follows as the next word, or attached:

| spelling | value |
|---|---|
| `--input x`, `-i x` | the next word, which may not itself start with a dash |
| `--input=x`, `-i=x`, `-ix` | attached |

An option may be given once. A value that is given may not be empty.
-/

namespace NoiseFilter.Command

open Binary Decimal

/-- The options that commands have. -/
inductive Opt
  | input
  | output
  | config
  | enable
  | threshold
  | packetBytes
  | path
deriving DecidableEq, Repr

namespace Opt

/-- The long spelling. -/
def long : Opt → String
  | input => "input"
  | output => "output"
  | config => "config"
  | enable => "enable"
  | threshold => "threshold"
  | packetBytes => "packet-bytes"
  | path => "path"

/-- The letter of the short spelling. -/
def letter? : Opt → Option Char
  | input => some 'i'
  | output => some 'o'
  | config => some 'c'
  | path => some 'p'
  | enable | threshold | packetBytes => none

/-- Whether the option has a value. -/
def hasValue : Opt → Bool
  | enable => false
  | _ => true

/-- Whether a text is a value of the option. -/
def accepts (o : Opt) (value : String) : Bool :=
  match o with
  | threshold => (readValue? .single value).isSome
  | packetBytes => (readNatural? Configuration.wordLimit value).isSome
  | _ => !value.isEmpty

end Opt

/-- The commands there are. -/
inductive Name
  | process
  | config
  | initConfig
deriving DecidableEq, Repr

namespace Name

/-- All commands. -/
def all : List Name := [.process, .config, .initConfig]

/-- The word for a command. -/
def word : Name → String
  | process => "process"
  | config => "config"
  | initConfig => "init-config"

/-- The command that a word stands for. -/
def ofWord? (w : String) : Option Name := all.find? fun n => n.word == w

/-- The options of a command. -/
def options : Name → List Opt
  | process => [.input, .output, .config, .enable, .threshold, .packetBytes]
  | config | initConfig => [.path]

/-- The options that a command cannot do without. -/
def required : Name → List Opt
  | process => [.input, .output]
  | config | initConfig => []

end Name

/-- What one word of a command line is. -/
inductive Token
  /-- help is asked for -/
  | help
  /-- an option, and its value where that is attached -/
  | option (o : Opt) (attached : Option String)
  /-- a dash with nothing known behind it, or a value attached where none belongs -/
  | misuse
  /-- the mark after which no options come -/
  | endOfOptions
  /-- any other word -/
  | plain
deriving DecidableEq, Repr

/-- A long spelling, its dashes left off: the name, and the value after an equals sign. -/
def splitLong (text : List Char) : String × Option String :=
  let name := String.ofList (text.takeWhile (· ≠ '='))
  match text.dropWhile (· ≠ '=') with
  | [] => (name, none)
  | _ :: value => (name, some (String.ofList value))

/-- **The token of a word**, for a command's options. -/
def token (options : List Opt) (w : String) : Token :=
  match w.toList with
  | ['-', '-'] => .endOfOptions
  | '-' :: '-' :: text =>
    match splitLong text with
    | ("help", none) => .help
    | (name, attached) =>
      match options.find? fun o => o.long == name with
      | none => .misuse
      | some o => if attached.isSome && !o.hasValue then .misuse else .option o attached
  | '-' :: 'h' :: _ => .help
  | '-' :: letter :: text =>
    match options.find? fun o => o.letter? == some letter with
    | none => .misuse
    | some o =>
      match text with
      | [] => .option o none
      | '=' :: value => .option o (some (String.ofList value))
      | value => .option o (some (String.ofList value))
  | _ => .plain

/-- The options given, each with its value. -/
abbrev Given := List (Opt × String)

/-- The value of an option that was given. -/
def Given.value? (g : Given) (o : Opt) : Option String := g.lookup o

/-- Whether an option was given. -/
def Given.has (g : Given) (o : Opt) : Bool := (g.value? o).isSome

/-- How the reading of a command line ends short of a command. -/
inductive Stop
  | help
  | misuse
deriving DecidableEq, Repr

/-- An option with a value, if it may be given and the value is one. -/
def give (g : Given) (o : Opt) (value : String) : Except Stop Given :=
  if o.accepts value && !g.has o then .ok ((o, value) :: g) else .error .misuse

/-- An option without a value, if it may be given. -/
def giveFlag (g : Given) (o : Opt) : Except Stop Given :=
  if g.has o then .error .misuse else .ok ((o, "") :: g)

/-- **The options of a command**, word by word. -/
def readOptions (options : List Opt) (g : Given) : List String → Except Stop Given
  | [] => .ok g
  | w :: ws =>
    match token options w with
    | .help => .error .help
    | .misuse | .plain => .error .misuse
    | .endOfOptions => if ws.isEmpty then .ok g else .error .misuse
    | .option o (some value) =>
      match give g o value with
      | .error s => .error s
      | .ok g => readOptions options g ws
    | .option o none =>
      if !o.hasValue then
        match giveFlag g o with
        | .error s => .error s
        | .ok g => readOptions options g ws
      else match ws with
        | [] => .error .misuse
        | value :: ws =>
          match token options value with
          | .plain =>
            match give g o value with
            | .error s => .error s
            | .ok g => readOptions options g ws
          | _ => .error .misuse

/-! ### Commands -/

/-- What a replay of a file is asked to do. -/
structure Processing where
  input : String
  output : String
  config : Option String
  enable : Bool
  threshold : Option Single
  packetBytes : Option UInt64
deriving DecidableEq

end Command

/-- **A command.** -/
inductive Command
  /-- replay one file into another -/
  | process (what : Command.Processing)
  /-- show the configuration in effect -/
  | showConfig (path : Option String)
  /-- write the default configuration -/
  | initConfig (path : Option String)
deriving DecidableEq

namespace Command

open Decimal

/-- The command of a name with its options. -/
def build (name : Name) (g : Given) : Command :=
  match name with
  | .process => .process
      { input := (g.value? .input).getD ""
        output := (g.value? .output).getD ""
        config := g.value? .config
        enable := g.has .enable
        threshold := (g.value? .threshold).bind (readValue? .single)
        packetBytes := ((g.value? .packetBytes).bind (readNatural? Configuration.wordLimit)).map UInt64.ofNat }
  | .config => .showConfig (g.value? .path)
  | .initConfig => .initConfig (g.value? .path)

/-- The words after the request for help in a word of its own: nothing, or one command. -/
def readHelp : List String → Stop
  | [] => .help
  | [w] => if w = "help" ∨ (Name.ofWord? w).isSome then .help else .misuse
  | _ => .misuse

/-- **Reading a command line.** -/
def read : List String → Except Stop Command
  | [] => .error .misuse
  | w :: ws =>
    if w = "help" then .error (readHelp ws)
    else match Name.ofWord? w with
      | some name =>
        match readOptions name.options [] ws with
        | .error s => .error s
        | .ok g => if name.required.all g.has then .ok (build name g) else .error .misuse
      | none =>
        match token [] w with
        | .help => .error .help
        | _ => .error .misuse

end Command

end NoiseFilter
