import EntityConventions.Path
import EntityConventions.Report

/-! # Arguments of the command line

The command line is a list of words.  `Arguments.parse` reads it as an `Invocation`: options of
the program, the name of a command, and options and operands of that command; the options of the
program may also stand behind the command.  Options are written `--name value`, `--name=value`,
`-n value`, `-nvalue` or `-n=value`, and several short ones may stand together.  After `--` every
word is an operand.  The words are read from left to right, and the first fault or call for help
decides. -/

namespace EntityConventions

/-- What the program is asked to do. -/
inductive Command where
  | check (path : Path) (format : Report.Format) (rules : Option String) (excludes : List String)
  | listRules
  | init (force : Bool)

/-- A command and the options of the program. -/
structure Invocation where
  verbose : Bool
  config : Option Path
  command : Command

namespace Arguments

/-- Why there is nothing to do: help or the version is asked for, or the words make no sense. -/
inductive Stop where
  | help
  | usage
  deriving DecidableEq, Repr

/-- An option, by its long name and perhaps a short one. -/
structure Spec where
  long : String
  short : Option Char
  takesValue : Bool
  deriving DecidableEq, Repr

/-- The options of the program. -/
def programSpecs : List Spec :=
  [⟨"verbose", some 'v', false⟩, ⟨"config", some 'c', true⟩]

/-- The options of the check command. -/
def checkSpecs : List Spec :=
  [⟨"format", some 'f', true⟩, ⟨"rules", none, true⟩, ⟨"exclude", some 'e', true⟩]

/-- The options of the init command. -/
def initSpecs : List Spec :=
  [⟨"force", none, false⟩]

/-- The options that call for help. -/
def helpSpecs : List Spec :=
  [⟨"help", some 'h', false⟩]

/-- The options that call for the version. -/
def versionSpecs : List Spec :=
  [⟨"version", some 'V', false⟩]

/-- What some words say. -/
inductive Event where
  | flag (name : String)
  | value (name text : String)
  | word (text : String)
  | fault
  deriving DecidableEq, Repr

/-! ### Reading words -/

/-- Whether a word is taken for an option rather than for a value. -/
def isOption (word : String) : Bool :=
  match word.toList with
  | '-' :: _ :: _ => true
  | _ => false

/-- The name and the value of a long option. -/
def splitLong (cs : List Char) : String × Option String :=
  let name := String.ofList (cs.takeWhile (· != '='))
  match cs.dropWhile (· != '=') with
  | _ :: value => (name, some (String.ofList value))
  | [] => (name, none)

/-- The events of short options that stand together; the last may be an option that still waits
for its value. -/
def short (specs : List Spec) : List Char → List Event × Option String
  | [] => ([], none)
  | c :: rest =>
      match specs.find? fun s => s.short == some c with
      | none => ([.fault], none)
      | some s =>
          if s.takesValue then
            match rest with
            | [] => ([], some s.long)
            | '=' :: value => ([.value s.long (String.ofList value)], none)
            | value => ([.value s.long (String.ofList value)], none)
          else
            let (events, waiting) := short specs rest
            (.flag s.long :: events, waiting)

/-- The events of a word that is taken for an option. -/
def option (specs : List Spec) (word : List Char) : List Event × Option String :=
  match word with
  | '-' :: '-' :: cs =>
      match splitLong cs with
      | (name, value) =>
          match specs.find? fun s => s.long == name, value with
          | none, _ => ([.fault], none)
          | some s, some value =>
              if s.takesValue then ([.value s.long value], none) else ([.fault], none)
          | some s, none =>
              if s.takesValue then ([], some s.long) else ([.flag s.long], none)
  | _ :: cs => short specs cs
  | [] => ([], none)

/-- The events of words up to the first operand if `untilWord` holds, and of all words otherwise;
`waiting` is an option whose value is to come.  Also the words that are left. -/
def scan (specs : List Spec) (untilWord : Bool) :
    Option String → List String → List Event × List String
  | none, [] => ([], [])
  | some _, [] => ([.fault], [])
  | waiting, word :: rest =>
      if word = "--" then
        match waiting, untilWord with
        | some _, _ => ([.fault], [])
        | none, true => (rest.map fun _ => .fault, [])
        | none, false => (rest.map .word, [])
      else if isOption word then
        match waiting with
        | some _ => ([.fault], [])
        | none =>
            let (events, waiting) := option specs word.toList
            let (more, left) := scan specs untilWord waiting rest
            (events ++ more, left)
      else
        match waiting with
        | some name =>
            let (more, left) := scan specs untilWord none rest
            (.value name word :: more, left)
        | none =>
            if untilWord then ([], word :: rest)
            else
              let (more, left) := scan specs untilWord none rest
              (.word word :: more, left)

/-! ### Meaning -/

/-- The settings gathered so far. -/
structure Settings where
  verbose : Bool
  config : Option Path
  path : Option Path
  format : Option Report.Format
  rules : Option String
  excludes : List String
  force : Bool

/-- No settings. -/
def Settings.empty : Settings := ⟨false, none, none, none, none, [], false⟩

/-- A path that is not empty. -/
def path? (text : String) : Option Path :=
  if text = "" then none else some ⟨text⟩

/-- Take account of one event.  Only exclusions may be repeated, and at most `operands` words
may be operands. -/
def Settings.add (operands : Bool) (s : Settings) : Event → Except Stop Settings
  | .flag "help" => .error .help
  | .flag "version" => .error .help
  | .flag "verbose" => if s.verbose then .error .usage else .ok { s with verbose := true }
  | .flag "force" => if s.force then .error .usage else .ok { s with force := true }
  | .value "config" text =>
      match s.config, path? text with
      | none, some path => .ok { s with config := some path }
      | _, _ => .error .usage
  | .value "format" text =>
      match s.format, Report.Format.ofWord? text with
      | none, some format => .ok { s with format := some format }
      | _, _ => .error .usage
  | .value "rules" text =>
      match s.rules with
      | none => .ok { s with rules := some text }
      | some _ => .error .usage
  | .value "exclude" text => .ok { s with excludes := s.excludes ++ [text] }
  | .word text =>
      match s.path, path? text, operands with
      | none, some path, true => .ok { s with path := some path }
      | _, _, _ => .error .usage
  | _ => .error .usage

/-- The settings that the words behind a command make. -/
def settings (specs : List Spec) (operands : Bool) (words : List String) :
    Except Stop Settings :=
  let (events, _) := scan (specs ++ programSpecs ++ helpSpecs) false none words
  events.foldlM (Settings.add operands) .empty

/-- The names of the commands. -/
def commandNames : List String := ["check", "list-rules", "init", "help"]

/-- What the help command says to the words behind it. -/
def help (words : List String) : Stop :=
  match words with
  | [] => .help
  | [name] => if commandNames.contains name then .help else .usage
  | _ => .usage

/-- The command with a given name and the words behind it. -/
def command (name : String) (words : List String) : Except Stop (Settings × Command) := do
  match name with
  | "check" =>
      let s ← settings checkSpecs true words
      return (s, .check (s.path.getD ⟨"."⟩) (s.format.getD .text) s.rules s.excludes)
  | "list-rules" =>
      let s ← settings [] false words
      return (s, .listRules)
  | "init" =>
      let s ← settings initSpecs false words
      return (s, .init s.force)
  | "help" => .error (help words)
  | _ => .error .usage

/-- The invocation that a command line spells.  An option of the program behind the command wins
over the same option before it. -/
def parse (words : List String) : Except Stop Invocation := do
  let (events, left) := scan (programSpecs ++ helpSpecs ++ versionSpecs) true none words
  let outer ← events.foldlM (Settings.add false) .empty
  match left with
  | [] => .error .usage
  | name :: rest =>
      let (inner, command) ← command name rest
      return {
        verbose := outer.verbose || inner.verbose
        config := inner.config.or outer.config
        command := command }

end Arguments

end EntityConventions
