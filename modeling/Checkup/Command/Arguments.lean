import Checkup.Text.Quoted
import Checkup.Text.Search

/-!
# Arguments

A command line is read into options and other arguments. An option may take a value, after an
equals sign or as the next argument; the last of several counts. Options may stand between the other
arguments, and two dashes end them.
-/

namespace Checkup.Command

inductive UsageFault where
  | noSuchOption (name : String)
  | valueMissing (option : String)
  | valueUnexpected (option : String)
  | noSuchCommand (name : String)
  | missingCommand
  | extraArguments (arguments : List String)

def UsageFault.message : UsageFault → String
  | .noSuchOption name => "No such option: " ++ Text.unquoted name
  | .valueMissing option => "Option " ++ Text.quoted option ++ " requires an argument."
  | .valueUnexpected option => "Option " ++ Text.quoted option ++ " does not take a value."
  | .noSuchCommand name => "No such command " ++ Text.quoted name ++ "."
  | .missingCommand => "Missing command."
  | .extraArguments arguments =>
    "Got unexpected extra argument(s) (" ++
      String.intercalate " " (arguments.map Text.unquoted) ++ ")"

def withoutDots (text : String) : String :=
  String.ofList (text.toList.reverse.dropWhile (· == '.')).reverse

def suggesting (message : String) : List String → String
  | [] => message
  | words =>
    withoutDots message ++ ". Did you mean " ++
      String.intercalate ", " (words.map fun word : String => Text.quoted word) ++ "?"

/-- A misuse of the command line, and the arguments that were not read when it was noticed. -/
structure Misuse where
  fault : UsageFault
  unread : List String

structure Grammar where
  flags : List String := []
  valued : List String := []
  /-- Those of them whose value is a path. -/
  paths : List String := []
  /-- Whether options may follow other arguments. -/
  interspersed : Bool := true

structure Arguments where
  flags : List String := []
  values : List (String × String) := []
  others : List String := []

namespace Arguments

def has (arguments : Arguments) (flag : String) : Bool := arguments.flags.contains flag

/-- The last value given for an option. -/
def value? (arguments : Arguments) (option : String) : Option String :=
  arguments.values.reverse.lookup option

/-- Which of two opposite flags was given last, if one was. -/
def choice? (arguments : Arguments) (yes no : String) : Option Bool :=
  (arguments.flags.reverse.find? fun flag => flag == yes || flag == no).map (· == yes)

end Arguments

def attached (argument : String) : String × Option String :=
  match Text.cut? [ '=' ] argument.toList with
  | some (name, value) => (String.ofList name, some (String.ofList value))
  | none => (argument, none)

/-- The first letter of some that names no flag, as an option. -/
def unknownLetter? (grammar : Grammar) (letters : List Char) : Option String :=
  (letters.map fun letter => String.ofList [ '-', letter ]).find? fun flag =>
    !grammar.flags.contains flag

def Grammar.read (grammar : Grammar) : List String → Except Misuse Arguments
  | [] => .ok {}
  | argument :: rest =>
    let (name, value?) := attached argument
    if argument = "--" then .ok { others := rest }
    else if !Text.opens "-" argument.toList || argument = "-" then
      if grammar.interspersed then
        (grammar.read rest).map fun parts => { parts with others := argument :: parts.others }
      else .ok { others := argument :: rest }
    else if grammar.valued.contains name then
      match value? with
      | some value =>
        (grammar.read rest).map fun parts => { parts with values := (name, value) :: parts.values }
      | none =>
        match rest with
        | [] => .error ⟨.valueMissing name, rest⟩
        | value :: more =>
          (grammar.read more).map fun parts =>
            { parts with values := (name, value) :: parts.values }
    else if Text.opens "--" argument.toList then
      if !grammar.flags.contains name then .error ⟨.noSuchOption name, rest⟩
      else if value?.isSome then .error ⟨.valueUnexpected name, rest⟩
      else (grammar.read rest).map fun parts => { parts with flags := name :: parts.flags }
    else
      let letters := argument.toList.drop 1
      match unknownLetter? grammar letters with
      | some flag => .error ⟨.noSuchOption flag, rest⟩
      | none =>
        let flags := letters.map fun letter => String.ofList [ '-', letter ]
        (grammar.read rest).map fun parts => { parts with flags := flags ++ parts.flags }

end Checkup.Command
