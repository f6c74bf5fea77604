import BranchingStory.Text.Digit
import BranchingStory.Text.Quoted

/-!
# Options on the command line

An option is named in full or by any beginning of its long name that no other one shares. Its value
follows an equals sign or is the next argument. An argument that starts with a dash is a value all
the same if it looks like a negative number or holds a blank, and everything behind a double dash is
one. A double dash only divides, also behind an equals sign, where it leaves the option without a text.
The program takes no values of its own, so whatever is left over is an error.
-/

namespace BranchingStory

inductive OptionName where
  | storyDir
  | saveDir
  | logLevel
deriving DecidableEq

namespace OptionName

def text : OptionName → String
  | storyDir => "--story-dir"
  | saveDir => "--save-dir"
  | logLevel => "--log-level"

end OptionName

inductive OptionValue where
  | text (s : String)
  /-- The option is there, but what it was given has been taken away as a divider. -/
  | nothing
deriving DecidableEq

namespace OptionValue

def ofText (s : String) : OptionValue := if s = "--" then nothing else text s

def text? : OptionValue → Option String
  | text s => some s
  | nothing => none

end OptionValue

structure Options where
  storyDir : Option OptionValue := none
  saveDir : Option OptionValue := none
  logLevel : Option OptionValue := none
deriving DecidableEq

inductive OptionsStop where
  /-- Help was asked for. -/
  | help
  | ambiguous (argument : String) (matching : List String)
  | missingValue (name : OptionName)
  | needlessValue (value : String)
  | leftOver (arguments : List String)
deriving DecidableEq

namespace OptionsStop

def message : OptionsStop → String
  | help => ""
  | ambiguous argument matching =>
    "ambiguous option: " ++ argument ++ " could match " ++ ", ".intercalate matching
  | missingValue name => "argument " ++ name.text ++ ": expected one argument"
  | needlessValue value => "argument -h/--help: ignored explicit argument " ++ Text.quoted value
  | leftOver arguments => "unrecognized arguments: " ++ " ".intercalate arguments

def exitCode : OptionsStop → Nat
  | help => 0
  | _ => 2

end OptionsStop

/-! ## Arguments -/

/-- What an argument is taken for. -/
inductive Argument where
  | plain
  | divider
  | help (value : Option String)
  | setting (name : OptionName) (value : Option String)
  | unknown
deriving DecidableEq

namespace Argument

/-- The long names; that of help has no value. -/
def longNames : List (String × Option OptionName) :=
  [("--help", none), ("--story-dir", some .storyDir), ("--save-dir", some .saveDir),
   ("--log-level", some .logLevel)]

def ofName (name : Option OptionName) (value : Option String) : Argument :=
  match name with
  | none => help value
  | some name => setting name value

/-- An argument up to its first equals sign, and what follows that. -/
def splitValue (cs : List Char) : List Char × Option String :=
  match cs.dropWhile (· != '=') with
  | [] => (cs, none)
  | _ :: value => (cs.takeWhile (· != '='), some (String.ofList value))

/-- The value that is wrongly given to help when it is asked for by letter. The letter may be repeated, and
what is left behind it then is a value. -/
def letterValue : List Char → Option String
  | ['h'] => none
  | 'h' :: rest => letterValue rest
  | value => some (String.ofList value)

/-- What follows the letter of help, if anything does, is the letter again or a value, with an equals sign
before it or without one. -/
def ofLetter : List Char → Argument
  | [] => help none
  | '=' :: value => help (letterValue value)
  | value => help (letterValue value)

def isNumeral (cs : List Char) : Bool := !cs.isEmpty && cs.all fun c => (Text.decimalValue? c).isSome

/-- Whether the characters behind a dash make a negative number, with or without a point; a line feed
may follow. -/
def isNegative (cs : List Char) : Bool :=
  let cs := if cs.getLast? = some '\n' then cs.dropLast else cs
  match cs.dropWhile fun c => (Text.decimalValue? c).isSome with
  | [] => isNumeral cs
  | '.' :: fraction => isNumeral fraction
  | _ => false

/-- An argument with a dash that names no option. -/
def ofDashed (tail : List Char) : Argument :=
  if isNegative tail || tail.contains ' ' then plain else unknown

/-- An argument that starts with two dashes: the options whose name starts with it, if it is none. -/
def ofLong (text : String) : Except OptionsStop Argument :=
  let (name, value) := splitValue text.toList
  match longNames.find? fun entry => entry.1.toList = name with
  | some entry => .ok (ofName entry.2 value)
  | none =>
    match longNames.filter fun entry => name.isPrefixOf entry.1.toList with
    | [] => .ok (ofDashed (text.toList.drop 1))
    | [entry] => .ok (ofName entry.2 value)
    | entries => .error (.ambiguous text (entries.map Prod.fst))

def ofText (text : String) : Except OptionsStop Argument :=
  match text.toList with
  | ['-', '-'] => .ok divider
  | '-' :: '-' :: _ => ofLong text
  | '-' :: 'h' :: tail => .ok (ofLetter tail)
  | ['-'] => .ok plain
  | '-' :: tail => .ok (ofDashed tail)
  | _ => .ok plain

/-- Each argument with what it is taken for. -/
def ofTexts : List String → Except OptionsStop (List (String × Argument))
  | [] => .ok []
  | text :: texts =>
    match ofText text with
    | .error stop => .error stop
    | .ok .divider => .ok ((text, divider) :: texts.map fun text => (text, plain))
    | .ok argument => do return (text, argument) :: (← ofTexts texts)

end Argument

namespace Options

variable (o : Options)

def set (name : OptionName) (value : OptionValue) : Options :=
  match name with
  | .storyDir => { o with storyDir := some value }
  | .saveDir => { o with saveDir := some value }
  | .logLevel => { o with logLevel := some value }

/-- Follow the arguments in order; an option given twice counts the second time. The arguments that
belong to no option are left over. -/
def follow (o : Options) (leftOver : List String) :
    List (String × Argument) → Except OptionsStop (Options × List String)
  | [] => .ok (o, leftOver)
  | (_, .help none) :: _ => .error .help
  | (_, .help (some value)) :: _ => .error (.needlessValue value)
  | (_, .setting name (some value)) :: rest => follow (o.set name (.ofText value)) leftOver rest
  | (_, .setting name none) :: (value, .plain) :: rest => follow (o.set name (.text value)) leftOver rest
  | (_, .setting name none) :: _ => .error (.missingValue name)
  | (text, _) :: rest => follow o (leftOver ++ [text]) rest

def ofArguments (texts : List String) : Except OptionsStop Options := do
  let (o, leftOver) ← follow {} [] (← Argument.ofTexts texts)
  if leftOver.isEmpty then return o else .error (.leftOver leftOver)

end Options
end BranchingStory
