import Verdict.Expression
import Verdict.Files

namespace Verdict.CommandLine

-- What the arguments ask for, one after the other.
inductive Item
  | context (text : String)
  | contextFile (path : String)
  | showFormula
  | source (text : String)
  | help
  | version
  | fault (reason : String)

-- An argument by itself: complete, an option whose value is the next argument, or the two hyphens
-- behind which no argument is an option.
inductive Argument
  | complete (item : Item)
  | needsValue (item : String → Item)
  | endOfOptions

-- A single hyphen is not an option.
def isPlain (text : String) : Bool :=
  match text.toList with
  | '-' :: _ :: _ => false
  | _ => true

-- An option that takes a value, which may be attached to it.
def withValue (item : String → Item) : Option String → Argument
  | some value => .complete (item value)
  | none => .needsValue item

-- A long option with the value behind its equals sign.
def longOption : String → Option String → Argument
  | "context", value => withValue .context value
  | "context-file", value => withValue .contextFile value
  | "ast", none => .complete .showFormula
  | "help", none => .complete .help
  | "version", none => .complete .version
  | name, _ => .complete (.fault ("unexpected argument '--" ++ name ++ "'"))

-- An option of one letter with the text behind the letter. A value may follow at once or after an
-- equals sign.
def shortOption (letter : Char) (rest : List Char) : Argument :=
  let value := match rest with
    | [] => none
    | '=' :: value => some (String.ofList value)
    | value => some (String.ofList value)
  match letter with
  | 'c' => withValue .context value
  | 'f' => withValue .contextFile value
  | 'h' => .complete .help
  | 'V' => .complete .version
  | _ => .complete (.fault ("unexpected argument '-" ++ letter.toString ++ "'"))

def Argument.ofText (text : String) : Argument :=
  if isPlain text then .complete (.source text)
  else
    match text.toList with
    | ['-', '-'] => .endOfOptions
    | '-' :: '-' :: rest =>
      let value := match rest.dropWhile (· ≠ '=') with
        | [] => none
        | _ :: value => some (String.ofList value)
      longOption (String.ofList (rest.takeWhile (· ≠ '='))) value
    | _ :: letter :: rest => shortOption letter rest
    | _ => .complete (.source text)

-- The items of the arguments. The value of an option does not look like an option itself.
def items : List String → List Item
  | [] => []
  | [text] =>
    match Argument.ofText text with
    | .complete item => [item]
    | .needsValue _ => [.fault ("a value is required for '" ++ text ++ "'")]
    | .endOfOptions => []
  | text :: next :: rest =>
    match Argument.ofText text with
    | .complete item => item :: items (next :: rest)
    | .needsValue item =>
      (if isPlain next then item next else .fault ("a value is required for '" ++ text ++ "'")) ::
        items rest
    | .endOfOptions => .source next :: rest.map .source

-- The options gathered from the items so far.
structure Options where
  contextText : Option String
  contextPath : Option String
  showsFormula : Bool
  source : Option String

inductive Command
  | run (options : Options) (source : String)
  | version
  | help
  | invalid (reason : String)

namespace Options

def empty : Options := ⟨none, none, false, none⟩

-- Adds an item. Nothing may be given twice and no path may be empty; a fault and the two items that
-- ask about the program decide the command at once.
def add (options : Options) : Item → Except Command Options
  | .context text =>
    if options.contextText.isSome then .error (.invalid "'--context' is given twice")
    else .ok { options with contextText := some text }
  | .contextFile path =>
    if options.contextPath.isSome then .error (.invalid "'--context-file' is given twice")
    else if path = "" then .error (.invalid "a value is required for '--context-file'")
    else .ok { options with contextPath := some path }
  | .showFormula =>
    if options.showsFormula then .error (.invalid "'--ast' is given twice")
    else .ok { options with showsFormula := true }
  | .source text =>
    if options.source.isSome then .error (.invalid ("unexpected argument '" ++ text ++ "'"))
    else .ok { options with source := some text }
  | .help => .error .help
  | .version => .error .version
  | .fault reason => .error (.invalid reason)

-- There must be an expression, and not more than one source of its context.
def command (options : Options) : Command :=
  match options.source with
  | none => .invalid "an expression is required"
  | some source =>
    if options.contextText.isSome ∧ options.contextPath.isSome then
      .invalid "'--context' cannot be used with '--context-file'"
    else .run options source

end Options

def Command.ofArguments (arguments : List String) : Command :=
  match (items arguments).foldlM Options.add Options.empty with
  | .ok options => options.command
  | .error command => command

-- What the program leaves behind: an exit code and what it has printed.
structure Report where
  exitCode : Nat
  stdout : String
  stderr : String

namespace Report

def printed (exitCode : Nat) (line : String) : Report := ⟨exitCode, line ++ "\n", ""⟩

def failed (message : String) : Report := ⟨2, "", message ++ "\n"⟩

end Report

-- The context that the options name, or a message that says why there is none.
def readContext (read : String → Except FileError String) (options : Options) :
    Except String Context :=
  match options.contextText, options.contextPath with
  | some text, _ => ofText text
  | none, some path =>
    match read path with
    | .ok text => ofText text
    | .error error =>
      .error ("Failed to read the context file '" ++ path ++ "': " ++ error.message)
  | none, none => .ok .empty
where
  -- One message stands for all that can be wrong with a text: standard error tells that there is a
  -- fault, but neither which one nor where.
  ofText (text : String) : Except String Context :=
    match Context.read? text with
    | some context => .ok context
    | none => .error "The context is not a JSON object."

-- Prints the formula or the truth value of an expression; the exit code is 0 for a formula or a
-- true expression and 1 for a false one.
def report (options : Options) (expression : Expression) : Report :=
  if options.showsFormula then .printed 0 expression.render
  else
    match expression.evaluate with
    | .ok true => .printed 0 "true"
    | .ok false => .printed 1 "false"
    | .error error => .failed error.message

def usage : String := "Usage: phrase [OPTIONS] <EXPRESSION>

Options:
  -c, --context <CONTEXT>            The context as a JSON object
  -f, --context-file <CONTEXT_FILE>  Reads the context from a JSON file
      --ast                          Prints the parsed tree instead of evaluating it
  -h, --help                         Print help
  -V, --version                      Print version"

def Command.execute (read : String → Except FileError String) : Command → Report
  | .version => .printed 0 "phrase 0.1.0"
  | .help => .printed 0 usage
  | .invalid reason => .failed ("error: " ++ reason ++ "\n\n" ++ usage)
  | .run options source =>
    match readContext read options with
    | .error message => .failed message
    | .ok context =>
      match Expression.compile source with
      | .error error => .failed error.message
      | .ok expression => report options { expression with context }

-- Runs the program on its arguments, with a function that reads files.
def run (read : String → Except FileError String) (arguments : List String) : Report :=
  (Command.ofArguments arguments).execute read

end Verdict.CommandLine
