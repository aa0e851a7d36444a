import NativeHeader.Run.Options
import NativeHeader.Text.DecimalDigit

/-! Options from the words of a command line.

Every word is classified first: as an option, as a value, or as the `--` after
which there are values only. A long option may be cut short as long as it is clear
which one is meant, and may have its value after an equals sign; a short option may
have its value in the same word. Two dashes in that place stand for no text at all.
Otherwise the next word is the value, if it is classified as one. Of an option that
is given twice the last value counts. -/
namespace NativeHeader.CommandLine

/-- Why no run is started. -/
inductive Stop where
  | help
  | misuse
  /-- The schema is given, but as no text. -/
  | schemaWithoutText
  deriving DecidableEq, Repr

inductive Flag where
  | help | schema | output | spec | library
  deriving DecidableEq, Repr

/-- The long options. -/
def longFlags : List (String × Flag) :=
  [("--help", .help), ("--schema", .schema), ("--output-dir", .output),
   ("--module-spec-name", .spec), ("--library-name", .library)]

/-- How the program is called. -/
def usage : String :=
  "usage: native-header [-h] -s SCHEMA [-o OUTPUT_DIR] [-n MODULE_SPEC_NAME] [-l LIBRARY_NAME]"

/-- The letters of the short options. -/
def shortFlags : List (Char × Flag) :=
  [('h', .help), ('s', .schema), ('o', .output), ('n', .spec), ('l', .library)]

/-- What is written in the same word as an option. -/
inductive Attached where
  | nothing
  /-- The value of an option after an equals sign. -/
  | equals (value : List Char)
  /-- What follows the letter of a short option; it is not empty. -/
  | letters (value : List Char)
  deriving DecidableEq, Repr

/-- The text that an option is given in its own word. Two dashes give none. -/
def attachedText (value : List Char) : Option String :=
  if value = ['-', '-'] then none else some (String.ofList value)

/-- A classified word. -/
inductive Token where
  | value (text : String)
  | option (flag : Flag) (long : Bool) (attached : Attached)
  | unknown
  | dashes
  deriving DecidableEq, Repr

/-! ### Classification -/

/-- What stands before the first equals sign, and what stands after it, if there is one. -/
def atEquals (word : List Char) : List Char × Attached :=
  match word.dropWhile (· ≠ '=') with
  | [] => (word, .nothing)
  | _ :: value => (word.takeWhile (· ≠ '='), .equals value)

/-- Whether a word looks like a negative number: a whole one, or one with a point
and a digit after it. A line feed at the end does not matter. -/
def isNegativeNumber (word : List Char) : Bool :=
  match word with
  | '-' :: rest =>
    let rest := if rest.getLast? = some '\n' then rest.dropLast else rest
    match rest.dropWhile Text.isDecimalDigit with
    | [] => !rest.isEmpty
    | '.' :: fraction => !fraction.isEmpty && fraction.all Text.isDecimalDigit
    | _ => false
  | _ => false

/-- A word that begins with a dash and is no option: a value if it looks like a
negative number or holds a space. -/
def otherwise (word : List Char) : Token :=
  if isNegativeNumber word || word.contains ' ' then .value (String.ofList word) else .unknown

/-- A word that begins with two dashes and has more to it. -/
def classifyLong (word : List Char) : Except Stop Token :=
  let (name, attached) := atEquals word
  match longFlags.find? fun (long, _) => long.toList = name with
  | some (_, flag) => .ok (.option flag true attached)
  | none =>
    match longFlags.filter fun (long, _) => name.isPrefixOf long.toList with
    | [] => .ok (otherwise word)
    | [(_, flag)] => .ok (.option flag true attached)
    | _ => .error .misuse

/-- A word that begins with a dash and has another character after it. -/
def classifyShort (letter : Char) (rest : List Char) : Token :=
  match shortFlags.lookup letter with
  | none => otherwise ('-' :: letter :: rest)
  | some flag =>
    .option flag false <|
      match rest with
      | [] => .nothing
      | '=' :: value => .equals value
      | _ => .letters rest

def classify (word : String) : Except Stop Token :=
  match word.toList with
  | '-' :: '-' :: [] => .ok .dashes
  | '-' :: '-' :: rest => classifyLong ('-' :: '-' :: rest)
  | '-' :: letter :: rest => .ok (classifyShort letter rest)
  | _ => .ok (.value word)

/-- The tokens of a command line. -/
def tokens : List String → Except Stop (List Token)
  | [] => .ok []
  | word :: rest => do
    match ← classify word with
    | .dashes => return .dashes :: rest.map .value
    | token => return token :: (← tokens rest)

/-! ### Interpretation -/

/-- The options so far, and whether there was a word that belongs to none. The
schema may be missing, and it may be given as no text. -/
structure Draft where
  schema? : Option (Option String) := none
  output : String := ""
  spec : String := ""
  library : String := ""
  stray : Bool := false
  deriving DecidableEq, Repr

def Draft.set (d : Draft) (value : Option String) : Flag → Draft
  | .help => d
  | .schema => { d with schema? := some value }
  | .output => { d with output := value.getD "" }
  | .spec => { d with spec := value.getD "" }
  | .library => { d with library := value.getD "" }

def followedByValue : List Token → Bool
  | .value _ :: _ => true
  | _ => false

/-- Help has no value: what its letter is followed by, after an equals sign or not,
has to be the letters of short options in turn. Help is given once they are known
to be such and the one that takes a value has it. -/
def helpWith (next : List Token) : List Char → Stop
  | [] => .misuse
  | letter :: rest =>
    match shortFlags.lookup letter with
    | none => .misuse
    | some .help => if rest.isEmpty then .help else helpWith next rest
    | some _ => if rest.isEmpty && !followedByValue next then .misuse else .help

/-- Goes through the tokens in order. -/
def interpret (d : Draft) : List Token → Except Stop Draft
  | [] => .ok d
  | .value _ :: rest | .unknown :: rest | .dashes :: rest => interpret { d with stray := true } rest
  | .option .help long attached :: rest =>
    match long, attached with
    | _, .nothing => .error .help
    | false, .equals letters | false, .letters letters => .error (helpWith rest letters)
    | true, _ => .error .misuse
  | .option flag _ (.equals value) :: rest => interpret (d.set (attachedText value) flag) rest
  | .option flag _ (.letters value) :: rest => interpret (d.set (attachedText value) flag) rest
  | .option flag _ .nothing :: .value value :: rest => interpret (d.set (some value) flag) rest
  | .option _ _ .nothing :: _ => .error .misuse

/-- The options that a command line gives. -/
def parse (words : List String) : Except Stop Options := do
  let draft ← interpret {} (← tokens words)
  match draft.schema?, draft.stray with
  | none, _ | some _, true => throw .misuse
  | some none, false => throw .schemaWithoutText
  | some (some schema), false =>
    return { schema, output := draft.output, spec := draft.spec, library := draft.library }

end NativeHeader.CommandLine
