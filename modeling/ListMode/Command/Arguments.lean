/-!
# Command lines

A command line is a list of words.  A word that starts with a dash names options
and every other word is an operand, until a word of two dashes, behind which all
words are operands.

An option has a long name, which stands behind two dashes, and perhaps a letter,
which stands behind one.  Letters of options without a value may stand together.
A value is the rest of the word, perhaps behind an equals sign, or the next
word, which must not start with a dash unless it is nothing but a dash.
-/

namespace ListMode.Command

/-- An option that a command knows. -/
structure Switch where
  /-- The long name. -/
  name : String
  /-- The letter. -/
  letter : Option Char := none
  /-- A value belongs to the option. -/
  valued : Bool := true
  /-- Letters behind the option's own are not looked at. -/
  closing : Bool := false
deriving DecidableEq, Repr

/-- An option with a value. -/
def Switch.value (name : String) (letter : Option Char := none) : Switch := { name, letter }

/-- An option without a value. -/
def Switch.flag (name : String) (letter : Option Char := none) : Switch :=
  { name, letter, valued := false }

/-- A part of a command line. -/
inductive Argument where
  /-- An option with its value, which is empty for an option without one. -/
  | option (name value : String)
  /-- An operand. -/
  | operand (text : String)
deriving DecidableEq, Repr

/-- What a word says: whole arguments, and the name of an option whose value is
the next word. -/
abbrev WordReading := List Argument × Option String

/-- Reads what stands behind a single dash. -/
def readLetters (switches : List Switch) : List Char → Option WordReading
  | [] => some ([], none)
  | c :: rest =>
    match switches.find? (·.letter == some c) with
    | none => none
    | some s =>
      if s.valued then
        match rest with
        | [] => some ([], some s.name)
        | '=' :: value => some ([.option s.name (String.ofList value)], none)
        | value => some ([.option s.name (String.ofList value)], none)
      else if s.closing then some ([.option s.name ""], none)
      else (readLetters switches rest).map fun (found, open?) => (.option s.name "" :: found, open?)

/-- Reads what stands behind two dashes. -/
def readName (switches : List Switch) (text : List Char) : Option WordReading :=
  let name := String.ofList (text.takeWhile (· ≠ '='))
  match switches.find? (·.name == name), text.dropWhile (· ≠ '=') with
  | none, _ => none
  | some s, [] => some (if s.valued then ([], some name) else ([.option name ""], none))
  | some s, _ :: value => if s.valued then some ([.option name (String.ofList value)], none) else none

/-- The word is not an operand or a value. -/
def isDashed (word : String) : Bool := word.startsWith "-" && word ≠ "-"

/-- Reads a word at a place where an option may stand. -/
def readWord (switches : List Switch) (word : String) : Option WordReading :=
  if isDashed word then
    match word.toList with
    | '-' :: '-' :: text => readName switches text
    | _ :: letters => readLetters switches letters
    | [] => none
  else some ([.operand word], none)

/-- Reads the words of a command line; `open?` is the option that waits for its
value. -/
def readFrom (switches : List Switch) (open? : Option String) :
    List String → Option (List Argument)
  | [] => if open?.isNone then some [] else none
  | word :: rest =>
    match open? with
    | some name =>
      if isDashed word then none
      else (readFrom switches none rest).map (.option name word :: ·)
    | none =>
      if word = "--" then some (rest.map .operand)
      else
        match readWord switches word with
        | none => none
        | some (found, open?) => (readFrom switches open? rest).map (found ++ ·)

/-- Reads the words of a command line; nothing when an option is not known, or
has no value where it needs one or one where it takes none. -/
def read (switches : List Switch) (words : List String) : Option (List Argument) :=
  readFrom switches none words

/-! ## What was given -/

/-- The values of an option, in order. -/
def valuesOf (name : String) (arguments : List Argument) : List String :=
  arguments.filterMap fun
    | .option n value => if n = name then some value else none
    | .operand _ => none

/-- The operands, in order. -/
def operands (arguments : List Argument) : List String :=
  arguments.filterMap fun
    | .option .. => none
    | .operand text => some text

/-- The value of an option that may be given once, read by a rule. -/
def atMostOnce? {α : Type} (rule : String → Option α) (name : String) (arguments : List Argument) :
    Option (Option α) :=
  match valuesOf name arguments with
  | [] => some none
  | [value] => (rule value).map some
  | _ => none

/-- The value of an option that has to be given once, read by a rule. -/
def once? {α : Type} (rule : String → Option α) (name : String) (arguments : List Argument) :
    Option α :=
  match valuesOf name arguments with
  | [value] => rule value
  | _ => none

/-- Whether an option without a value was given; it may be given once. -/
def given? (name : String) (arguments : List Argument) : Option Bool :=
  match valuesOf name arguments with
  | [] => some false
  | [_] => some true
  | _ => none

/-- The values of an option that may be given often, each a list between commas. -/
def listed (name : String) (arguments : List Argument) : List String :=
  (valuesOf name arguments).flatMap (·.splitOn ",")

example : read [.value "out" 'o'] ["-o", "d", "x"] =
    some [.option "out" "d", .operand "x"] := by
  decide +kernel
example : read [.value "out" 'o', .flag "json" 'j'] ["-jod", "--out=e"] =
    some [.option "json" "", .option "out" "d", .option "out" "e"] := by
  decide +kernel
example : read [.flag "json" 'j', { Switch.flag "version" 'V' with closing := true }] ["-jVx"] =
    some [.option "json" "", .option "version" ""] := by
  decide +kernel
example : read [.value "out" 'o'] ["-o", "-d"] = none := by decide +kernel
example : read [.value "out" 'o'] ["--", "-o"] = some [.operand "-o"] := by decide +kernel

end ListMode.Command
