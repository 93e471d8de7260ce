import DefiActions.Text.Numeral

/-!
# Arguments of commands

A form says what a command takes: values in order, and options by name. An
option may be written in full or by any beginning of its name that no other
name has, and its text follows as the next argument or behind `=`. A dash
before a number makes no option, and behind `--` all arguments are values.

Arguments are read from left to right. The wish for help ends the reading at
once; what fits nowhere makes the whole a misuse.
-/

namespace DefiActions.CommandLine

/-! ## Forms -/

inductive OptionKind
  | flag
  | text
  | integer
  | help
  deriving DecidableEq, Repr

structure OptionForm where
  name : String
  kind : OptionKind
  letter : Option Char := none
  isRequired : Bool := false
  deriving DecidableEq, Repr

structure Form where
  options : List OptionForm
  /-- For each value the texts that it may be; an empty list leaves it free. -/
  values : List (List String) := []

def helpOption : OptionForm := ⟨"--help", .help, some 'h', false⟩

namespace OptionForm

def letterName? (o : OptionForm) : Option (List Char) := o.letter.map fun c => ['-', c]

/-- Whether a text follows the option. -/
def takesText (o : OptionForm) : Bool := o.kind = .text || o.kind = .integer

/-- Integer options refuse a text that is no numeral. -/
def accepts (o : OptionForm) (s : String) : Bool :=
  match o.kind, Text.readInt .ten s.toList with
  | .integer, .error _ => false
  | _, _ => true

end OptionForm

def Form.names (f : Form) : List (List Char × OptionForm) :=
  (helpOption :: f.options).flatMap fun o =>
    (o.name.toList, o) :: (o.letterName?.map (·, o)).toList

/-! ## Kinds of arguments -/

inductive Token
  | value (s : String)
  /-- The mark `--` before values alone. -/
  | divider
  /-- Options that no text follows. -/
  | flags (os : List OptionForm)
  | option (o : OptionForm) (text : String)
  | opening (o : OptionForm)
  | unknown
  deriving DecidableEq, Repr

/-- The text before the first `=` and the one behind it, if there is one. -/
def cutAssignment (arg : List Char) : List Char × Option String :=
  let name := arg.takeWhile (· ≠ '=')
  match arg.dropWhile (· ≠ '=') with
  | [] => (name, none)
  | _ :: text => (name, some (String.ofList text))

/-- A minus with digits, or with a point and digits behind it; a line feed may follow. -/
def isNegativeNumber (arg : List Char) : Bool :=
  match arg with
  | '-' :: rest =>
    let body := if rest.getLast? = some '\n' then rest.dropLast else rest
    match body.dropWhile Text.isDigit with
    | [] => body ≠ []
    | '.' :: fraction => fraction ≠ [] && fraction.all Text.isDigit
    | _ => false
  | _ => false

/-- An option that an argument may mean, and the text that stands behind it in the argument. -/
abbrev Candidate := OptionForm × Option String

/-- The options that an argument with two dashes may mean, by a beginning of their names. -/
def Form.byBeginning (f : Form) (arg : List Char) : List Candidate :=
  let (name, given) := cutAssignment arg
  (f.names.filter fun n => name.isPrefixOf n.1).map fun n => (n.2, given)

/-- The options that an argument with one dash may mean: one by its letter with a text right behind
it, or some by a beginning of their names. -/
def Form.byLetter (f : Form) (arg : List Char) : List Candidate :=
  f.names.filterMap fun n =>
    if n.1 = arg.take 2 then some (n.2, some (String.ofList (arg.drop 2)))
    else if arg.isPrefixOf n.1 then some (n.2, none)
    else none

/-- The option of the very name that stands in front of a `=`. -/
def Form.byAssignment (f : Form) (arg : List Char) : Option Candidate :=
  match cutAssignment arg with
  | (name, some text) => (f.names.lookup name).map (·, some text)
  | (_, none) => none

/-- The option of a candidate. A text behind an option that takes none can only be `more` letters of
such options. -/
def Form.settle? (f : Form) (more : Bool) : Candidate → Option Token
  | (o, none) => some (if o.takesText then .opening o else .flags [o])
  | (o, some text) =>
    if o.takesText then some (.option o text)
    else if !more || text = "" then none
    else (text.toList.mapM fun c => f.names.lookup ['-', c]).map fun os => .flags (o :: os)

/-- The option that an argument means by a beginning or by letters, if there is just one. -/
def Form.abbreviated? (f : Form) (arg : List Char) : Option Token :=
  let isLong := ['-', '-'].isPrefixOf arg
  match if isLong then f.byBeginning arg else f.byLetter arg with
  | [c] => f.settle? (!isLong) c
  | _ :: _ :: _ => none
  | [] =>
    if isNegativeNumber arg || arg.contains ' ' then some (.value (String.ofList arg))
    else some .unknown

/-- What an argument is; none if it may mean several options, or gives a text to an option that
takes none. -/
def Form.token? (f : Form) (arg : String) : Option Token :=
  match arg.toList with
  | '-' :: c :: rest =>
    let cs := '-' :: c :: rest
    match f.names.lookup cs, f.byAssignment cs with
    | some o, _ => f.settle? false (o, none)
    | none, some candidate => f.settle? false candidate
    | none, none => f.abbreviated? cs
  | _ => some (.value arg)

def Form.tokens? (f : Form) : List String → Option (List Token)
  | [] => some []
  | arg :: rest =>
    if arg = "--" then some (.divider :: rest.map .value)
    else do return (← f.token? arg) :: (← f.tokens? rest)

/-! ## Reading -/

inductive Stop
  | misuse
  | help
  deriving DecidableEq, Repr

/-- What has been read: the values, and the options with their texts, the latest first. -/
structure Arguments where
  values : List String := []
  options : List (String × String) := []
  /-- Whether something fitted nowhere. -/
  hasExtra : Bool := false
  deriving DecidableEq, Repr

namespace Arguments

def text? (a : Arguments) (name : String) : Option String := a.options.lookup name

def has (a : Arguments) (name : String) : Bool := (a.text? name).isSome

def integer? (a : Arguments) (name : String) : Option Int := do
  (Text.readInt .ten (← a.text? name).toList).toOption

def withExtra (a : Arguments) : Arguments := { a with hasExtra := true }

/-- With one more value, which must be one of the texts that the form allows. -/
def withValue (a : Arguments) (f : Form) (s : String) : Except Stop Arguments :=
  match f.values[a.values.length]? with
  | none => .ok a.withExtra
  | some choices =>
    if choices = [] ∨ s ∈ choices then .ok { a with values := a.values ++ [s] } else throw .misuse

def withOption (a : Arguments) (o : OptionForm) (text : String) : Except Stop Arguments :=
  if o.kind = .help then throw .help
  else if o.accepts text then .ok { a with options := (o.name, text) :: a.options }
  else throw .misuse

/-- Reads the tokens of a command. The divider must stand next to a value. -/
def read (f : Form) (afterValue : Bool) (a : Arguments) : List Token → Except Stop Arguments
  | [] => .ok a
  | .value s :: rest => do (← a.withValue f s).read f true rest
  | .divider :: rest =>
    if afterValue || rest ≠ [] then a.read f true rest else a.withExtra.read f true rest
  | .flags os :: rest => do
    (← os.foldlM (fun a o => a.withOption o "") a).read f false rest
  | .option o text :: rest => do (← a.withOption o text).read f false rest
  | .opening o :: .value s :: rest => do (← a.withOption o s).read f false rest
  | .opening _ :: _ => throw .misuse
  | .unknown :: rest => a.withExtra.read f false rest

def isComplete (f : Form) (a : Arguments) : Bool :=
  !a.hasExtra && a.values.length = f.values.length
    && f.options.all fun o => !o.isRequired || a.has o.name

def ofList (f : Form) (args : List String) : Except Stop Arguments :=
  match f.tokens? args with
  | none => throw .misuse
  | some tokens => do
    let a ← read f false {} tokens
    if a.isComplete f then return a else throw .misuse

end Arguments

end DefiActions.CommandLine
