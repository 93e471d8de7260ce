import DefiActions.Text.Numeral

/-!
# Failures

Every way an operation can fail, by cause. An `ActionError` is a failure of an
action with a category that reaches the caller; a `Rejection` is a value that an
operation does not accept; a `Failure` is either of these, or a fault of a
codec, of a configuration, or of a collaborator.

A failure has a label and mostly a text. A text that would hold an integer past
the numeral limit cannot be written, and the failure becomes that one instead:
`Failure.ofAction` and `Failure.ofRejection` see to it. What a collaborator
raises comes with its text: a failure whose text cannot be had is left out.
-/

namespace DefiActions

inductive ErrorKind
  | staleReading
  | priceAtBound
  | poolUninitialized
  | missingConfiguration
  | invalidCollaboratorResponse
  | nonSuccessSettlement
  deriving DecidableEq, Repr

namespace ErrorKind

def all : List ErrorKind :=
  [staleReading, priceAtBound, poolUninitialized, missingConfiguration, invalidCollaboratorResponse,
    nonSuccessSettlement]

def wireName : ErrorKind → String
  | staleReading => "stale_reading"
  | priceAtBound => "price_at_bound"
  | poolUninitialized => "pool_uninitialized"
  | missingConfiguration => "missing_configuration"
  | invalidCollaboratorResponse => "invalid_collaborator_response"
  | nonSuccessSettlement => "non_success_settlement"

def ofWireName? (name : String) : Option ErrorKind := all.find? (·.wireName = name)

def label : ErrorKind → String
  | staleReading => "StaleReading"
  | priceAtBound => "PriceAtBound"
  | poolUninitialized => "PoolUninitialized"
  | missingConfiguration => "MissingConfiguration"
  | invalidCollaboratorResponse => "InvalidCollaboratorResponse"
  | nonSuccessSettlement => "NonSuccessSettlement"

end ErrorKind

/-! ## Action errors -/

inductive ActionError
  | staleReading (feed address : String) (updatedAt now maxAge : Int)
  | priceAtBound (price : Int) (zeroForOne : Bool)
  | poolUninitialized (poolId : Option String)
  | missingConfiguration (field : String) (hint : Option String)
  | invalidResponse (message : String)
  | nonSuccess (message : String)
  /-- An action error of no category, as only a collaborator can raise it. -/
  | unclassified (message : String)
  deriving DecidableEq, Repr

namespace ActionError

def kind? : ActionError → Option ErrorKind
  | staleReading .. => some .staleReading
  | priceAtBound .. => some .priceAtBound
  | poolUninitialized _ => some .poolUninitialized
  | missingConfiguration .. => some .missingConfiguration
  | invalidResponse _ => some .invalidCollaboratorResponse
  | nonSuccess _ => some .nonSuccessSettlement
  | unclassified _ => none

def label (e : ActionError) : String :=
  match e.kind? with
  | some kind => kind.label
  | none => "ActionError"

/-- The text of a hint or of a pool id is left out when it is empty. -/
def present? (s : Option String) : Option String := s.filter (!·.isEmpty)

def direction (zeroForOne : Bool) : String :=
  if zeroForOne then "token0->token1" else "token1->token0"

def boundName (zeroForOne : Bool) : String := if zeroForOne then "minimum" else "maximum"

open Text in
def message : ActionError → String
  | staleReading feed address updatedAt now maxAge =>
    s!"Stale price | feed={feed} address={address} updatedAt={numeral updatedAt} now={numeral now} "
      ++ s!"staleAfterSeconds={numeral maxAge}"
  | priceAtBound price zeroForOne =>
    s!"Pool price at {boundName zeroForOne}; cannot swap {direction zeroForOne} "
      ++ s!"(sqrtPriceX96={numeral price})"
  | poolUninitialized poolId =>
    match present? poolId with
    | some id => s!"Pool not initialized; create the pool first (poolId={id})"
    | none => "Pool not initialized; create the pool first"
  | missingConfiguration field hint =>
    match present? hint with
    | some hint => s!"{field} is required; {hint}"
    | none => s!"{field} is required"
  | invalidResponse message => message
  | nonSuccess message => message
  | unclassified message => message

def integers : ActionError → List Int
  | staleReading _ _ updatedAt now maxAge => [updatedAt, now, maxAge]
  | priceAtBound price _ => [price]
  | _ => []

end ActionError

/-! ## Rejected values -/

/-- The causes for which a value is not accepted. -/
inductive Rejection
  | negativeRawAmount (raw : Int)
  | negativeDecimals (decimals : Int)
  | notDecimal (value : String)
  | equalBounds
  | nonPositivePrice (price : Int)
  | negativeAmount
  | tickOutside (tick : Int)
  | nonPositiveSpacing (spacing : Int)
  | falseSpacing
  | unorderedTicks (lower upper : Int)
  | ticksOutside (lower upper : Int)
  | misalignedTicks (lower upper spacing : Int)
  | uint256Kind (kindName : String)
  | uint256Text (value : String)
  | uint256Negative (value : String)
  | uint256Overflow (value : String)
  | invalidAddress (address : String)
  | invalidKnownAddress (name address : String)
  | sameAsset (asset : String)
  | unorderedCurrencies (currency0 currency1 : String)
  | feeTooWide (fee : Int)
  | notHex (position : Nat)
  | notInteger (base : Text.Base) (value : String)
  | octetsNotInteger (octets : Bytes)
  | numeralTooLong (digits : Option Nat)
  | notANumberToInteger
  | unknownReportKind (name : String)
  | unknownErrorKind (name : String)
  | poolIdLength (length : Nat)
  | custom (message : String)
  deriving DecidableEq, Repr

namespace Rejection

/-- The greatest number of characters of a quoted text in a message. -/
def quoteLimit : Nat := 200

def quotedShort (s : String) : String := String.ofList ((Text.quoted s.toList).take quoteLimit)

open Text in
def message : Rejection → String
  | negativeRawAmount raw => s!"Raw amount cannot be negative: {numeral raw}"
  | negativeDecimals decimals => s!"Decimals cannot be negative: {numeral decimals}"
  | notDecimal value => s!"Invalid decimal amount: '" ++ value ++ "'"
  | equalBounds => "Sqrt price bounds must differ"
  | nonPositivePrice price => s!"Current sqrt price must be positive: {numeral price}"
  | negativeAmount => "Desired amounts cannot be negative"
  | tickOutside tick => s!"Tick {numeral tick} outside [-887272, 887272]"
  | nonPositiveSpacing spacing => s!"Tick spacing must be positive: {numeral spacing}"
  | falseSpacing => "Tick spacing must be positive: False"
  | unorderedTicks lower upper =>
    s!"tickLower ({numeral lower}) must be below tickUpper ({numeral upper})"
  | ticksOutside lower upper =>
    s!"Tick range [{numeral lower}, {numeral upper}] outside protocol bounds"
  | misalignedTicks lower upper spacing =>
    s!"Ticks [{numeral lower}, {numeral upper}] not aligned to tick spacing {numeral spacing}"
  | uint256Kind kindName => s!"Uint256 must be string or int, got {kindName}"
  | uint256Text value => "Uint256 must be a decimal integer string: '" ++ value ++ "'"
  | uint256Negative value => s!"Uint256 cannot be negative: {value}"
  | uint256Overflow value => s!"Uint256 overflow: {value} > 2^256-1"
  | invalidAddress address => s!"Invalid address: {address}"
  | invalidKnownAddress name address =>
    s!"Invalid {name} address: {address} (must be 0x + 40 hex chars)"
  | sameAsset asset => s!"Source and destination must differ: {asset}"
  | unorderedCurrencies currency0 currency1 =>
    s!"currency0 must sort below currency1: {currency0} >= {currency1}"
  | feeTooWide fee => s!"Fee does not fit uint24: {numeral fee}"
  | notHex position =>
    s!"non-hexadecimal number found in fromhex() arg at position {numeral position}"
  | notInteger base value =>
    s!"invalid literal for int() with base {numeral base.size}: {quotedShort value}"
  | octetsNotInteger octets =>
    "invalid literal for int() with base 10: " ++ String.ofList ((quotedBytes octets).take quoteLimit)
  | numeralTooLong digits =>
    let found :=
      match digits with
      | some n => s!": value has {numeral n} digits"
      | none => ""
    s!"Exceeds the limit ({numeral numeralLimit} digits) for integer string conversion{found}; "
      ++ "use sys.set_int_max_str_digits() to increase the limit"
  | notANumberToInteger => "cannot convert float NaN to integer"
  | unknownReportKind name => "'" ++ name ++ "' is not a valid ActionKind"
  | unknownErrorKind name => "'" ++ name ++ "' is not a valid ErrorKind"
  | poolIdLength length => s!"Pool id must be 32 bytes, got {numeral length}"
  | custom message => message

def integers : Rejection → List Int
  | negativeRawAmount n | negativeDecimals n | nonPositivePrice n | tickOutside n | nonPositiveSpacing n
  | feeTooWide n => [n]
  | unorderedTicks a b | ticksOutside a b => [a, b]
  | misalignedTicks a b c => [a, b, c]
  | _ => []

/-- A numeral that could not be read. -/
def ofNumeral (base : Text.Base) (value : String) : Text.NumeralFault → Rejection
  | .malformed => notInteger base value
  | .tooLong digits => numeralTooLong (some digits)

end Rejection

/-! ## Configuration issues -/

inductive Step
  | name (s : String)
  | index (n : Nat)
  deriving DecidableEq, Repr

inductive IssueKind
  | missing
  | textType
  | textEncoding
  | integerType
  | integerText
  | integerFraction
  | integerSize
  | finiteNumber
  | numberType
  | numberText
  | choice
  | objectType
  | listType
  | notPositive
  | pattern
  | refused (r : Rejection)
  deriving DecidableEq, Repr

namespace IssueKind

def wireName : IssueKind → String
  | missing => "missing"
  | textType => "string_type"
  | textEncoding => "string_unicode"
  | integerType => "int_type"
  | integerText => "int_parsing"
  | integerFraction => "int_from_float"
  | integerSize => "int_parsing_size"
  | finiteNumber => "finite_number"
  | numberType => "float_type"
  | numberText => "float_parsing"
  | choice => "literal_error"
  | objectType => "model_type"
  | listType => "list_type"
  | notPositive => "greater_than"
  | pattern => "string_pattern_mismatch"
  | refused _ => "value_error"

end IssueKind

structure Issue where
  path : List Step
  kind : IssueKind
  deriving DecidableEq, Repr

/-! ## Collaborators -/

inductive ForeignKind
  | runtime
  | connection
  | timeout
  | value
  | key
  /-- Any other kind, by its label. -/
  | other (label : String)
  deriving DecidableEq, Repr

def ForeignKind.label : ForeignKind → String
  | runtime => "RuntimeError"
  | connection => "ConnectionError"
  | timeout => "TimeoutError"
  | value => "ValueError"
  | key => "KeyError"
  | other label => label

/-! ## Files -/

/-- What keeps a file from being read. -/
inductive FileFault
  | missing
  | isDirectory
  /-- A name on the way to it is that of a file. -/
  | throughFile
  deriving DecidableEq, Repr

namespace FileFault

def label : FileFault → String
  | missing => "FileNotFoundError"
  | isDirectory => "IsADirectoryError"
  | throughFile => "NotADirectoryError"

def message : FileFault → String
  | missing => "[Errno 2] No such file or directory"
  | isDirectory => "[Errno 21] Is a directory"
  | throughFile => "[Errno 20] Not a directory"

end FileFault

/-! ## Failures -/

inductive Failure
  | action (e : ActionError)
  | rejected (r : Rejection)
  | invalid (model : String) (issues : List Issue)
  | fieldType
  | fieldRange
  | dataTooShort
  | dataPadding
  | dataPointer
  | tooLarge
  | notUtf8
  | notJson
  | divisionByZero
  | wrongType
  | missingMember
  | file (fault : FileFault) (path : String)
  | foreign (kind : ForeignKind) (message : String)
  /-- A collaborator that cannot even build the failure it wants to raise. -/
  | misuse (message : String)
  deriving DecidableEq, Repr

namespace Failure

/-- Action errors and rejections with a text that cannot be written give way to that fact. -/
def writing (integers : List Int) (f : Failure) : Failure :=
  if integers.all Text.isWritable then f else rejected (.numeralTooLong none)

def ofAction (e : ActionError) : Failure := writing e.integers (action e)

def ofRejection (r : Rejection) : Failure := writing r.integers (rejected r)

def missing (field hint : String) : Failure := action (.missingConfiguration field (some hint))

def badResponse (message : String) : Failure := action (.invalidResponse message)

def label : Failure → String
  | action e => e.label
  | rejected _ => "ValueError"
  | invalid .. => "ValidationError"
  | fieldType => "EncodingTypeError"
  | fieldRange => "ValueOutOfBounds"
  | dataTooShort => "InsufficientDataBytes"
  | dataPadding => "NonEmptyPaddingBytes"
  | dataPointer => "InvalidPointer"
  | tooLarge => "OverflowError"
  | notUtf8 => "UnicodeDecodeError"
  | notJson => "JSONDecodeError"
  | divisionByZero => "ZeroDivisionError"
  | wrongType | misuse _ => "TypeError"
  | missingMember => "AttributeError"
  | file fault _ => fault.label
  | foreign kind _ => kind.label

/-- The text, for the failures that have one. -/
def text? : Failure → Option String
  | action e => some e.message
  | rejected r => some r.message
  | file fault path => some (fault.message ++ ": " ++ String.ofList (Text.quoted path.toList))
  | foreign .key message => some (String.ofList (Text.quoted message.toList))
  | foreign _ message | misuse message => some message
  | _ => none

def kind? : Failure → Option ErrorKind
  | action e => e.kind?
  | _ => none

/-- The text, or the label of a failure that has none. -/
def description (f : Failure) : String := f.text?.getD f.label

/-- The label with the text after it; a misuse goes by its label alone. -/
def summary (f : Failure) : String :=
  match f, f.text? with
  | misuse _, _ => f.label
  | _, some text => f.label ++ ": " ++ text
  | _, none => f.label

/-- The failures that mean a value was not accepted. -/
def isRefusal : Failure → Bool
  | rejected _ | invalid .. | notUtf8 | notJson | foreign .value _ => true
  | _ => false

end Failure

def refuse [MonadExceptOf Failure m] (r : Rejection) : m α := throw (Failure.ofRejection r)

def fail [MonadExceptOf Failure m] (e : ActionError) : m α := throw (Failure.ofAction e)

end DefiActions
