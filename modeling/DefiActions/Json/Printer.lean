import DefiActions.Value

/-!
# Writing JSON

Layouts differ in what is escaped and in the blanks between tokens: `ascii` and
`spaced` write only printable ASCII, `plain` keeps every character that JSON
allows in a text, and `lines` is `plain` with one member a line.
-/

namespace DefiActions.Json

/-! ## Texts -/

def shortEscape? (c : Char) : Option Char :=
  match c with
  | '"' => some '"'
  | '\\' => some '\\'
  | '\x08' => some 'b'
  | '\x0c' => some 'f'
  | '\n' => some 'n'
  | '\r' => some 'r'
  | '\t' => some 't'
  | _ => none

def unitEscape (n : Nat) : List Char := '\\' :: 'u' :: Text.hexDigits 4 n

/-- The escape of a character by its UTF-16 units. -/
def unitEscapes (c : Char) : List Char :=
  if c.toNat < 0x10000 then unitEscape c.toNat
  else
    let n := c.toNat - 0x10000
    unitEscape (0xD800 + n / 0x400) ++ unitEscape (0xDC00 + n % 0x400)

def escaped (keep : Char → Bool) (c : Char) : List Char :=
  match shortEscape? c with
  | some e => ['\\', e]
  | none => if keep c then [c] else unitEscapes c

def isPrintableAscii (c : Char) : Bool := ' ' ≤ c && c ≤ '~'

def isNotControl (c : Char) : Bool := ' ' ≤ c

def textLiteral (keep : Char → Bool) (s : String) : List Char :=
  '"' :: s.toList.flatMap (escaped keep) ++ ['"']

/-! ## Values -/

structure Layout where
  keep : Char → Bool
  colon : List Char
  comma : Nat → List Char
  opening : Nat → List Char
  closing : Nat → List Char

namespace Layout

def tight (keep : Char → Bool) : Layout := ⟨keep, [':'], fun _ => [','], fun _ => [], fun _ => []⟩

def ascii : Layout := tight isPrintableAscii

def plain : Layout := tight isNotControl

/-- One line with a blank behind every colon and comma. -/
def spaced : Layout := ⟨isPrintableAscii, [':', ' '], fun _ => [',', ' '], fun _ => [], fun _ => []⟩

def newline (depth : Nat) : List Char := '\n' :: List.replicate (2 * depth) ' '

def lines : Layout :=
  ⟨isNotControl, [':', ' '], fun d => ',' :: newline d, newline, newline⟩

end Layout

/-- Numbers that JSON has no form for are written as words. -/
def floatLiteral : Binary64 → List Char
  | .nan => "NaN".toList
  | .infinite negative => (if negative then "-Infinity" else "Infinity").toList
  | x => x.digitsText

mutual

def print (l : Layout) (depth : Nat) : Value → List Char
  | .null => "null".toList
  | .bool b => (if b then "true" else "false").toList
  | .int n => Text.intDigits n
  | .float x => floatLiteral x
  | .text s => textLiteral l.keep s
  | .bytes bs => textLiteral l.keep (Hex.text bs)
  | .list [] => ['[', ']']
  | .list (v :: vs) =>
    '[' :: l.opening (depth + 1) ++ printItems l (depth + 1) (v :: vs) ++ l.closing depth ++ [']']
  | .record [] => ['\x7b', '\x7d']
  | .record (m :: ms) =>
    '\x7b' :: l.opening (depth + 1) ++ printMembers l (depth + 1) (m :: ms) ++ l.closing depth
      ++ ['\x7d']

def printItems (l : Layout) (depth : Nat) : List Value → List Char
  | [] => []
  | [v] => print l depth v
  | v :: rest => print l depth v ++ l.comma depth ++ printItems l depth rest

def printMembers (l : Layout) (depth : Nat) : List (String × Value) → List Char
  | [] => []
  | [(k, v)] => textLiteral l.keep k ++ l.colon ++ print l depth v
  | (k, v) :: rest =>
    textLiteral l.keep k ++ l.colon ++ print l depth v ++ l.comma depth ++ printMembers l depth rest

end

def write (l : Layout) (v : Value) : String := String.ofList (print l 0 v)

/-! ## Standard JSON

Standard JSON has no word for a number that is not finite. -/

def isFinite : Binary64 → Bool
  | .nan | .infinite _ => false
  | _ => true

mutual

/-- No number in the value is infinite or not a number. -/
def isStandard : Value → Bool
  | .float x => isFinite x
  | .list items => areStandard items
  | .record ms => membersAreStandard ms
  | _ => true

def areStandard : List Value → Bool
  | [] => true
  | v :: rest => isStandard v && areStandard rest

def membersAreStandard : List (String × Value) → Bool
  | [] => true
  | (_, v) :: rest => isStandard v && membersAreStandard rest

end

end DefiActions.Json
