import TaskQueue.Json.Render
import TaskQueue.Number.Scaled
import TaskQueue.Text.Hex
import TaskQueue.Text.Numeral
import TaskQueue.Text.Quoted

/-!
# Reading JSON

A reader consumes bytes from the front and either hands back a value and the rest, or fails with a
fault and the place of it. A place is either just after the consumed bytes (`failHere`) or includes
the byte after them (`failNext`); lines count from 1 and columns count bytes.

There are two ways to read a document:

* `Value.read` takes what denotes a value: numbers within the doubles, texts of whole characters,
  at most 127 levels of lists and objects, and of a repeated key the last value;
* `Value.outline` takes all that is well-formed, keeps every member in its place, and marks what
  denotes no value.

Out of scope: reading from a source that may fail, and more than one document in a row.
-/

namespace TaskQueue.Json

open Text Number

/-! ## Faults -/

/-- What is wrong with a text. -/
inductive Fault where
  | endInValue
  | endInList
  | endInObject
  | endInText
  | expectedValue
  | expectedWord
  | expectedColon
  | expectedListEnd
  | expectedObjectEnd
  | trailingComma
  | trailingCharacters
  | keyNotText
  | invalidNumber
  | numberOutOfRange
  | controlCharacter
  | invalidEscape
  | loneSurrogate
  | unfinishedEscape
  | invalidUnicode
  | tooDeep
  | invalidType (found expected : String)
  deriving DecidableEq, Repr

/-- The wording of a fault. -/
def Fault.message : Fault → String
  | endInValue => "EOF while parsing a value"
  | endInList => "EOF while parsing a list"
  | endInObject => "EOF while parsing an object"
  | endInText => "EOF while parsing a string"
  | expectedValue => "expected value"
  | expectedWord => "expected ident"
  | expectedColon => "expected `:`"
  | expectedListEnd => "expected `,` or `]`"
  | expectedObjectEnd => "expected `,` or `\x7d`"
  | trailingComma => "trailing comma"
  | trailingCharacters => "trailing characters"
  | keyNotText => "key must be a string"
  | invalidNumber => "invalid number"
  | numberOutOfRange => "number out of range"
  | controlCharacter => "control character (\\u0000-\\u001F) found while parsing a string"
  | invalidEscape => "invalid escape"
  | loneSurrogate => "lone leading surrogate in hex escape"
  | unfinishedEscape => "unexpected end of hex escape"
  | invalidUnicode => "invalid unicode code point"
  | tooDeep => "recursion limit exceeded"
  | invalidType found expected => "invalid type: " ++ found ++ ", expected " ++ expected

/-- A fault and its place: how many bytes are left, whether the first of them is counted in, and how
many columns to step back. -/
structure Failure where
  fault : Fault
  left : Nat
  withNext : Bool
  back : Nat
  deriving DecidableEq, Repr

/-- A fault in a document, with its line and column. -/
structure ParseError where
  fault : Fault
  line : Nat
  column : Nat
  deriving DecidableEq, Repr

/-- The wording of an error. -/
def ParseError.message (e : ParseError) : String :=
  e.fault.message ++ " at line " ++ e.line.repr ++ " column " ++ e.column.repr

/-- The place of a failure in the document. -/
def Failure.locate (f : Failure) (input : Bytes) : ParseError :=
  let front := input.take (input.length - f.left + if f.withNext then 1 else 0)
  let newline : UInt8 := 10
  ⟨f.fault, 1 + front.count newline, (front.reverse.takeWhile (· != newline)).length - f.back⟩

/-! ## Readers -/

/-- Consumes bytes from the front. -/
abbrev Reader := StateT Bytes (Except Failure)

namespace Reader

variable {α κ : Type}

/-- Fails just after the consumed bytes. -/
def failHere (fault : Fault) : Reader α := fun s => .error ⟨fault, s.length, false, 0⟩

/-- Fails at the next byte. -/
def failNext (fault : Fault) : Reader α := fun s => .error ⟨fault, s.length, true, 0⟩

/-- The character that a single byte stands for. -/
def charOf (b : UInt8) : Char := Char.ofNat b.toNat

/-- The next byte, left where it is. -/
def peek : Reader (Option Char) := fun s => .ok (s.head?.map charOf, s)

/-- The next byte, consumed. -/
def next : Reader (Option Char) := fun s => .ok (s.head?.map charOf, s.tail)

/-- Consumes one byte. -/
def skipOne : Reader Unit := fun s => .ok ((), s.tail)

/-- Space, tabulator, line feed and carriage return. -/
def isBlankByte (b : UInt8) : Bool := b == 0x20 || b == 0x09 || b == 0x0A || b == 0x0D

/-- Consumes the blanks in front. -/
def skipBlanks : Reader Unit := fun s => .ok ((), s.dropWhile isBlankByte)

/-- A decimal digit. -/
def isDigitByte (b : UInt8) : Bool := 0x30 ≤ b && b ≤ 0x39

/-- Consumes the digits in front. -/
def digits : Reader Bytes := fun s => .ok (s.takeWhile isDigitByte, s.dropWhile isDigitByte)

/-- Repeats a step until it has no more to give, once more at most than `clock` has bytes. -/
def repeatFrom (step : Reader (Option α)) (clock : Bytes) : Reader (List α) := do
  match ← step with
  | none => return []
  | some x =>
    match clock with
    | [] => return [x]
    | _ :: clock => return x :: (← repeatFrom step clock)

/-- Repeats a step that consumes bytes until it has no more to give. The bytes that are there bound
the number of steps. -/
def untilNone (step : Reader (Option α)) : Reader (List α) := fun s => repeatFrom step s s

/-! ## Words and numbers -/

/-- Consumes the given characters. -/
def word : List Char → Reader Unit
  | [] => return ()
  | c :: cs => do
    match ← next with
    | none => failHere .endInValue
    | some d => if c = d then word cs else failHere .expectedWord

/-- A number as it is written. -/
structure Numeral where
  negative : Bool
  whole : Bytes
  fraction : Bytes
  exponent : Option Int

/-- The value of decimal digits. -/
def digitsValue (ds : Bytes) : Nat := Nat.ofDigitChars 10 (ds.map charOf) 0

/-- The digits left after the one by which an exponent leaves the range of 32 bits. -/
def pastExponentLimit (n : Nat) : Bytes → Option Nat
  | [] => none
  | d :: ds =>
    let n := n * 10 + digitsValue [d]
    if 2147483648 ≤ n then some ds.length else pastExponentLimit n ds

/-- The digits before the point: no zero stands in front of others. -/
def wholePart : Reader Bytes := do
  match ← next with
  | none => failHere .endInValue
  | some '0' =>
    match ← peek with
    | some c => if c.isDigit then failNext .invalidNumber else return [0x30]
    | none => return [0x30]
  | some c =>
    if c.isDigit then return c.toNat.toUInt8 :: (← digits) else failHere .invalidNumber

/-- A point and digits, if there is a point. -/
def fractionPart : Reader Bytes := do
  match ← peek with
  | some '.' =>
    skipOne
    let ds ← digits
    if ds.isEmpty then
      match ← peek with
      | none => failNext .endInValue
      | some _ => failNext .invalidNumber
    return ds
  | _ => return []

/-- A sign in front of an exponent; whether it is a minus. -/
def exponentSign : Reader Bool := do
  match ← peek with
  | some '+' => skipOne; return false
  | some '-' => skipOne; return true
  | _ => return false

/-- An exponent, if there is one. It must not leave 32 bits when that would make a number other than
zero too large; `checked` says whether this matters. -/
def exponentPart (checked : Bool) : Reader (Option Int) := do
  match ← peek with
  | some 'e' | some 'E' =>
    skipOne
    let negative ← exponentSign
    match ← next with
    | none => failHere .endInValue
    | some c =>
      if c.isDigit then
        let ds := c.toNat.toUInt8 :: (← digits)
        if checked && !negative then
          match pastExponentLimit 0 ds with
          | some left => fun s => .error ⟨.numberOutOfRange, s.length + left, false, 0⟩
          | none => pure ()
        return some (if negative then -(digitsValue ds : Int) else digitsValue ds)
      else failHere .invalidNumber
  | _ => return none

/-- A number as it is written. -/
def numeral (strict : Bool) : Reader Numeral := do
  let negative := (← peek) == some '-'
  if negative then skipOne
  let whole ← wholePart
  let fraction ← fractionPart
  let exponent ← exponentPart (strict && (whole ++ fraction).any (· != 0x30))
  return ⟨negative, whole, fraction, exponent⟩

/-- Puts digits behind a number as long as it stays a number of 64 bits: the number, and how many
digits are left. -/
def keepDigits (n : Nat) : Bytes → Nat × Nat
  | [] => (n, 0)
  | d :: ds =>
    let m := n * 10 + digitsValue [d]
    if m ≤ maxNat64 then keepDigits m ds else (n, ds.length + 1)

/-- The value of a number: an integer when it is written as one and is kept as one, a double
otherwise, and none beyond the doubles. Minus zero is a double. Digits behind those that make a
number of 64 bits only count as places. -/
def Numeral.value? (n : Numeral) : Option Value :=
  let (d, raised) := keepDigits 0 n.whole
  if n.fraction.isEmpty && n.exponent.isNone && raised == 0 && !n.negative then some (.int d)
  else if n.fraction.isEmpty && n.exponent.isNone && raised == 0 && d != 0 &&
      decide (Value.minInt ≤ -(d : Int)) then
    some (.int (-d))
  else
    let (d, left) := keepDigits d n.fraction
    let power := n.exponent.getD 0 + raised - (n.fraction.length - left : Nat)
    (Double.scaled? n.negative d power).map .double

/-! ## Texts -/

/-- The number that hexadecimal digits write. -/
def hexNumber? (ds : Bytes) : Option Nat :=
  ds.foldlM (fun n b => (hexDigit? (charOf b)).map (n * 16 + ·)) 0

/-- Four hexadecimal digits. -/
def hexFour : Reader Nat := fun s =>
  if s.length < 4 then .error ⟨.endInText, 0, false, 0⟩
  else
    match hexNumber? (s.take 4) with
    | some n => .ok (n, s.drop 4)
    | none => .error ⟨.invalidEscape, s.length - 4, false, 0⟩

/-- The first half of a surrogate pair. -/
def isFirstHalf (n : Nat) : Bool := 0xD800 ≤ n && n ≤ 0xDBFF

/-- The second half of a surrogate pair. -/
def isSecondHalf (n : Nat) : Bool := 0xDC00 ≤ n && n ≤ 0xDFFF

/-- The character of a surrogate pair. -/
def joinHalves (m n : Nat) : Char := Char.ofNat (0x10000 + (m - 0xD800) * 0x400 + (n - 0xDC00))

/-- A byte that no text holds; it stands for half of a surrogate pair. -/
def halfMark : Bytes := [0xED]

/-- The second half of the pair that `m` starts. -/
def secondHalf (m : Nat) : Reader Bytes := do
  match ← next with
  | none => failHere .endInText
  | some '\\' =>
    match ← next with
    | none => failHere .endInText
    | some 'u' =>
      let n ← hexFour
      if isSecondHalf n then return Utf8.encode [joinHalves m n] else failHere .loneSurrogate
    | some _ => failHere .unfinishedEscape
  | some _ => failHere .unfinishedEscape

/-- The second half of the pair that `m` starts, if it follows at once. -/
def secondHalfIfAny (m : Nat) : Reader Bytes := fun s =>
  match s with
  | 0x5C :: 0x75 :: r =>
    match hexNumber? (r.take 4) with
    | some n =>
      if 4 ≤ r.length ∧ isSecondHalf n then .ok (Utf8.encode [joinHalves m n], r.drop 4)
      else .ok (halfMark, s)
    | none => .ok (halfMark, s)
  | _ => .ok (halfMark, s)

/-- What follows `\u`. -/
def unicodeEscape (strict : Bool) : Reader Bytes := do
  let n ← hexFour
  if isSecondHalf n then
    if strict then failHere .loneSurrogate else return halfMark
  else if isFirstHalf n then
    if strict then secondHalf n else secondHalfIfAny n
  else return Utf8.encode [Char.ofNat n]

/-- The character that a letter after a backslash stands for. -/
def escapeLetter? : Char → Option Char
  | '"' => some '"'
  | '\\' => some '\\'
  | '/' => some '/'
  | 'b' => some '\x08'
  | 'f' => some '\x0c'
  | 'n' => some '\n'
  | 'r' => some '\r'
  | 't' => some '\t'
  | _ => none

/-- One byte or one escape of a text; none at the closing quote. -/
def textPart (strict : Bool) : Reader (Option Bytes) := do
  match ← next with
  | none => failHere .endInText
  | some '"' => return none
  | some '\\' =>
    match ← next with
    | none => failHere .endInText
    | some 'u' => return some (← unicodeEscape strict)
    | some c =>
      match escapeLetter? c with
      | some d => return some (Utf8.encode [d])
      | none => failHere .invalidEscape
  | some c =>
    if c.toNat < 0x20 then failHere .controlCharacter else return some [c.toNat.toUInt8]

/-- The bytes of a text whose opening quote was consumed. -/
def textBytes (strict : Bool) : Reader Bytes := do
  return (← untilNone (textPart strict)).flatten

/-- A text whose opening quote was consumed. Bytes that are not well-formed are found at the closing
quote, and the place steps back over the bytes from the first bad one on. -/
def text : Reader String := do
  let bs ← textBytes true
  match Utf8.decode? bs with
  | some s => return s
  | none => fun s => .error ⟨.invalidUnicode, s.length, false, (Utf8.split bs).2.length⟩

/-- A text whose opening quote was consumed, none when it holds half of a pair. -/
def outlineText : Reader (Option String) := Utf8.decode? <$> textBytes false

/-! ## Lists and objects -/

/-- What follows an element: the next element, or the end of the list. -/
def laterElement (item : Reader α) : Reader (Option α) := do
  skipBlanks
  match ← peek with
  | none => failNext .endInList
  | some ']' => skipOne; return none
  | some ',' =>
    skipOne
    skipBlanks
    match ← peek with
    | some ']' => failNext .trailingComma
    | _ => return some (← item)
  | some _ => failNext .expectedListEnd

/-- The elements of a list whose bracket was consumed, and its end. -/
def elements (item : Reader α) : Reader (List α) := do
  skipBlanks
  match ← peek with
  | none => failNext .endInList
  | some ']' => skipOne; return []
  | some _ => return (← item) :: (← untilNone (laterElement item))

/-- A member of an object, from its opening quote on. -/
def member (key : Reader κ) (item : Reader α) : Reader (κ × α) := do
  skipOne
  let k ← key
  skipBlanks
  match ← peek with
  | some ':' => skipOne; return (k, ← item)
  | some _ => failNext .expectedColon
  | none => failNext .endInObject

/-- What follows a member: the next member, or the end of the object. -/
def laterMember (key : Reader κ) (item : Reader α) : Reader (Option (κ × α)) := do
  skipBlanks
  match ← peek with
  | none => failNext .endInObject
  | some '}' => skipOne; return none
  | some ',' =>
    skipOne
    skipBlanks
    match ← peek with
    | some '"' => return some (← member key item)
    | some '}' => failNext .trailingComma
    | some _ => failNext .keyNotText
    | none => failNext .endInValue
  | some _ => failNext .expectedObjectEnd

/-- The members of an object whose brace was consumed, and its end. -/
def members (key : Reader κ) (item : Reader α) : Reader (List (κ × α)) := do
  skipBlanks
  match ← peek with
  | none => failNext .endInObject
  | some '}' => skipOne; return []
  | some '"' => return (← member key item) :: (← untilNone (laterMember key item))
  | some _ => failNext .keyNotText

/-! ## Values -/

/-- The members of an outline, if all their keys are texts. -/
def outlineMembers (es : List (Option String × Value)) : Value :=
  match es.mapM fun e => e.1.map fun k => (k, e.2) with
  | some es => .object es
  | none => .unreadable

/-- A value whose inner values are read by `inner`, or which must have none. -/
def valueOver (strict : Bool) (inner : Option (Reader Value)) : Reader Value := do
  skipBlanks
  match ← peek with
  | none => failNext .endInValue
  | some 'n' => skipOne; word ['u', 'l', 'l']; return .null
  | some 't' => skipOne; word ['r', 'u', 'e']; return .bool true
  | some 'f' => skipOne; word ['a', 'l', 's', 'e']; return .bool false
  | some '"' =>
    skipOne
    if strict then return .text (← text) else return ((← outlineText).map .text).getD .unreadable
  | some '[' =>
    match inner with
    | none => failNext .tooDeep
    | some item => skipOne; return .list (← elements item)
  | some '{' =>
    match inner with
    | none => failNext .tooDeep
    | some item =>
      skipOne
      if strict then return .object (Entries.collect (← members text item))
      else return outlineMembers (← members outlineText item)
  | some c =>
    if c == '-' || c.isDigit then
      match (← numeral strict).value? with
      | some v => return v
      | none => if strict then failHere .numberOutOfRange else return .unreadable
    else failNext .expectedValue

/-- A value with at most `depth` levels of lists and objects. -/
def value (strict : Bool) : (depth : Nat) → Reader Value
  | 0 => valueOver strict none
  | depth + 1 => valueOver strict (some (value strict depth))

/-- What a value is called when another kind was expected. -/
def describe : Value → String
  | .null => "null"
  | .bool b => "boolean `" ++ (if b then "true" else "false") ++ "`"
  | .int i => "integer `" ++ i.repr ++ "`"
  | .double x => "floating point `" ++ String.ofList x.render ++ "`"
  | .text s => "string " ++ quote s
  | .list _ => "sequence"
  | .object _ => "map"
  | .unreadable => "null"

/-- Fails because the next value, of whatever kind it is, is not what was expected. A list or an
object is not read for it. -/
def wrongType (expected : String) : Reader α := do
  match ← peek with
  | some '[' => failHere (.invalidType "sequence" expected)
  | some '{' => failHere (.invalidType "map" expected)
  | _ => failHere (.invalidType (describe (← valueOver true none)) expected)

/-- A text as the value of a member. -/
def textItem : Reader String := do
  skipBlanks
  match ← peek with
  | none => failNext .endInValue
  | some '"' => skipOne; text
  | some _ => wrongType "a string"

/-- An object whose values are texts. -/
def textMap : Reader (Dict String String) := do
  skipBlanks
  match ← peek with
  | none => failNext .endInValue
  | some '{' => skipOne; return .ofList (← members text textItem)
  | some _ => wrongType "a map"

/-- Reads a whole document, after which only blanks may follow. -/
def readAll (r : Reader α) (input : Bytes) : Except ParseError α :=
  let whole : Reader α := do
    let x ← r
    skipBlanks
    match ← peek with
    | none => return x
    | some _ => failNext .trailingCharacters
  match whole input with
  | .ok (x, _) => .ok x
  | .error f => .error (f.locate input)

end Reader

namespace Value

/-- The greatest number of nested lists and objects. -/
def maxDepth : Nat := 127

/-- Reads a document that denotes a value. -/
def read (input : Bytes) : Except ParseError Value := (Reader.value true maxDepth).readAll input

/-- Reads the outline of a well-formed document. -/
def outline (input : Bytes) : Except ParseError Value :=
  (Reader.value false input.length).readAll input

end Value

end TaskQueue.Json
