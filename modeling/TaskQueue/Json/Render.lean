import TaskQueue.Json.Basic
import TaskQueue.Text.Utf8

/-!
# Writing JSON

The compact form, without blanks. In a text, quotes, backslashes and the characters below U+0020 are
escaped and nothing else is. A double that is not finite has no form of its own and is written as
`null`.

Out of scope: the indented form, which nothing writes.
-/

namespace TaskQueue.Json

open Text

/-- A hexadecimal digit in lower case. -/
def hexDigit (n : Nat) : Char := Nat.digitChar (n % 16)

/-- A character inside a text. -/
def escapeChar (c : Char) : List Char :=
  match c with
  | '"' => ['\\', '"']
  | '\\' => ['\\', '\\']
  | '\x08' => ['\\', 'b']
  | '\x0c' => ['\\', 'f']
  | '\n' => ['\\', 'n']
  | '\r' => ['\\', 'r']
  | '\t' => ['\\', 't']
  | c =>
    if c.toNat < 0x20 then ['\\', 'u', '0', '0', hexDigit (c.toNat / 16), hexDigit c.toNat] else [c]

/-- A text in quotes. -/
def renderText (s : String) : List Char := '"' :: s.toList.flatMap escapeChar ++ ['"']

namespace Value

mutual

/-- The compact form of a value. -/
def renderChars : Value → List Char
  | null => ['n', 'u', 'l', 'l']
  | bool true => ['t', 'r', 'u', 'e']
  | bool false => ['f', 'a', 'l', 's', 'e']
  | int i => i.repr.toList
  | double x => if x.isFinite then x.render else ['n', 'u', 'l', 'l']
  | text s => renderText s
  | list [] => ['[', ']']
  | list (x :: xs) => '[' :: x.renderChars ++ renderRest xs
  | object [] => ['{', '}']
  | object ((k, x) :: es) => '{' :: renderText k ++ ':' :: x.renderChars ++ renderMembers es
  | unreadable => ['n', 'u', 'l', 'l']

/-- The further elements of a list and its end. -/
def renderRest : List Value → List Char
  | [] => [']']
  | x :: xs => ',' :: x.renderChars ++ renderRest xs

/-- The further members of an object and its end. -/
def renderMembers : List (String × Value) → List Char
  | [] => ['}']
  | (k, x) :: es => ',' :: renderText k ++ ':' :: x.renderChars ++ renderMembers es

end

/-- The compact form of a value. -/
def render (v : Value) : String := String.ofList v.renderChars

/-- The bytes of the compact form. -/
def toBytes (v : Value) : Bytes := Utf8.encode v.renderChars

end Value

end TaskQueue.Json
