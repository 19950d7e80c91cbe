import TaskQueue.Text.Hex
import TaskQueue.Text.Unprintable

/-!
# Quoted text

How a message shows a text it was given: between double quotes, with whatever cannot be shown as it
is written as an escape.
-/

namespace TaskQueue.Text

/-- A character inside the quotes. -/
def quoteChar : Char → List Char
  | '"' => ['\\', '"']
  | '\\' => ['\\', '\\']
  | '\n' => ['\\', 'n']
  | '\r' => ['\\', 'r']
  | '\t' => ['\\', 't']
  | '\x00' => ['\\', '0']
  | c => if isUnprintable c then ['\\', 'u', '{'] ++ hex c.toNat ++ ['}'] else [c]

/-- A text between double quotes. -/
def quote (s : String) : String :=
  String.ofList ('"' :: s.toList.flatMap quoteChar ++ ['"'])

end TaskQueue.Text
