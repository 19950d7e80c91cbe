/-!
# Handlers

A handler runs a task. The engines only look at how it ended, and at the text of a failure.

Out of scope: a handler that is given up before its end. Nothing does that to one.
-/

namespace TaskQueue

/-- How a handler ended. -/
inductive HandlerEnd where
  | succeeded
  /-- It failed, for these reasons, the outermost first. -/
  | failed (reasons : List String)
  /-- It broke down, with a text if it left one. -/
  | brokeDown (text : Option String)
  deriving DecidableEq, Repr

/-- The text of a failure. -/
def HandlerEnd.error? : HandlerEnd → Option String
  | succeeded => none
  | failed reasons => some (": ".intercalate reasons)
  | brokeDown text => some ("handler panicked: " ++ text.getD "unknown panic payload")

end TaskQueue
