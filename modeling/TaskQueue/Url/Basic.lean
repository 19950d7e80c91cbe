import TaskQueue.Text.Percent
import TaskQueue.Text.Pieces
import TaskQueue.Url.Host

/-!
# URLs

A URL has a scheme. After two slashes it names a host, perhaps with a user in front and an endpoint
behind, and then a path of segments. Without the slashes it has a path only, which has segments when
it begins with a slash. After a question mark stands a query, and after a number sign what is read
by nobody.

This is how a scheme is read that has no rules of its own.

Out of scope: the schemes with rules of their own, such as those of the web, and references that are
relative to another URL.
-/

namespace TaskQueue

open Text

/-- Who uses a host, as it is written. -/
structure Url.User where
  name : List Char
  password : List Char
  deriving DecidableEq

/-- The path of a URL. -/
inductive Url.Path where
  | segments (ss : List (List Char))
  /-- A path that does not begin with a slash. -/
  | plain (cs : List Char)
  deriving DecidableEq

/-- The parts of a URL. -/
structure Url where
  scheme : String
  user : Url.User
  host : Option Url.Host
  endpoint : Option Nat
  path : Url.Path
  query : List Char
  deriving DecidableEq

namespace Url

/-! ## Paths -/

/-- A segment that stays where it is. -/
def isHere (s : List Char) : Bool := [['.'], ['%', '2', 'e']].contains (s.map Char.toLower)

/-- A segment that leads one segment back. -/
def isBack (s : List Char) : Bool :=
  [['.', '.'], ['.', '%', '2', 'e'], ['%', '2', 'e', '.'], ['%', '2', 'e', '%', '2', 'e']].contains
    (s.map Char.toLower)

/-- A drive: a letter and a colon or a bar, which a backslash may follow. -/
def isDrive : List Char → Bool
  | c :: d :: r => c.isAlpha && [':', '|'].contains d && r.head?.all (· == '\\')
  | _ => false

/-- One segment back in a reversed path. No step leads back from a drive. -/
def stepBack : List (List Char) → List (List Char)
  | [] => []
  | s :: ss => if isDrive s then s :: ss else ss

/-- Follows segments one after the other from `done` on, which is reversed. A path that ends with a
step back or none at all ends with an empty segment. -/
def follow (done : List (List Char)) : List (List Char) → List (List Char)
  | [] => done.reverse
  | s :: ss =>
    if isBack s || isHere s then
      let done := if isBack s then stepBack done else done
      follow (if ss.isEmpty then [] :: done else done) ss
    else follow (s :: done) ss

/-- The path that is written after a scheme or a host. -/
def Path.ofText : List Char → Path
  | '/' :: cs => .segments (follow [] (pieces '/' cs))
  | cs => .plain cs

/-- The text of a path. -/
def Path.text : Path → List Char
  | .segments ss => ss.flatMap ('/' :: ·)
  | .plain cs => cs

/-! ## Hosts -/

/-- The endpoint after a host, if there is one, and what follows it: nothing, or a backslash with
which a path begins. -/
def endpoint? : List Char → Option (Option Nat × List Char)
  | ':' :: cs =>
    let ds := cs.takeWhile Char.isDigit
    let r := cs.dropWhile Char.isDigit
    let n := Nat.ofDigitChars 10 ds 0
    if 65535 < n ∨ (r.head?.any (· != '\\')) then none
    else some (if ds.isEmpty then none else some n, r)
  | [] => some (none, [])
  | _ => none

/-- The user in front of a host, and the host. -/
def splitUser (cs : List Char) : Option (List Char) × List Char :=
  match before ['@'] cs.reverse with
  | (server, _ :: user) => (some user.reverse, server.reverse)
  | (server, []) => (none, server.reverse)

/-- The name and the password of a user. -/
def User.ofText (cs : List Char) : User := ⟨(before [':'] cs).1, (before [':'] cs).2.tail⟩

/-- Without a host there is no user and no endpoint. `more` says that something follows. -/
def mayLackHost (user : Option (List Char)) (server : List Char) (more : Bool) : Bool :=
  server.isEmpty && match user with
    | none | some [':'] => true
    | some cs => cs.isEmpty && !more

/-- Reads what stands after two slashes. -/
def ofServer? (scheme : String) (cs query : List Char) (more : Bool) : Option Url := do
  let (authority, path) := before ['/'] cs
  let (user, server) := splitUser authority
  let (host, r) ← Host.scan? server
  guard (host.isSome || mayLackHost user server (more || !path.isEmpty))
  let (endpoint, r) ← endpoint? r
  let path := if r.isEmpty then path else '/' :: r ++ path
  return ⟨scheme, .ofText (user.getD []), host, endpoint, .ofText path, query⟩

/-! ## Whole URLs -/

/-- Controls and spaces around a URL do not count, and tabulators and ends of lines nowhere. -/
def clean (cs : List Char) : List Char :=
  let cs := (cs.dropWhile (· ≤ ' ')).reverse.dropWhile (· ≤ ' ')
  cs.reverse.filter fun c => c ∉ ['\t', '\n', '\r']

/-- A letter and then letters, digits, plus signs, hyphens and points. -/
def isScheme (cs : List Char) : Bool :=
  cs.head?.any Char.isAlpha && cs.all fun c => c.isAlphanum || ['+', '-', '.'].contains c

/-- Reads a URL. -/
def parse? (text : String) : Option Url := do
  let (scheme, r) ← cut? ':' (clean text.toList)
  guard (isScheme scheme)
  let scheme := String.ofList (scheme.map Char.toLower)
  let (front, back) := before ['?', '#'] r
  let query := if back.head? = some '?' then (before ['#'] back.tail).1 else []
  match front with
  | '/' :: '/' :: cs => ofServer? scheme cs query (!back.isEmpty)
  | cs => return ⟨scheme, .ofText [], none, none, .ofText cs, query⟩

/-! ## Queries -/

/-- The text that a name or a value of a query writes, where a plus sign is a space; none when it is
not in UTF-8. -/
def queryText? (cs : List Char) : Option String :=
  Utf8.decode? (percentDecode (cs.map fun c => if c = '+' then ' ' else c))

/-- The value of the last item `name=value` of a query, as it is written. An item without a value
has an empty one. -/
def queryValue? (u : Url) (name : String) : Option (List Char) :=
  let items := ((pieces '&' u.query).filter (!·.isEmpty)).map fun cs => (cut? '=' cs).getD (cs, [])
  (items.reverse.find? fun i => queryText? i.1 = some name).map Prod.snd

end Url

end TaskQueue
