import TaskQueue.Text.Numeral
import TaskQueue.Url.Basic

/-!
# Where a server is

The address of a server is written as a URL: `redis://host:endpoint/database` for one on the
network, and `unix:///path?db=database` or `redis+unix:///path?db=database` for one behind a socket
file.

Out of scope: encrypted connections, whose scheme is refused, and looking up the name of a host.
-/

namespace TaskQueue.Redis

open Text

/-- Where a server is, and which of its databases is used. -/
inductive Address where
  | network (host : Url.Host) (endpoint : Nat) (database : Int)
  | socket (path : Bytes) (database : Int)
  deriving DecidableEq

/-- Why a text is no address. -/
inductive AddressError where
  /-- It is no URL, or the URL of something else. -/
  | unreadable
  | noHost
  | noPath
  /-- Encrypted connections are not supported. -/
  | encrypted
  | database
  /-- The name of the user is not in UTF-8. -/
  | user
  | password
  deriving DecidableEq, Repr

/-- The wording of an error. -/
def AddressError.message (e : AddressError) : String :=
  let reason := match e with
    | unreadable => "Redis URL did not parse"
    | noHost => "Missing hostname"
    | noPath => "Missing path"
    | encrypted => "can't connect with TLS, the feature is not enabled"
    | database => "Invalid database number"
    | user => "Username is not valid UTF-8 string"
    | password => "Password is not valid UTF-8 string"
  reason ++ "- InvalidClientConfig"

namespace Address

/-- The endpoint of a URL that names none. -/
def standardEndpoint : Nat := 6379

/-- The number of a database. -/
def database? (s : String) : Except AddressError Int :=
  (integer? s).elim (.error .database) .ok

/-- Leaves out slashes at both ends. -/
def trimSlashes (cs : List Char) : List Char :=
  ((cs.dropWhile (· == '/')).reverse.dropWhile (· == '/')).reverse

/-- What is written with percent signs must be in UTF-8. -/
def checkUtf8 (e : AddressError) (cs : List Char) : Except AddressError Unit :=
  if (Utf8.decode? (percentDecode cs)).isSome then .ok () else .error e

/-- A server on the network. Without a path the first database is used. -/
def ofNetwork (u : Url) : Except AddressError Address := do
  let some host := u.host | .error .noHost
  if u.scheme = "rediss" then throw .encrypted
  let path := trimSlashes u.path.text
  let database ← if path.isEmpty then pure 0 else database? (.ofList path)
  checkUtf8 .user u.user.name
  checkUtf8 .password u.user.password
  return .network host (u.endpoint.getD standardEndpoint) database

/-- A path that ends with the name of a drive goes on with a slash. -/
def closeDrive (path : Bytes) : Bytes :=
  match path.reverse with
  | mark :: letter :: _ =>
    if (mark = 0x3A || mark = 0x7C) && (Char.ofNat letter.toNat).isAlpha then path ++ [0x2F]
    else path
  | _ => path

/-- The path of the socket file. Only this machine has one. -/
def socketPath? (u : Url) : Option Bytes :=
  match u.host, u.path with
  | none, .segments ss | some (.name "localhost"), .segments ss =>
    some (closeDrive (ss.flatMap fun s => 0x2F :: percentDecode s))
  | _, _ => none

/-- A server behind a socket file. Without a query the first database is used. -/
def ofSocket (u : Url) : Except AddressError Address := do
  let some path := socketPath? u | .error .noPath
  let database ← match u.queryValue? "db" with
    | none => pure 0
    | some cs => (Url.queryText? cs).elim (.error .database) database?
  return .socket path database

/-- Reads the address of a server. -/
def ofUrl (url : String) : Except AddressError Address :=
  match Url.parse? url with
  | none => .error .unreadable
  | some u =>
    if ["redis", "rediss"].contains u.scheme then ofNetwork u
    else if ["unix", "redis+unix"].contains u.scheme then ofSocket u
    else .error .unreadable

end Address

end TaskQueue.Redis
