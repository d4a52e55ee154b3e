import Gathering.Cache.Glob
import Gathering.Cache.TimedMap
import Gathering.Decimal.Layout
import Gathering.Decimal.Reading
import Gathering.Error
import Gathering.Text.Utf8

/-!
# The cache on a Redis server

The calls of the cache as commands to a Redis server, and the answers read from
the server's replies. A command is a list of byte strings. A reply that is an
error, or that is not of the kind that the command asks for, fails the call. A
reply that cannot even be read ends the connection as well: it holds an integer
of more than 64 bits, or goes too deep.

The keys that begin with a text come in pages. Each page names the cursor of the
next one, and the cursor zero says that it was the last. The server may repeat a
key; the answer has each key once, ascending.
-/

namespace Gathering.Cache.Redis

/-- A command: its name and its arguments. -/
abbrev Command := List ByteArray

/-- **A reply of the server.** -/
inductive Reply where
  /-- No value. -/
  | nil
  /-- A whole number. -/
  | int (n : Int)
  /-- A byte string. -/
  | bulk (bytes : ByteArray)
  /-- A short text about the outcome. -/
  | simple (s : String)
  /-- An error. -/
  | error (s : String)
  /-- A list of replies. -/
  | array (items : List Reply)

namespace Reply

mutual

/-- Whether a reply is an error or holds one. -/
def isError : Reply → Bool
  | error _ => true
  | array items => anyError items
  | _ => false

/-- Whether one of several replies is an error or holds one. -/
def anyError : List Reply → Bool
  | [] => false
  | r :: rs => r.isError || anyError rs

end

/-- How many replies may lie one within the other. -/
def depthLimit : Nat := 100

mutual

/-- Whether a reply can be read at all, if it may be so many levels deep: its integers have 64 bits
with the sign. -/
def fits : Nat → Reply → Bool
  | 0, _ => false
  | _ + 1, int n => -(1 <<< 63) ≤ n && n < 1 <<< 63
  | levels + 1, array items => allFit levels items
  | _ + 1, _ => true

/-- Whether each of several replies can be read. -/
def allFit : Nat → List Reply → Bool
  | _, [] => true
  | levels, r :: rs => r.fits levels && allFit levels rs

end

/-- The reply as a text. -/
def text? : Reply → Option String
  | bulk bytes => Text.decode? bytes
  | simple s => some s
  | int n => some (Decimal.signText (n < 0) ++ Decimal.digitText n.natAbs)
  | _ => none

/-- The number below a bound that a reply holds; an integer is taken modulo the bound. -/
def word? (bound : Nat) : Reply → Option Nat
  | int n => some (n % bound).toNat
  | bulk bytes => (Text.decode? bytes).bind (Decimal.natBelow? bound)
  | simple s => Decimal.natBelow? bound s
  | _ => none

/-- The signed number of 64 bits that a text stands for. -/
def intOfText? (s : String) : Option Int :=
  match s.toList with
  | '-' :: cs =>
    if cs.isEmpty ∨ ¬ cs.all Char.isDigit then none
    else
      let n := Decimal.natOfDigits cs
      if n ≤ 1 <<< 63 then some (-(n : Int)) else none
  | _ => (Decimal.natBelow? (1 <<< 63) s).map Int.ofNat

/-- The reply as a signed number. -/
def int? : Reply → Option Int
  | int n => some n
  | bulk bytes => (Text.decode? bytes).bind intOfText?
  | simple s => intOfText? s
  | _ => none

/-- The reply as a byte string; a list of numbers holds its bytes one by one. -/
def bytes? : Reply → Option ByteArray
  | bulk bytes => some bytes
  | array items => (items.mapM (word? 256)).map fun ns => ⟨(ns.map UInt8.ofNat).toArray⟩
  | _ => none

/-- The reply as a byte string that may be missing. -/
def value? : Reply → Option (Option ByteArray)
  | nil => some none
  | r => r.bytes?.map some

/-- The reply as a list: what is no list is a list of one. -/
def list? {α : Type} (read : Reply → Option α) : Reply → Option (List α)
  | nil => some []
  | array items => items.mapM read
  | bulk bytes => (read (bulk bytes)).map ([·])
  | _ => none

/-- The reply as a page of keys behind the cursor of the next page. -/
def page? : Reply → Option (Nat × List String)
  | array [cursor, keys] => do
    let next ← cursor.word? (1 <<< 64)
    let found ← keys.list? text?
    some (next, found)
  | _ => none

end Reply

/-! ## The connection -/

/-- **A connection to a server**: what it will still reply, and what it was sent. -/
structure Link where
  /-- The replies to come; the server closes the connection when they run out. -/
  pending : List Reply
  /-- The commands that were sent, the first one at the front. -/
  sent : List Command := []
  /-- Whether the connection has come to its end. -/
  closed : Bool := false

namespace Link

/-- Sends a command and takes the reply. One that cannot be read ends the connection. -/
def ask (link : Link) (command : Command) : Except Error Reply × Link :=
  if link.closed then (.error .redis, link)
  else
    let sent := link.sent ++ [command]
    match link.pending with
    | [] => (.error .redis, { link with sent, closed := true })
    | reply :: rest =>
      if ¬ reply.fits Reply.depthLimit then
        (.error .redis, { link with sent, pending := rest, closed := true })
      else (if reply.isError then .error .redis else .ok reply, { link with sent, pending := rest })

/-- A reply uses up one of the replies to come. -/
theorem pending_lt_of_ask {link link' : Link} {command : Command} {reply : Reply}
    (h : link.ask command = (.ok reply, link')) : link'.pending.length < link.pending.length := by
  unfold ask at h
  split at h
  · simp at h
  · split at h
    · simp at h
    · next heq =>
      split at h
      · simp at h
      · simp only [Prod.mk.injEq] at h
        rw [← h.2, heq]
        simp

/-- Sends a command and reads the reply in one way. -/
def query {α : Type} (link : Link) (command : Command) (read : Reply → Option α) :
    Except Error α × Link :=
  match link.ask command with
  | (.error e, link) => (.error e, link)
  | (.ok reply, link) =>
    match read reply with
    | some a => (.ok a, link)
    | none => (.error .redis, link)

end Link

/-! ## Commands -/

/-- A text as an argument. -/
def word (s : String) : ByteArray := Text.encode s

/-- A number as an argument. -/
def number (n : Nat) : ByteArray := word (Decimal.digitText n)

/-- A span as a number of milliseconds that fits 64 bits, at least one. -/
def milliseconds (ttl : Span) : ByteArray :=
  number (max (min ttl.millis ((1 <<< 64) - 1)) 1)

/-- The arguments that set how long an entry lives. -/
def lifetime : Option Span → Command
  | none => []
  | some ttl => [word "PX", milliseconds ttl]

/-- The command for one page of the keys of a pattern. -/
def scanCommand (pattern : String) (count cursor : Nat) : Command :=
  [word "SCAN", number cursor, word "MATCH", word pattern, word "COUNT", number count]

/-- Adds keys to those that were found. -/
def addKeys (found : Keyed Unit) (keys : List String) : Keyed Unit :=
  keys.foldl (fun m key => m.insert key ()) found

/-- **Collects the keys of a pattern**, page by page from a cursor on. -/
def scanFrom (pattern : String) (count : Nat) (cursor : Nat) (found : Keyed Unit) (link : Link) :
    Except Error (List String) × Link :=
  match _h : link.ask (scanCommand pattern count cursor) with
  | (.error e, link') => (.error e, link')
  | (.ok reply, link') =>
    match reply.page? with
    | none => (.error .redis, link')
    | some (next, keys) =>
      let found := addKeys found keys
      if next = 0 then (.ok (found.entries.map (·.1)), link')
      else scanFrom pattern count next found link'
termination_by link.pending.length
decreasing_by exact Link.pending_lt_of_ask _h

/-- What the server has to say when it is asked whether it is there. -/
def checkPong (s : String) : Except Error Unit :=
  if s = "PONG" then .ok () else .error (.other ("unexpected PING reply: " ++ s))

/-- **Answers a call of the cache from the server.** No keys need no command. -/
def perform (link : Link) : (call : Call) → Except Error call.Answer × Link
  | .ping =>
    match link.query [word "PING"] Reply.text? with
    | (.ok s, link) => (checkPong s, link)
    | (.error e, link) => (.error e, link)
  | .get key => link.query [word "GET", word key] Reply.value?
  | .set key value ttl =>
    link.query ([word "SET", word key, value] ++ lifetime ttl) fun _ => some ()
  | .getMany [] => (.ok [], link)
  | .getMany (key :: keys) =>
    link.query (word "MGET" :: (key :: keys).map word) (Reply.list? Reply.value?)
  | .scan start pageSize =>
    scanFrom (Glob.beginningWith start) (max pageSize 1) 0 .empty link
  | .delete key => link.query [word "DEL", word key] fun r => r.int?.map (0 < ·)
  | .expire key ttl =>
    link.query [word "PEXPIRE", word key, milliseconds ttl] fun r => r.int?.map (· == 1)

end Gathering.Cache.Redis
