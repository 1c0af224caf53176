import CodeAtlas.Error
import CodeAtlas.Text.Blank
import CodeAtlas.Text.Numeral
import CodeAtlas.Text.Utf8

/-!
# Replies

What a graph server answers: a line whose first character tells its kind, with the length or the
number of the parts that follow it. Reading takes bytes from the front of a stream and gives the
bytes left over, also where it fails.
-/

namespace CodeAtlas.Remote

inductive Reply where
  | status (text : String)
  | failure (text : String)
  | number (value : Int)
  | bytes (value : Bytes)
  | list (items : List Reply)
  | nothing
deriving Repr

namespace Reply

def text? : Reply → Option String
  | status text => some text
  | bytes value => (Text.Utf8.decode value).toOption
  | number value => some (toString value)
  | _ => none

/-- A reply as a number, where it is or reads as one. -/
def number? (reply : Reply) : Option Int :=
  match reply with
  | number value => some value
  | _ => reply.text?.bind fun text => (Text.Numeral.signed64 (Text.trim text)).toOption

end Reply

/-- What is wrong with a stream of replies. -/
inductive ReplyError where
  | stream (cause : SystemError)
  | malformed (reason : String)
deriving DecidableEq, Repr

namespace ReplyError

def toError : ReplyError → Error
  | stream cause => .system cause
  | malformed reason => .query s!"malformed reply from graph server: {reason}"

end ReplyError

/-! ## Reading -/

namespace Reply

abbrev Read (α : Type) := Except ReplyError α × Bytes

def carriageReturn : UInt8 := 0x0D

def lineFeed : UInt8 := 0x0A

def lineEnd : Bytes := [carriageReturn, lineFeed]

/-- Takes bytes up to a line feed and with it, or all there are. -/
def takeLine : Bytes → Bytes × Bytes
  | [] => ([], [])
  | byte :: rest =>
      if byte = lineFeed then ([byte], rest)
      else
        let (line, rest) := takeLine rest
        (byte :: line, rest)

def readLine (stream : Bytes) : Read String :=
  if stream.isEmpty then (.error (.stream .unexpectedEnd), [])
  else
    let (line, rest) := takeLine stream
    if lineEnd.isSuffixOf line then
      match Text.Utf8.decode (line.take (line.length - 2)) with
      | .ok text => (.ok text, rest)
      | .error fault => (.error (.malformed fault.message), rest)
    else (.error (.malformed "line not terminated by CRLF"), rest)

/-- The number a line holds behind its first character. -/
def lineNumber (body : String) : Except ReplyError Int :=
  match Text.Numeral.signed64 body with
  | .ok value => .ok value
  | .error error => .error (.malformed s!"bad number '{body}': {error.message}")

/-- Number of bytes that are read for a string of a given length. -/
def bulkSize (length : Nat) : Nat := length + lineEnd.length

def readBulk (length : Nat) (stream : Bytes) : Read Reply :=
  let taken := stream.take (bulkSize length)
  if taken.length < bulkSize length then (.error (.stream .shortRead), [])
  else
    let rest := stream.drop (bulkSize length)
    if lineEnd.isSuffixOf taken then (.ok (.bytes (taken.take length)), rest)
    else (.error (.malformed "bulk string not terminated by CRLF"), rest)

mutual

/-- Reads a reply. Each one takes up a line at least. -/
def readFuel : Nat → Bytes → Read Reply
  | 0, stream => (.error (.stream .unexpectedEnd), stream)
  | fuel + 1, stream =>
      match readLine stream with
      | (.error error, rest) => (.error error, rest)
      | (.ok header, rest) =>
          match header.toList with
          | '+' :: body => (.ok (.status (String.ofList body)), rest)
          | '-' :: body => (.ok (.failure (String.ofList body)), rest)
          | ':' :: body =>
              match lineNumber (String.ofList body) with
              | .error error => (.error error, rest)
              | .ok value => (.ok (.number value), rest)
          | '$' :: body =>
              match lineNumber (String.ofList body) with
              | .error error => (.error error, rest)
              | .ok (.negSucc _) => (.ok .nothing, rest)
              | .ok (.ofNat length) => readBulk length rest
          | '*' :: body =>
              match lineNumber (String.ofList body) with
              | .error error => (.error error, rest)
              | .ok (.negSucc _) => (.ok .nothing, rest)
              | .ok (.ofNat count) => readItemsFuel fuel count [] rest
          | _ => (.error (.malformed s!"unknown reply type in '{header}'"), rest)

/-- Reads the items of a list; those read are in reverse. -/
def readItemsFuel : Nat → Nat → List Reply → Bytes → Read Reply
  | _, 0, read, stream => (.ok (.list read.reverse), stream)
  | 0, _, _, stream => (.error (.stream .unexpectedEnd), stream)
  | fuel + 1, count + 1, read, stream =>
      match readFuel fuel stream with
      | (.error error, rest) => (.error error, rest)
      | (.ok item, rest) => readItemsFuel fuel count (item :: read) rest

end

def read (stream : Bytes) : Read Reply := readFuel (2 * stream.length + 2) stream

end Reply

end CodeAtlas.Remote
