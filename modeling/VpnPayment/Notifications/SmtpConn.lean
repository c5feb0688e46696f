import Mathlib.Data.List.Induction
import VpnPayment.Collections.Crlf
import VpnPayment.Collections.Decimal

/-! `SmtpConn` puts the replies of a mail server together from data events and hands
them to reads. Texts are lists of characters. -/
namespace VpnPayment

open Crlf

/-- A final response line is "NNN " (space after the code). -/
def isFinalLine : List Char → Bool
  | a :: b :: c :: ' ' :: _ => a.isDigit && b.isDigit && c.isDigit
  | _ => false

/-- The code at the beginning of a line, JavaScript `Number(line.slice(0, 3))`. -/
def lineCode (line : List Char) : Nat :=
  Decimal.value (line.take 3)

/-- What `read` resolves with. -/
structure SmtpResponse where
  code : Nat
  text : List Char
deriving DecidableEq

structure SmtpConn where
  buffer : List Char
  /-- A promise of `read` is pending. -/
  waiter : Bool
deriving DecidableEq

namespace SmtpConn

def opened : SmtpConn := ⟨[], false⟩

def tryResolve (conn : SmtpConn) : SmtpConn × Option SmtpResponse :=
  let lines := lines conn.buffer
  match lines.findIdx? isFinalLine with
  | some i =>
      let code := lineCode (lines.getD i [])
      let consumed := joinedLength (lines.take (i + 1)) + 2
      (⟨conn.buffer.drop consumed, false⟩,
        if conn.waiter then some ⟨code, List.intercalate ['\n'] (lines.take (i + 1))⟩ else none)
  | none => (conn, none)

/-- The handler of a data event. -/
def onData (conn : SmtpConn) (d : List Char) : SmtpConn × Option SmtpResponse :=
  tryResolve { conn with buffer := conn.buffer ++ d }

def read (conn : SmtpConn) : SmtpConn × Option SmtpResponse :=
  tryResolve { conn with waiter := true }

end SmtpConn

/-- What happens at a connection. -/
inductive SmtpEvent
  | data (d : List Char)
  | read

/-- A connection with its history. -/
structure SmtpSession where
  conn : SmtpConn
  /-- How much of the stream has left the buffer. -/
  removed : Nat
  /-- The responses that were read, each with the place in the stream at which its final
  line begins. -/
  responses : List (Nat × SmtpResponse)

namespace SmtpSession

def start : SmtpSession := ⟨.opened, 0, []⟩

/-- Where the first final line begins. -/
def finalPlace (ls : List (List Char)) : Nat :=
  ((ls.takeWhile fun l => !isFinalLine l).map fun l => l.length + 2).sum

def step (s : SmtpSession) : SmtpEvent → SmtpSession
  | .data d =>
      let (conn, response) := s.conn.onData d
      let arrived := s.conn.buffer ++ d
      ⟨conn, s.removed + (arrived.length - conn.buffer.length), s.responses ++
        (response.map fun r => (s.removed + finalPlace (lines arrived), r)).toList⟩
  | .read =>
      let (conn, response) := s.conn.read
      ⟨conn, s.removed + (s.conn.buffer.length - conn.buffer.length), s.responses ++
        (response.map fun r => (s.removed + finalPlace (lines s.conn.buffer), r)).toList⟩

def run (s : SmtpSession) (events : List SmtpEvent) : SmtpSession :=
  events.foldl step s

/-- A read is pending for each reply in turn: one is made whenever none is pending, and
none before. -/
def InTurn : SmtpSession → List SmtpEvent → Prop
  | s, [] => s.conn.waiter = true
  | s, .data d :: rest => s.conn.waiter = true ∧ InTurn (s.step (.data d)) rest
  | s, .read :: rest => s.conn.waiter = false ∧ InTurn (s.step .read) rest

instance decidableInTurn : (s : SmtpSession) → (events : List SmtpEvent) → Decidable (s.InTurn events)
  | s, [] => inferInstanceAs (Decidable (s.conn.waiter = true))
  | s, .data d :: rest =>
      have := decidableInTurn (s.step (.data d)) rest
      inferInstanceAs (Decidable (s.conn.waiter = true ∧ _))
  | s, .read :: rest =>
      have := decidableInTurn (s.step .read) rest
      inferInstanceAs (Decidable (s.conn.waiter = false ∧ _))

end SmtpSession

/-- The data events, in order. -/
def SmtpEvent.chunks (events : List SmtpEvent) : List (List Char) :=
  events.filterMap fun
    | .data d => some d
    | .read => none

/-- A reply as the protocol has it: any number of lines "NNN-text", then "NNN text". -/
structure SmtpReply where
  digits : List Char
  /-- The texts of the lines before the last. -/
  more : List (List Char)
  text : List Char
  three : digits.length = 3 ∧ ∀ d ∈ digits, d.isDigit = true
  plain : ∀ t ∈ text :: more, '\r' ∉ t ∧ '\n' ∉ t

namespace SmtpReply

def code (r : SmtpReply) : Nat :=
  Decimal.value r.digits

def finalLine (r : SmtpReply) : List Char :=
  r.digits ++ ' ' :: r.text

def continued (r : SmtpReply) : List (List Char) :=
  r.more.map fun t => r.digits ++ '-' :: t

/-- What the server sends. -/
def wire (r : SmtpReply) : List Char :=
  (r.continued ++ [r.finalLine]).flatMap (· ++ ['\r', '\n'])

/-- Where the final line begins in the reply. -/
def finalAt (r : SmtpReply) : Nat :=
  (r.continued.flatMap (· ++ ['\r', '\n'])).length

end SmtpReply

end VpnPayment
